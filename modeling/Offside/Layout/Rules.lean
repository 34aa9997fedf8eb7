import Offside.Token.Kind

/-!
What the layout pass does at each kind of token.

The pass knows how to open, separate and close contexts; a table says which
of these a kind of token does. Which words open blocks is thus a matter of
the language, and not of the pass.
-/

namespace Offside.Layout

/-- What happens at a token. -/
inductive Action
  /-- Close the blocks the token lies left of, separate, emit. -/
  | default
  /-- As by default, and end a pending record label. -/
  | label
  /-- The head of a declaration. -/
  | declHead
  /-- Open a `where` block. -/
  | whereKeyword
  /-- Close the nearest `let` or `ado` block. -/
  | inKeyword
  /-- Open a `let` block, of statements directly inside `do` or `ado`. -/
  | letKeyword
  | doKeyword
  | adoKeyword
  | caseKeyword
  | ofKeyword
  | ifKeyword
  | thenKeyword
  | elseKeyword
  | forallKeyword
  | backslash
  /-- End case binders, case guards and lambda binders. -/
  | arrow
  /-- End the guard of a local declaration. -/
  | equals
  /-- Open a guard. -/
  | pipe
  /-- Open or close an infix section. -/
  | tick
  | comma
  /-- End the binders of a `forall`, or start a record label. -/
  | dot
  | openParen
  | openBrace
  | openSquare
  | closeParen
  | closeBrace
  | closeSquare
  /-- Close the blocks the token does not lie right of. -/
  | operator
  deriving DecidableEq, Inhabited

namespace Action

/-- Every action. -/
def all : List Action :=
  [.default, .label, .declHead, .whereKeyword, .inKeyword, .letKeyword, .doKeyword,
   .adoKeyword, .caseKeyword, .ofKeyword, .ifKeyword, .thenKeyword, .elseKeyword,
   .forallKeyword, .backslash, .arrow, .equals, .pipe, .tick, .comma, .dot, .openParen,
   .openBrace, .openSquare, .closeParen, .closeBrace, .closeSquare, .operator]

/-- The name of an action in tables. -/
def name : Action → String
  | .default => "Default"
  | .label => "Label"
  | .declHead => "DeclHead"
  | .whereKeyword => "Where"
  | .inKeyword => "In"
  | .letKeyword => "Let"
  | .doKeyword => "Do"
  | .adoKeyword => "Ado"
  | .caseKeyword => "Case"
  | .ofKeyword => "Of"
  | .ifKeyword => "If"
  | .thenKeyword => "Then"
  | .elseKeyword => "Else"
  | .forallKeyword => "Forall"
  | .backslash => "Backslash"
  | .arrow => "Arrow"
  | .equals => "Equals"
  | .pipe => "Pipe"
  | .tick => "Tick"
  | .comma => "Comma"
  | .dot => "Dot"
  | .openParen => "OpenParen"
  | .openBrace => "OpenBrace"
  | .openSquare => "OpenSquare"
  | .closeParen => "CloseParen"
  | .closeBrace => "CloseBrace"
  | .closeSquare => "CloseSquare"
  | .operator => "Operator"

/-- The action of a name. -/
def ofName? (text : String) : Option Action :=
  all.find? fun action => action.name == text

end Action

/-- The action for each kind of token. -/
structure Rules where
  action : TokenKind → Action

namespace Rules

/-- The table in which every kind has the default action. -/
def allDefault : Rules := ⟨fun _ => .default⟩

/-- The table with another action for one kind. -/
def set (rules : Rules) (kind : TokenKind) (action : Action) : Rules :=
  ⟨fun other => if other = kind then action else rules.action other⟩

/-- The table that gives each kind its last action in a list, and the default
action to the kinds not listed. -/
def ofList (entries : List (TokenKind × Action)) : Rules :=
  entries.foldl (fun rules (kind, action) => rules.set kind action) allDefault

/-- The kinds whose action is not the default, in the order of the kinds. -/
def entries (rules : Rules) : List (TokenKind × Action) :=
  (TokenKind.all.map fun kind => (kind, rules.action kind)).filter fun (_, action) =>
    action != .default

end Rules

end Offside.Layout
