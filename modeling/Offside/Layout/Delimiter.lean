/-!
Reasons for which a layout context is open.

Some contexts are blocks, whose column governs what belongs to them. The
others are masks: they change how some tokens behave while they are open, and
close at particular tokens, never by column.
-/

namespace Offside

/-- The reason for a layout context. -/
inductive Delimiter
  /-- Under every other context; never closed. -/
  | root
  /-- A declaration of the module. -/
  | topDecl
  /-- The head of a data or class declaration, up to its `where` or `=`. -/
  | topDeclHead
  /-- The guard of a local declaration, up to its `=`. -/
  | declGuard
  /-- The head of a `case`, up to its `of`. -/
  | caseHead
  /-- The binders of a case branch, up to `->` or `|`. -/
  | caseBinders
  /-- The guard of a case branch, up to its `->`. -/
  | caseGuard
  /-- The binders of a lambda, up to its `->`. -/
  | lambdaBinders
  | paren
  | brace
  | square
  | ifHead
  | thenBranch
  /-- A place for a record label, where a reserved word is a plain label. -/
  | property
  /-- The binders of a `forall`, up to its point. -/
  | forallBinders
  /-- An infix section, up to its closing backquote. -/
  | tick
  | letBlock
  /-- A `let` block directly inside a `do` or an `ado` block. -/
  | letStmt
  | whereBlock
  | ofBlock
  | doBlock
  | adoBlock
  deriving DecidableEq, Inhabited

namespace Delimiter

/-- Every reason. -/
def all : List Delimiter :=
  [.root, .topDecl, .topDeclHead, .declGuard, .caseHead, .caseBinders, .caseGuard,
   .lambdaBinders, .paren, .brace, .square, .ifHead, .thenBranch, .property, .forallBinders,
   .tick, .letBlock, .letStmt, .whereBlock, .ofBlock, .doBlock, .adoBlock]

/-- The name that stacks show. -/
def name : Delimiter → String
  | .root => "Root"
  | .topDecl => "TopDecl"
  | .topDeclHead => "TopDeclHead"
  | .declGuard => "DeclGuard"
  | .caseHead => "Case"
  | .caseBinders => "CaseBinders"
  | .caseGuard => "CaseGuard"
  | .lambdaBinders => "LambdaBinders"
  | .paren => "Paren"
  | .brace => "Brace"
  | .square => "Square"
  | .ifHead => "If"
  | .thenBranch => "Then"
  | .property => "Property"
  | .forallBinders => "Forall"
  | .tick => "Tick"
  | .letBlock => "Let"
  | .letStmt => "LetStmt"
  | .whereBlock => "Where"
  | .ofBlock => "Of"
  | .doBlock => "Do"
  | .adoBlock => "Ado"

/-- The reason of a name. -/
def ofName? (text : String) : Option Delimiter :=
  all.find? fun delimiter => delimiter.name == text

/-- Whether the context is a block, whose column governs what belongs to it. -/
def isIndent : Delimiter → Bool
  | .letBlock | .letStmt | .whereBlock | .ofBlock | .doBlock | .adoBlock => true
  | _ => false

end Delimiter

end Offside
