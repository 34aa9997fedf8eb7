import Offside.Grammar.Input
import Offside.Token.Set
import Offside.Tree.Kind

/-!
Grammars as data.

A grammar says which tokens to match, in what order, and what tree to make
of them. Choice is committed: once an alternative has consumed a token, the
others are out, unless it stands in an `attempt` or a `heal`. Two grammars
recover from errors: `relax` goes on without what is missing, and `relaxTo`
skips what is malformed. Rules that refer to each other stand in a table, and
a grammar refers to a rule by its number there.
-/

namespace Offside

/-- What to match, and what tree to make of it. -/
inductive Grammar
  /-- One token of a kind. -/
  | token (kind : TokenKind)
  /-- One token with a given text. -/
  | literal (text : String)
  /-- The parts, in order. -/
  | seq (parts : List Grammar)
  /-- The first alternative that matches or consumes a token. -/
  | choice (alternatives : List Grammar)
  /-- The child as often as it matches, and at least `least` times. -/
  | many (child : Grammar) (least : Nat)
  /-- The child, or nothing. -/
  | optional (child : Grammar)
  /-- The child or no trace of it; errors inside are not recovered. -/
  | attempt (child : Grammar)
  /-- The child or no trace of it; errors inside are recovered. -/
  | heal (child : Grammar)
  /-- The child, if the text it consumes is accepted. -/
  | guard (child : Grammar) (message : String) (accepts : String → Bool)
  /-- The child, in a node of its own. -/
  | node (kind : NodeKind) (child : Grammar)
  /-- The child, under another description. -/
  | labeled (label : String) (child : Grammar)
  /-- The child, or a report that it is missing. -/
  | relax (message : String) (child : Grammar)
  /-- The child, or a report on the input that is skipped up to where `sync`
  matches. -/
  | relaxTo (message : String) (child sync : Grammar)
  /-- A start and any number of steps, each wrapping everything before it. -/
  | fold (kind : NodeKind) (start step : Grammar)
  /-- A start, wrapped in a node if the rest follows. -/
  | continuation (kind : NodeKind) (start rest : Grammar)
  /-- The rule with a number, under its name. -/
  | reference (name : String) (rule : Nat)
  /-- Nothing. -/
  | succeed
  /-- The child, if a condition holds where it starts. -/
  | lookahead (holds : View → Bool) (child : Grammar)
  /-- The grammar that the text of the current token selects. -/
  | capture (name : String) (select : String → Grammar)
  deriving Inhabited

/-- The rules of a language, by number. -/
abbrev RuleTable := Nat → Option Grammar

namespace Grammar

-- ==================================================== constructions

/-- The parts of a sequence, or the grammar as its own single part. -/
def parts : Grammar → List Grammar
  | .seq parts => parts
  | grammar => [grammar]

/-- The alternatives of a choice, or the grammar as its own single one. -/
def alternatives : Grammar → List Grammar
  | .choice alternatives => alternatives
  | grammar => [grammar]

/-- The grammars in order. Sequences among them are spliced in, and a single
part stands for itself. -/
def sequence (grammars : List Grammar) : Grammar :=
  match grammars.flatMap parts with
  | [single] => single
  | flat => .seq flat

/-- Committed choice among the grammars. Choices among them are spliced in, and
a single alternative stands for itself. -/
def oneOf (grammars : List Grammar) : Grammar :=
  match grammars.flatMap alternatives with
  | [single] => single
  | flat => .choice flat

instance : Add Grammar := ⟨fun first second => sequence [first, second]⟩

instance : OrElse Grammar := ⟨fun first second => oneOf [first, second ()]⟩

/-- The child or no trace of it. A token needs no healing, and neither does
what is healed already. -/
def healed : Grammar → Grammar
  | .token kind => .token kind
  | .heal child => .heal child
  | child => .heal child

/-- Items with separators between them, at least one; a separator at the end is
left. -/
def sepBy1 (item separator : Grammar) : Grammar :=
  item + .many (separator + item).healed 0

/-- Items with separators between them. -/
def sepBy (item separator : Grammar) : Grammar := .optional (item.sepBy1 separator)

/-- Items with commas between them. -/
def commaSep (item : Grammar) : Grammar := item.sepBy (.token .comma)

/-- Items with commas between them, at least one. -/
def commaSep1 (item : Grammar) : Grammar := item.sepBy1 (.token .comma)

/-- The inner grammar between parentheses. -/
def parens (inner : Grammar) : Grammar :=
  sequence [.token .leftParen, inner, .token .rightParen]

/-- The inner grammar between square brackets. -/
def squares (inner : Grammar) : Grammar :=
  sequence [.token .leftSquare, inner, .token .rightSquare]

/-- The inner grammar between braces. -/
def braces (inner : Grammar) : Grammar :=
  sequence [.token .leftBrace, inner, .token .rightBrace]

end Grammar

end Offside
