import Offside.Layout.Token

/-!
What a parse reads: a source text with its tokens.

Parsing walks the significant tokens only, those that are not trivia. A
place is an index among them, so comparing two places tells whether anything
was consumed in between. The trivia stays in the list of all tokens, for the
tree.
-/

namespace Offside

/-- The indices, from `index` up, of the tokens that are not trivia. -/
def significantIndices (index : Nat) : List LayoutToken → List Nat
  | [] => []
  | token :: rest =>
    if token.isTrivia then significantIndices (index + 1) rest
    else index :: significantIndices (index + 1) rest

/-- A source text, its tokens, and where the significant ones stand among them. -/
structure Input where
  source : String
  tokens : Array LayoutToken
  significant : Array Nat
  significant_eq : significant = (significantIndices 0 tokens.toList).toArray

namespace Input

/-- The input made of a source text and its tokens. -/
def ofTokens (source : String) (tokens : List LayoutToken) : Input :=
  ⟨source, tokens.toArray, (significantIndices 0 tokens).toArray, by simp⟩

/-- The number of significant tokens. -/
def size (input : Input) : Nat := input.significant.size

/-- The index among all tokens of the significant token at a place. -/
def rawIndex? (input : Input) (place : Nat) : Option Nat := input.significant[place]?

/-- The significant token at a place. -/
def get? (input : Input) (place : Nat) : Option LayoutToken :=
  (input.rawIndex? place).bind (input.tokens[·]?)

/-- The offset at which the source ends. -/
def endOffset (input : Input) : Nat := input.source.utf8ByteSize

/-- The kind of the token at a place; the end of the tokens has a kind of its
own. -/
def kindAt (input : Input) (place : Nat) : TokenKind :=
  ((input.get? place).map LayoutToken.kind).getD .eof

/-- The text of the token at a place; empty for virtual tokens and at the end. -/
def textAt (input : Input) (place : Nat) : String :=
  ((input.get? place).map (·.text input.source)).getD ""

/-- The span of the token at a place, or the point at the end of the source. -/
def spanAt (input : Input) (place : Nat) : Span :=
  ((input.get? place).map LayoutToken.span).getD (Span.point input.endOffset)

/-- The span of the token before a place; the start of the source if there is
none. -/
def spanBefore (input : Input) (place : Nat) : Span :=
  match place with
  | 0 => Span.point 0
  | before + 1 => ((input.get? before).map LayoutToken.span).getD (Span.point 0)

/-- The span from the token at `first` through the last one before `last`. -/
def cover? (input : Input) (first last : Nat) : Option Span :=
  if first < last then do
    let left ← input.get? first
    let right ← input.get? (last - 1)
    pure (left.span.merge right.span)
  else none

/-- The source text between two places, blanks and comments between the tokens
included. -/
def textBetween (input : Input) (first last : Nat) : String :=
  match input.cover? first last with
  | some span => Text.slice input.source span.start span.stop
  | none => ""

end Input

/-- What a condition of a grammar may look at: the input, the place that parsing
has reached, and whether parsing is speculative. -/
structure View where
  input : Input
  place : Nat
  inAttempt : Bool

namespace View

/-- The kind of the token `ahead` places ahead. -/
def nthKind (view : View) (ahead : Nat) : TokenKind := view.input.kindAt (view.place + ahead)

/-- The kind of the current token. -/
def kind (view : View) : TokenKind := view.input.kindAt view.place

/-- Whether the current token has a kind. -/
def isAt (view : View) (kind : TokenKind) : Bool := view.kind == kind

/-- Whether no token is left. -/
def atEnd (view : View) : Bool := view.input.size ≤ view.place

/-- The text of the current token. -/
def text (view : View) : String := view.input.textAt view.place

end View

end Offside
