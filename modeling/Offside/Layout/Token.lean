import Offside.Token.Basic

/-!
Tokens of the stream in which blocks are explicit.

Between the tokens of the source stand virtual ones of no width, at the
position where they were inserted: one opens a block, one separates its
items, one closes it.
-/

namespace Offside

/-- A token of the source, or a virtual one. -/
inductive LayoutToken
  /-- Opens a block. -/
  | start (position : Position)
  /-- Separates two items of a block. -/
  | sep (position : Position)
  /-- Closes a block. -/
  | stop (position : Position)
  | raw (token : Token)
  deriving DecidableEq, Inhabited

namespace LayoutToken

/-- The kind that the parser sees. -/
def kind : LayoutToken → TokenKind
  | .start _ => .layoutStart
  | .sep _ => .layoutSep
  | .stop _ => .layoutEnd
  | .raw token => token.kind

/-- Where the token starts. -/
def position : LayoutToken → Position
  | .start position | .sep position | .stop position => position
  | .raw token => token.start

/-- The bytes the token covers; none for a virtual one. -/
def span : LayoutToken → Span
  | .start position | .sep position | .stop position => Span.point position.offset
  | .raw token => token.span

/-- Whether the token is not one of the source. -/
def isVirtual : LayoutToken → Bool
  | .raw _ => false
  | _ => true

/-- Whether the token is a blank, a line break or a comment. -/
def isTrivia (token : LayoutToken) : Bool := token.kind.isTrivia

/-- The token's text in `source`; empty for a virtual one. -/
def text (token : LayoutToken) (source : String) : String :=
  match token with
  | .raw token => token.text source
  | _ => ""

/-- The token with its position: a brace or a semicolon for a virtual one. -/
def render (token : LayoutToken) : String :=
  let mark := match token with
    | .start _ => "\x7b"
    | .sep _ => ";"
    | .stop _ => "\x7d"
    | .raw token => token.kind.name
  mark ++ "@" ++ token.position.render

end LayoutToken

end Offside
