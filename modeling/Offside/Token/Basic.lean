import Offside.Source.Position
import Offside.Source.Span
import Offside.Text.Slice
import Offside.Token.Kind

/-!
Tokens of a source text.

A token is a kind with the positions of its two ends. It holds no text:
the text is the part of the source between the two offsets.
-/

namespace Offside

/-- A stretch of the source with its kind. -/
structure Token where
  kind : TokenKind
  start : Position
  stop : Position
  deriving DecidableEq, Inhabited

namespace Token

/-- The bytes the token covers. -/
def span (token : Token) : Span := ⟨token.start.offset, token.stop.offset⟩

/-- The token's text in `source`. -/
def text (token : Token) (source : String) : String :=
  Text.slice source token.span.start token.span.stop

/-- Whether the token is a blank, a line break or a comment. -/
def isTrivia (token : Token) : Bool := token.kind.isTrivia

end Token

end Offside
