import Offside.Token.Basic
import Offside.Token.Lexeme

/-!
The tokens of a whole source text.

The tokens cover the text without gaps: blanks and comments are tokens too.
Each starts at the position where the one before it ends, and the end of the
text is the position after the last.
-/

namespace Offside

/-- The tokens of a text, the problems found in them, and the position at
the end of the text. -/
structure Reading where
  tokens : List Token
  diagnostics : List Diagnostic
  eof : Position
  deriving DecidableEq, Inhabited

namespace Reading

/-- The reading with one more token in front, and its problem, if any. -/
def cons (token : Token) (problem : Option LexProblem) (reading : Reading) : Reading :=
  { reading with
    tokens := token :: reading.tokens
    diagnostics := (problem.map (·.diagnostic token.span)).toList ++ reading.diagnostics }

/-- The tokens of the characters that start at `position`. -/
def readFrom (position : Position) (chars : List Char) : Reading :=
  match chars with
  | [] => ⟨[], [], position⟩
  | c :: rest =>
    let lexeme := Lexeme.first c rest
    let stop := position.advanceOver lexeme.length (c :: rest)
    cons ⟨lexeme.kind, position, stop⟩ lexeme.problem
      (readFrom stop (rest.drop (lexeme.length - 1)))
termination_by chars.length
decreasing_by
  simp only [List.length_drop, List.length_cons]
  omega

/-- Reads the tokens of a source text. -/
def ofSource (source : String) : Reading := readFrom .start source.toList

/-- The tokens that are not trivia. -/
def significant (reading : Reading) : List Token :=
  reading.tokens.filter fun token => !token.isTrivia

/-- Whether a problem is an error. -/
def hasErrors (reading : Reading) : Bool := reading.diagnostics.any (·.isError)

end Reading

end Offside
