import Offside.Diagnostic.Basic
import Offside.Text.Quoted

/-!
What can be wrong inside a single token.

Reading tokens never fails: a malformed stretch becomes a token all the
same, and its problem becomes a diagnostic on the token's span.
-/

namespace Offside

/-- A problem inside one token. -/
inductive LexProblem
  | unterminatedString
  | invalidCharacter (c : Char)
  | unterminatedComment
  | invalidCharLiteral
  deriving DecidableEq

/-- The diagnostic for a problem in the token at `span`. -/
def LexProblem.diagnostic (problem : LexProblem) (span : Span) : Diagnostic :=
  match problem with
  | .unterminatedString =>
    .error .unterminatedString "unterminated string literal" span
      "string starts here and is never closed"
  | .invalidCharacter c =>
    .error .invalidCharacter ("invalid character " ++ Text.backquoted (Text.escaped c)) span
      "not valid here"
  | .unterminatedComment =>
    (Diagnostic.error .unterminatedComment "unterminated block comment" span
      "comment starts here").addNote "block comments are closed with `-\x7d`"
  | .invalidCharLiteral =>
    .error .invalidCharLiteral "invalid character literal" span
      "expected exactly one character between `'` quotes"

end Offside
