/-!
Codes of diagnostics.

A code names one cause. Its spelling is a letter and four digits, of which
the first tells the phase: 0 for tokens, 1 for parsing, 9 for a fault of the
grammar itself.
-/

namespace Offside

/-- The cause of a diagnostic. -/
inductive ErrorCode
  | unterminatedString
  | invalidCharacter
  | unterminatedComment
  | invalidCharLiteral
  | unexpectedToken
  | missingInput
  | skippedInput
  | notAllowedHere
  | grammarFault
  deriving DecidableEq, Inhabited

namespace ErrorCode

/-- Every code, in numeric order. -/
def all : List ErrorCode :=
  [.unterminatedString, .invalidCharacter, .unterminatedComment, .invalidCharLiteral,
   .unexpectedToken, .missingInput, .skippedInput, .notAllowedHere, .grammarFault]

/-- The spelling of a code. -/
def spelling : ErrorCode → String
  | .unterminatedString => "E0001"
  | .invalidCharacter => "E0002"
  | .unterminatedComment => "E0003"
  | .invalidCharLiteral => "E0004"
  | .unexpectedToken => "E1001"
  | .missingInput => "E1002"
  | .skippedInput => "E1003"
  | .notAllowedHere => "E1004"
  | .grammarFault => "E9001"

/-- The one-line explanation of a code. -/
def explanation : ErrorCode → String
  | .unterminatedString => "unterminated string literal"
  | .invalidCharacter => "invalid character in source"
  | .unterminatedComment => "unterminated block comment"
  | .invalidCharLiteral => "invalid character literal"
  | .unexpectedToken => "unexpected token"
  | .missingInput => "missing syntax"
  | .skippedInput => "malformed input was skipped"
  | .notAllowedHere => "construct not allowed here"
  | .grammarFault => "grammar construction error"

/-- Whether reading tokens raises the code. -/
def isLexical : ErrorCode → Bool
  | .unterminatedString | .invalidCharacter | .unterminatedComment | .invalidCharLiteral => true
  | _ => false

/-- Whether parsing raises the code. -/
def isParsing : ErrorCode → Bool
  | .unexpectedToken | .missingInput | .skippedInput | .notAllowedHere => true
  | _ => false

/-- Whether a fault of the grammar raises the code. -/
def isInternal : ErrorCode → Bool
  | .grammarFault => true
  | _ => false

/-- The code of a spelling in either case. The only letter of a spelling is
an `E`, and only `e` and `E` have that capital. -/
def ofSpelling? (text : String) : Option ErrorCode :=
  all.find? fun code => code.spelling == text.toUpper

end ErrorCode

end Offside
