import Offside.Text.Blank
import Offside.Text.Number
import Offside.Token.Kind
import Offside.Token.Problem

/-!
The first token of a text.

`Lexeme.first` looks at the first character, decides what kind of token
starts there and says how many characters belong to it. Each kind of token
has a function of its own that measures the token in the characters that
follow. Every lexeme has at least one character, so reading on from the end
of one always makes progress.
-/

namespace Offside

open Text

/-- The first token of a text: its kind, the number of its characters, and
what is wrong with it. -/
structure Lexeme where
  kind : TokenKind
  length : Nat
  problem : Option LexProblem := none
  deriving DecidableEq

namespace Lexeme

-- ============================================= classes of character

/-- An ASCII character that operators are made of. -/
def isAsciiSymbol : Char → Bool
  | ':' | '!' | '#' | '$' | '%' | '&' | '*' | '+' | '.' | '/' | '<' | '=' | '>' | '?'
  | '@' | '\\' | '^' | '|' | '-' | '~' => true
  | _ => false

/-- A character that operators are made of; outside ASCII, everything that
is neither a letter, a number nor a blank. -/
def isSymbol (c : Char) : Bool :=
  if c.toNat < 128 then isAsciiSymbol c else !isAlphanumeric c && !isBlank c

/-- A character that a name can start with. -/
def isNameStart (c : Char) : Bool := isAlphabetic c || c == '_'

/-- A character that a name can go on with. -/
def isNameRest (c : Char) : Bool := isAlphanumeric c || c == '_' || c == '\''

/-- A blank that ends no line. -/
def isInlineBlank (c : Char) : Bool := isBlank c && !isLineBreak c

/-- A decimal digit or the separator of digit groups. -/
def isDigitOrGap (c : Char) : Bool := c.isDigit || c == '_'

/-- A hexadecimal digit. -/
def isHexDigit (c : Char) : Bool :=
  c.isDigit || ('a' ≤ c && c ≤ 'f') || ('A' ≤ c && c ≤ 'F')

/-- The number of characters at the front that satisfy `p`. -/
def runLength (p : Char → Bool) (chars : List Char) : Nat := (chars.takeWhile p).length

-- ================================================= names and holes

/-- A lower-case name, a reserved word, or the lone underscore. -/
def name (chars : List Char) : Lexeme :=
  let word := chars.takeWhile isNameRest
  if word = ['_'] then ⟨.underscore, 1, none⟩
  else ⟨(TokenKind.keyword? (String.ofList word)).getD .lower, word.length, none⟩

/-- What follows the first segment of a proper name. A dot goes on with the
name only if a letter or an underscore follows at once: a capital opens one
more segment, and anything else is the last segment, unless it is a reserved
word. `sofar` is the kind of the segments read up to here. -/
def qualifiedRest (sofar : TokenKind) (chars : List Char) : TokenKind × Nat :=
  match chars with
  | '.' :: c :: rest =>
    let segment := runLength isNameRest (c :: rest)
    if isUppercase c then
      let (kind, more) := qualifiedRest .qualifiedUpper ((c :: rest).drop segment)
      (kind, 1 + segment + more)
    else if isNameStart c then
      let word := String.ofList ((c :: rest).take segment)
      if (TokenKind.keyword? word).isSome then (sofar, 0)
      else (.qualifiedLower, 1 + segment)
    else (sofar, 0)
  | _ => (sofar, 0)
termination_by chars.length
decreasing_by
  simp only [List.length_drop, List.length_cons]
  omega

/-- A proper name, possibly qualified: segments joined by dots. -/
def properName (chars : List Char) : Lexeme :=
  let segment := runLength isNameRest chars
  let (kind, more) := qualifiedRest .upper (chars.drop segment)
  ⟨kind, segment + more, none⟩

/-- A hole: a question mark and a name. -/
def holeAfter (rest : List Char) : Lexeme := ⟨.hole, 1 + runLength isNameRest rest, none⟩

-- ========================================================= numbers

/-- The length of a fraction: a point that a digit follows, and its digits. -/
def fractionLength : List Char → Nat
  | '.' :: d :: rest => if d.isDigit then 1 + runLength isDigitOrGap (d :: rest) else 0
  | _ => 0

/-- The length of an exponent: its letter, an optional sign, and at least one
digit. -/
def exponentLength : List Char → Nat
  | [] => 0
  | e :: rest =>
    if e = 'e' ∨ e = 'E' then
      let sign := if rest.head? = some '+' ∨ rest.head? = some '-' then 1 else 0
      let digits := runLength Char.isDigit (rest.drop sign)
      if digits = 0 then 0 else 1 + sign + digits
    else 0

/-- An integer, decimal or hexadecimal, or a number with a fraction or an
exponent. -/
def number (chars : List Char) : Lexeme :=
  match chars with
  | '0' :: 'x' :: rest => ⟨.int, 2 + runLength isHexDigit rest, none⟩
  | _ =>
    let whole := runLength isDigitOrGap chars
    let fraction := fractionLength (chars.drop whole)
    let exponent := exponentLength (chars.drop (whole + fraction))
    ⟨if fraction + exponent = 0 then .int else .number, whole + fraction + exponent, none⟩

-- ======================================================== comments

/-- The length of a block comment after its opening, and whether it is closed. -/
def commentBody : List Char → Nat × Bool
  | [] => (0, false)
  | '-' :: '}' :: _ => (2, true)
  | _ :: rest =>
    let (length, closed) := commentBody rest
    (length + 1, closed)

/-- A block comment, after its two opening characters. -/
def commentAfter (rest : List Char) : Lexeme :=
  let (length, closed) := commentBody rest
  ⟨.blockComment, 2 + length, if closed then none else some .unterminatedComment⟩

/-- A run of symbol characters: two or more dashes open a comment that
reaches to the end of the line, and any other run is a symbol. -/
def operator (chars : List Char) : Lexeme :=
  let run := chars.takeWhile isSymbol
  if 2 ≤ run.length ∧ run.all (· == '-') then
    ⟨.lineComment, run.length + runLength (fun c => !isLineBreak c) (chars.drop run.length), none⟩
  else
    ⟨(TokenKind.reservedSymbol? (String.ofList run)).getD .operator, run.length, none⟩

-- ======================================================== literals

/-- The length of a raw string after its opening, and whether it is closed.
The first three quotes in a row close it, together with all quotes that
follow them. -/
def rawBody : List Char → Nat × Bool
  | [] => (0, false)
  | '"' :: '"' :: '"' :: rest => (3 + runLength (· == '"') rest, true)
  | _ :: rest =>
    let (length, closed) := rawBody rest
    (length + 1, closed)

/-- The length of an escape after its backslash: one character, or a gap of
blanks, which may span lines, with the backslash that ends it. -/
def escapeLength (chars : List Char) : Nat :=
  let gap := runLength isBlank chars
  if gap = 0 then min 1 chars.length
  else if (chars.drop gap).head? = some '\\' then gap + 1
  else gap

/-- The length of a string after its opening quote, and whether it is closed.
A line break outside a gap ends the string unclosed. -/
def stringBody (chars : List Char) : Nat × Bool :=
  match chars with
  | [] => (0, false)
  | c :: rest =>
    if c = '"' then (1, true)
    else if isLineBreak c then (0, false)
    else
      let piece := if c = '\\' then escapeLength rest else 0
      let (length, closed) := stringBody (rest.drop piece)
      (1 + piece + length, closed)
termination_by chars.length
decreasing_by
  simp only [List.length_drop, List.length_cons]
  omega

/-- A string, after its opening quote. -/
def stringAfter (rest : List Char) : Lexeme :=
  match rest with
  | '"' :: '"' :: raw =>
    let (length, closed) := rawBody raw
    ⟨.rawString, 3 + length, if closed then none else some .unterminatedString⟩
  | _ =>
    let (length, closed) := stringBody rest
    ⟨.string, 1 + length, if closed then none else some .unterminatedString⟩

/-- The length of what a character literal holds, after its opening quote: one
character, or a backslash, one more character, and all that follows up to
a quote or a blank. -/
def charContent : List Char → Nat
  | [] => 0
  | c :: rest =>
    if c = '\\' then
      1 + min 1 rest.length + runLength (fun c => c != '\'' && !isBlank c) (rest.drop 1)
    else if c = '\'' ∨ isLineBreak c then 0
    else 1

/-- A character literal, after its opening quote. -/
def charAfter (rest : List Char) : Lexeme :=
  let content := charContent rest
  if content ≠ 0 ∧ (rest.drop content).head? = some '\'' then ⟨.char, content + 2, none⟩
  else ⟨.char, content + 1, some .invalidCharLiteral⟩

-- =================================================== the first token

/-- The kind of the characters that are tokens on their own. -/
def single? : Char → Option TokenKind
  | '(' => some .leftParen
  | ')' => some .rightParen
  | '{' => some .leftBrace
  | '}' => some .rightBrace
  | '[' => some .leftSquare
  | ']' => some .rightSquare
  | ',' => some .comma
  | '\x60' => some .backtick
  | _ => none

/-- A hole starts with a question mark that a small letter or an underscore
follows. -/
def startsHole (c : Char) (rest : List Char) : Bool :=
  c == '?' && rest.head?.any fun next => isLowercase next || next == '_'

/-- The first token of the text that starts with `c` and goes on with `rest`. -/
def first (c : Char) (rest : List Char) : Lexeme :=
  if isLineBreak c then ⟨.newline, if c = '\r' ∧ rest.head? = some '\n' then 2 else 1, none⟩
  else if isBlank c then ⟨.whitespace, runLength isInlineBlank (c :: rest), none⟩
  else if c = '{' ∧ rest.head? = some '-' then commentAfter rest.tail
  else
    match single? c with
    | some kind => ⟨kind, 1, none⟩
    | none =>
      if c = '"' then stringAfter rest
      else if c = '\'' then charAfter rest
      else if c.isDigit then number (c :: rest)
      else if startsHole c rest then holeAfter rest
      else if isUppercase c then properName (c :: rest)
      else if isNameStart c then name (c :: rest)
      else if isSymbol c then operator (c :: rest)
      else ⟨.unknown, 1, some (.invalidCharacter c)⟩

end Lexeme

end Offside
