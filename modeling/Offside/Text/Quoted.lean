import Offside.Text.Visible

/-!
Two ways to show characters without ambiguity.

`quoted` writes a whole text between double quotes: it keeps every visible
character and escapes the rest. `escaped` writes one character in printable
ASCII only. Both spell a code point in braces, in hexadecimal without padding.
-/

namespace Offside.Text

/-- The spelling `\u{…}` of a code point. -/
def codePointEscape (c : Char) : String :=
  "\\u\x7b" ++ String.ofList (Nat.toDigits 16 c.toNat) ++ "\x7d"

/-- One character of a quoted text. -/
def quotedChar (c : Char) : String :=
  match c with
  | '\x00' => "\\0"
  | '\t' => "\\t"
  | '\n' => "\\n"
  | '\r' => "\\r"
  | '"' => "\\\""
  | '\\' => "\\\\"
  | c => if isCombining c || !isPrintable c then codePointEscape c else c.toString

/-- The text between double quotes, with everything that is not visible on
its own escaped. -/
def quoted (text : String) : String :=
  "\"" ++ String.join (text.toList.map quotedChar) ++ "\""

/-- One character in printable ASCII; both kinds of quote are escaped. -/
def escaped (c : Char) : String :=
  match c with
  | '\t' => "\\t"
  | '\n' => "\\n"
  | '\r' => "\\r"
  | '\'' => "\\'"
  | '"' => "\\\""
  | '\\' => "\\\\"
  | c => if 0x20 ≤ c.toNat && c.toNat ≤ 0x7E then c.toString else codePointEscape c

end Offside.Text
