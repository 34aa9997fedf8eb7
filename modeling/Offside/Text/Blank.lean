import Offside.Text.Progression

/-!
Blanks: the Unicode property White_Space, which includes the line breaks.
-/

namespace Offside.Text

/-- Code points with the property White_Space. -/
def blankTable : List Progression :=
  Progression.stretches
    [(0x9, 0xD), (0x20, 0x20), (0x85, 0x85), (0xA0, 0xA0), (0x1680, 0x1680), (0x2000, 0x200A),
     (0x2028, 0x2029), (0x202F, 0x202F), (0x205F, 0x205F), (0x3000, 0x3000)]

/-- A blank of any width, a tab or a line break. -/
def isBlank (c : Char) : Bool :=
  coveredBy blankTable c

/-- A character that ends a line: a line feed or a carriage return. -/
def isLineBreak (c : Char) : Bool :=
  c == '\n' || c == '\r'

end Offside.Text
