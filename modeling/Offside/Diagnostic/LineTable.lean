import Offside.Source.Position
import Offside.Text.Slice

/-!
The line structure of a source text.

A line starts at the beginning of the text and after every line feed; a
carriage return ends no line here. The table keeps the offsets of the line
starts, in increasing order, and finds the line and the column of an offset.

Offsets, lines and columns are kept in words of 32 bits, and counted without a bound
here. Neither the line nor the column of a boundary is more than one above its offset, so
the numbers are the same unless the offset is the last that a word holds, 2^32 - 1; of
that one the line or the column can be a number that no word holds (`Position.Fits`).
-/

namespace Offside

/-- The offsets at which the lines of a text start. -/
structure LineTable where
  starts : List Nat
  deriving Inhabited

namespace LineTable

/-- The offsets just after the line feeds of `chars`, which start at `offset`. -/
def startsAfter (offset : Nat) : List Char → List Nat
  | [] => []
  | c :: rest =>
    let next := offset + c.utf8Size
    if c = '\n' then next :: startsAfter next rest else startsAfter next rest

/-- The line table of a text. -/
def build (source : String) : LineTable := ⟨0 :: startsAfter 0 source.toList⟩

/-- The number of lines. -/
def lineCount (table : LineTable) : Nat := table.starts.length

/-- Bisection of increasing starts between two indices: the index at which
`offset` is found, or else the one at which it would be inserted. -/
def bisect (starts : Array Nat) (offset low high : Nat) (inside : high ≤ starts.size) :
    Except Nat Nat :=
  if _ : low < high then
    let middle := low + (high - low) / 2
    have _ : middle < starts.size := by omega
    if starts[middle] = offset then .ok middle
    else if starts[middle] < offset then bisect starts offset (middle + 1) high inside
    else bisect starts offset low middle (by omega)
  else .error low
termination_by high - low

/-- The line, counted from one, that holds the byte at `offset`: the one that
starts there, or else the one before the place where a start would be inserted. -/
def lineOf (table : LineTable) (offset : Nat) : Nat :=
  let starts := table.starts.toArray
  match bisect starts offset 0 starts.size (Nat.le_refl _) with
  | .ok found => found + 1
  | .error insertion => insertion - 1 + 1

/-- The offset at which a line starts; lines count from one. -/
def lineStart? (table : LineTable) : Nat → Option Nat
  | 0 => none
  | line + 1 => table.starts[line]?

/-- The line and the column of an offset, both counted from one. The column
counts the characters between the start of the line and the offset, or the
end of the source if that comes first. -/
def lineColumn (table : LineTable) (source : String) (offset : Nat) : Nat × Nat :=
  let line := table.lineOf offset
  let start := (table.lineStart? line).getD 0
  (line, (Text.slice source start (min offset source.utf8ByteSize)).length + 1)

/-- The position of an offset. -/
def position (table : LineTable) (source : String) (offset : Nat) : Position :=
  let (line, column) := table.lineColumn source offset
  ⟨line, column, offset⟩

/-- The characters of a line without the line breaks at its end. -/
def lineText? (table : LineTable) (source : String) (line : Nat) : Option (List Char) := do
  let start ← table.lineStart? line
  let stop := (table.lineStart? (line + 1)).getD source.utf8ByteSize
  pure (Text.trimLineBreaks (Text.slice source start stop).toList)

end LineTable

end Offside
