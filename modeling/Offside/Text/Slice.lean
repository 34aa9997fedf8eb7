/-!
Parts of a text addressed by byte offsets, and its first line.

Offsets count the bytes of the UTF-8 form. A request that is out of range,
reversed or splits a character denotes no text, and yields the empty one.
-/

namespace Offside.Text

/-- The text from byte `start` up to byte `stop`; empty unless both are
character boundaries in this order. -/
def slice (text : String) (start stop : Nat) : String :=
  match text.pos? ⟨start⟩, text.pos? ⟨stop⟩ with
  | some first, some last => if start ≤ stop then text.extract first last else ""
  | _, _ => ""

/-- What stands before the first line feed, less a carriage return at its
end. -/
def firstLine (text : String) : List Char :=
  let line := text.toList.takeWhile (· != '\n')
  if text.toList.any (· == '\n') && line.getLast? == some '\r' then line.dropLast else line

/-- The characters without the line breaks at their end. -/
def trimLineBreaks (chars : List Char) : List Char :=
  (chars.reverse.dropWhile fun c => c == '\n' || c == '\r').reverse

end Offside.Text
