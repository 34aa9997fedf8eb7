/-!
Stretches of a source text between two byte offsets.

A span holds the bytes from `start` up to, and not including, `stop`. Spans
built from a range of unbounded numbers must fit the offsets' 32 bits.
-/

namespace Offside

/-- The bytes from `start` up to `stop`. -/
structure Span where
  start : Nat
  stop : Nat
  deriving DecidableEq, Inhabited

namespace Span

/-- The largest offset. -/
def maxOffset : Nat := 4294967295

/-- Why a range is not a span. -/
inductive RangeError
  | startTooLarge (value : Nat)
  | endTooLarge (value : Nat)
  deriving DecidableEq

/-- The wording of a range error. -/
def RangeError.message : RangeError → String
  | .startTooLarge value => "span start " ++ toString value ++ " exceeds u32::MAX"
  | .endTooLarge value => "span end " ++ toString value ++ " exceeds u32::MAX"

/-- The span of a range; the start is checked first. -/
def ofRange (start stop : Nat) : Except RangeError Span :=
  if start > maxOffset then .error (.startTooLarge start)
  else if stop > maxOffset then .error (.endTooLarge stop)
  else .ok ⟨start, stop⟩

/-- The empty span at an offset. -/
def point (offset : Nat) : Span := ⟨offset, offset⟩

/-- The number of bytes. -/
def length (s : Span) : Nat := s.stop - s.start

/-- Whether the span holds no byte. -/
def isEmpty (s : Span) : Bool := s.start == s.stop

/-- Whether the byte at `offset` lies in the span. -/
def contains (s : Span) (offset : Nat) : Bool :=
  s.start ≤ offset && offset < s.stop

/-- The smallest span that covers both. -/
def merge (s t : Span) : Span := ⟨min s.start t.start, max s.stop t.stop⟩

/-- The order by start, then by end. -/
def compare (s t : Span) : Ordering :=
  (Ord.compare s.start t.start).then (Ord.compare s.stop t.stop)

/-- `start..end`. -/
def render (s : Span) : String :=
  toString s.start ++ ".." ++ toString s.stop

end Span

end Offside
