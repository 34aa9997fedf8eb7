/-!
Sets of code points written as arithmetic progressions.

A Unicode property is a union of stretches of code points; in the cased
blocks, where capitals and small letters alternate, a stretch takes every
second code point. A progression covers both: `first`, `first + step`, …,
up to `last`.
-/

namespace Offside.Text

/-- The code points `first`, `first + step`, … that do not pass `last`. -/
structure Progression where
  first : Nat
  last : Nat
  step : Nat := 1
  deriving DecidableEq

namespace Progression

/-- Whether `n` is one of the progression's code points. -/
def covers (p : Progression) (n : Nat) : Bool :=
  p.first ≤ n && n ≤ p.last && (n - p.first) % p.step == 0

/-- Stretches that take every code point, from their bounds. -/
def stretches (bounds : List (Nat × Nat)) : List Progression :=
  bounds.map fun (first, last) => ⟨first, last, 1⟩

/-- Every second code point between the bounds. -/
def alternating (bounds : List (Nat × Nat)) : List Progression :=
  bounds.map fun (first, last) => ⟨first, last, 2⟩

end Progression

/-- Whether the code point of `c` belongs to one of the progressions. -/
def coveredBy (table : List Progression) (c : Char) : Bool :=
  table.any (·.covers c.toNat)

end Offside.Text
