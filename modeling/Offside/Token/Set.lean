import Offside.Text.NameList
import Offside.Token.Kind

/-!
Sets of token kinds, as words of a hundred and twenty-eight bits.

Bit `i` says whether the kind with index `i` is a member, so membership and
union cost one operation on a word; the kinds take up the lower half of it. The
members come out lowest bit first, which is the order of the kinds.
-/

namespace Offside

/-- A set of token kinds: one bit for each kind. -/
structure TokenSet where
  bits : BitVec 128
  deriving DecidableEq, Inhabited

namespace TokenSet

/-- The word with the bit of `kind` alone. -/
def bit (kind : TokenKind) : BitVec 128 := BitVec.twoPow 128 kind.index

/-- The set without members. -/
def empty : TokenSet := ⟨0⟩

/-- The set with one member. -/
def single (kind : TokenKind) : TokenSet := ⟨bit kind⟩

/-- The set with `kind` added. -/
def insert (set : TokenSet) (kind : TokenKind) : TokenSet := ⟨set.bits ||| bit kind⟩

/-- The members of either set. -/
def union (set other : TokenSet) : TokenSet := ⟨set.bits ||| other.bits⟩

/-- The members of both sets. -/
def inter (set other : TokenSet) : TokenSet := ⟨set.bits &&& other.bits⟩

/-- The set of the kinds in a list. -/
def ofList (kinds : List TokenKind) : TokenSet := kinds.foldl insert empty

/-- Whether `kind` is a member. -/
def contains (set : TokenSet) (kind : TokenKind) : Bool := set.bits.getLsbD kind.index

/-- Whether there are no members. -/
def isEmpty (set : TokenSet) : Bool := set.bits == 0

/-- The set bits below a place, counted. -/
def countFrom (bits : BitVec 128) : Nat → Nat
  | 0 => 0
  | place + 1 => countFrom bits place + (bits.getLsbD place).toNat

/-- The number of members. -/
def count (set : TokenSet) : Nat := countFrom set.bits 128

/-- The place of the lowest set bit among the `width` places from `place` up. -/
def lowestFrom (bits : BitVec 128) (place : Nat) : Nat → Option Nat
  | 0 => none
  | width + 1 => if bits.getLsbD place then some place else lowestFrom bits (place + 1) width

/-- Takes out the lowest member: clearing the lowest set bit of a word is
its conjunction with its predecessor. -/
def next? (set : TokenSet) : Option (Nat × TokenSet) :=
  (lowestFrom set.bits 0 128).map fun place => (place, ⟨set.bits &&& (set.bits - 1)⟩)

/-- The members taken out one by one, at most `steps` of them. -/
def takeMembers (set : TokenSet) : Nat → List Nat
  | 0 => []
  | steps + 1 =>
    match set.next? with
    | none => []
    | some (place, rest) => place :: rest.takeMembers steps

/-- The indices of the members, lowest first. -/
def indices (set : TokenSet) : List Nat := set.takeMembers 128

/-- The members, in the order of the kinds. -/
def toList (set : TokenSet) : List TokenKind := set.indices.filterMap TokenKind.ofIndex?

/-- The descriptions of the members as an alternative. Neighbours with one
description are named once. -/
def describe (set : TokenSet) : String :=
  Text.nameList ((set.toList.map TokenKind.describe).eraseReps)

/-- The names of the members between braces. -/
def render (set : TokenSet) : String :=
  "\x7b" ++ String.intercalate ", " (set.toList.map TokenKind.name) ++ "\x7d"

end TokenSet

end Offside
