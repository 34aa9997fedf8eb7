import Mathlib.Data.Finset.Card
import Offside.Token.Set

/-!
Sets of token kinds hold what they are made of.

A word stands for a finite set of kinds if its set bits are the indices of the members, and
nothing else (`TokenSet.Represents`). The operations keep that, one lemma each, so it holds of
every set that they make (`Recipe.represents_build`).

# Iteration

The set bits of a word lie at places in a row, lowest first (`places`). The conjunction of a
word with its predecessor clears the lowest set bit and no other (`getLsbD_and_pred`), so that
one turn of the iteration takes the first place off the row (`next?_of_places`), and any
number of turns takes off as many (`places_remaining`). What the iteration yields, how much of
it is left and how many members there are is all read off that row.
-/

namespace Offside

/-- A kind is found again by its index, so no two share one. -/
theorem TokenKind.index_injective : Function.Injective TokenKind.index := by
  intro kind other h
  apply Option.some.inj
  rw [← ofIndex?_index kind, h, ofIndex?_index]

theorem TokenKind.index_lt (kind : TokenKind) : kind.index < 64 := by
  cases kind <;> decide

namespace TokenSet

-- ================================================ the lowest set bit

/-- The conjunction of a word with its predecessor is the word without its lowest set bit. -/
theorem getLsbD_and_pred {width lowest : Nat} {word : BitVec width}
    (hset : word.getLsbD lowest = true) (hclear : ∀ place < lowest, word.getLsbD place = false)
    (place : Nat) :
    (word &&& (word - 1)).getLsbD place = (word.getLsbD place && decide (place ≠ lowest)) := by
  have hlow : word.toNat % 2 ^ (lowest + 1) = 2 ^ lowest := by
    apply Nat.eq_of_testBit_eq
    intro place
    rw [Nat.testBit_mod_two_pow, Nat.testBit_two_pow, BitVec.testBit_toNat]
    rcases Nat.lt_trichotomy place lowest with hlt | rfl | hlt
    · simp [hclear place hlt, Nat.ne_of_gt hlt]
    · simp [hset]
    · simp [Nat.ne_of_lt hlt, Nat.not_lt_of_le hlt]
  -- above that bit nothing is borrowed, and below it the predecessor has ones for zeros
  have hword : word.toNat = 2 ^ (lowest + 1) * (word.toNat / 2 ^ (lowest + 1)) + 2 ^ lowest := by
    rw [← hlow, Nat.div_add_mod]
  have hpower : 1 ≤ 2 ^ lowest := Nat.one_le_two_pow
  have hdouble : 2 ^ lowest < 2 ^ (lowest + 1) := Nat.pow_lt_pow_succ (by decide)
  have hpred : (word - 1).toNat
      = 2 ^ (lowest + 1) * (word.toNat / 2 ^ (lowest + 1)) + (2 ^ lowest - 1) := by
    have hone : (1 : BitVec width).toNat = 1 := by
      have hwidth : 0 < width := Nat.lt_of_le_of_lt (Nat.zero_le _) (BitVec.lt_of_getLsbD hset)
      simp [Nat.mod_eq_of_lt (Nat.one_lt_two_pow hwidth.ne')]
    rw [BitVec.toNat_sub_of_le (by rw [BitVec.le_def, hone]; omega), hone]
    omega
  rw [BitVec.getLsbD_and, ← BitVec.testBit_toNat (word - 1), hpred]
  rw [Nat.testBit_two_pow_mul_add _ (by omega), Nat.testBit_two_pow_sub_one]
  rcases Nat.lt_trichotomy place lowest with hlt | rfl | hlt
  · simp [hclear place hlt]
  · simp
  · have hbit : word.getLsbD place
        = (word.toNat / 2 ^ (lowest + 1)).testBit (place - (lowest + 1)) := by
      rw [← BitVec.testBit_toNat, hword, Nat.testBit_two_pow_mul_add _ hdouble, if_neg (by omega),
        ← hword]
    rw [if_neg (by omega), ← hbit]
    simp [Nat.ne_of_gt hlt]

-- ============================================= the row of the members

/-- The places of the set bits, lowest first. -/
def places (set : TokenSet) : List Nat := (List.range 128).filter set.bits.getLsbD

/-- The row has the places of the set bits and no others. -/
theorem mem_places {set : TokenSet} {place : Nat} :
    place ∈ set.places ↔ set.bits.getLsbD place = true := by
  unfold places
  rw [List.mem_filter, List.mem_range, and_iff_right_iff_imp]
  exact BitVec.lt_of_getLsbD

theorem pairwise_places (set : TokenSet) : set.places.Pairwise (· < ·) :=
  List.pairwise_lt_range.filter _

/-- Searching the bits from below is finding the first place of the row. -/
theorem lowestFrom_eq_find? (bits : BitVec 128) (place width : Nat) :
    lowestFrom bits place width = (List.range' place width).find? bits.getLsbD := by
  induction width generalizing place with
  | zero => rfl
  | succ width ih =>
    rw [lowestFrom, List.range'_succ, List.find?_cons, ih]
    cases bits.getLsbD place <;> rfl

/-- The lowest set bit is the first of the row. -/
theorem lowestFrom_eq_head? (set : TokenSet) : lowestFrom set.bits 0 128 = set.places.head? := by
  unfold places
  rw [lowestFrom_eq_find?, List.head?_filter, List.range_eq_range']

/-- One turn of the iteration takes the first of the row and leaves the others. -/
theorem next?_of_places {set : TokenSet} {place : Nat} {more : List Nat}
    (h : set.places = place :: more) :
    ∃ rest, set.next? = some (place, rest) ∧ rest.places = more := by
  have hrising := set.pairwise_places
  rw [h, List.pairwise_cons] at hrising
  have hset : set.bits.getLsbD place = true := mem_places.mp (by simp [h])
  have hclear : ∀ earlier < place, set.bits.getLsbD earlier = false := by
    intro earlier hlt
    by_contra hearlier
    have hmem : earlier ∈ place :: more := h ▸ mem_places.mpr (by simpa using hearlier)
    rcases List.mem_cons.mp hmem with rfl | hmore
    · exact Nat.lt_irrefl _ hlt
    · exact Nat.lt_asymm hlt (hrising.1 earlier hmore)
  refine ⟨⟨set.bits &&& (set.bits - 1)⟩, ?_, ?_⟩
  · unfold next?
    rw [lowestFrom_eq_head?, h]
    rfl
  · have hfilter : places ⟨set.bits &&& (set.bits - 1)⟩
        = set.places.filter fun other => decide (other ≠ place) := by
      unfold places
      rw [List.filter_filter]
      apply List.filter_congr
      intro other _
      rw [getLsbD_and_pred hset hclear, Bool.and_comm]
    rw [hfilter, h, List.filter_cons_of_neg (by simp), List.filter_eq_self]
    intro other hmore
    simpa using (Nat.ne_of_lt (hrising.1 other hmore)).symm

theorem next?_of_places_nil {set : TokenSet} (h : set.places = []) : set.next? = none := by
  unfold next?
  rw [lowestFrom_eq_head?, h]
  rfl

/-- What is left to iterate over after a number of turns. -/
def remaining (set : TokenSet) : Nat → TokenSet
  | 0 => set
  | turns + 1 =>
    match set.next? with
    | none => set
    | some (_, rest) => rest.remaining turns

/-- Each turn takes one off the row, until it is empty. -/
theorem places_remaining (set : TokenSet) (turns : Nat) :
    (set.remaining turns).places = set.places.drop turns := by
  induction turns generalizing set with
  | zero => rfl
  | succ turns ih =>
    unfold remaining
    cases h : set.places with
    | nil => simp [next?_of_places_nil h, h]
    | cons place more =>
      obtain ⟨rest, hnext, hrest⟩ := next?_of_places h
      simp [hnext, ih, hrest]

/-- What a number of turns yields is the front of the row. -/
theorem takeMembers_eq (set : TokenSet) (turns : Nat) :
    set.takeMembers turns = set.places.take turns := by
  induction turns generalizing set with
  | zero => rfl
  | succ turns ih =>
    unfold takeMembers
    cases h : set.places with
    | nil => simp [next?_of_places_nil h]
    | cons place more =>
      obtain ⟨rest, hnext, hrest⟩ := next?_of_places h
      simp [hnext, ih, hrest]

/-- The iteration yields the whole row. -/
theorem indices_eq_places (set : TokenSet) : set.indices = set.places := by
  unfold indices
  rw [takeMembers_eq]
  apply List.take_of_length_le
  exact (List.length_filter_le _ _).trans_eq List.length_range

/-- Counting up the bits is counting the places below the width. -/
theorem countFrom_eq_countP (bits : BitVec 128) (place : Nat) :
    countFrom bits place = (List.range place).countP bits.getLsbD := by
  induction place with
  | zero => rfl
  | succ place ih =>
    rw [countFrom, ih, List.range_succ, List.countP_append, List.countP_singleton]
    cases bits.getLsbD place <;> rfl

theorem count_eq_length (set : TokenSet) : set.count = set.places.length := by
  unfold count places
  rw [countFrom_eq_countP, List.countP_eq_length_filter]

-- ====================================== words that stand for sets of kinds

/-- The set bits are the indices of the kinds. -/
def Represents (set : TokenSet) (kinds : Finset TokenKind) : Prop :=
  ∀ place, set.bits.getLsbD place = true ↔ ∃ kind ∈ kinds, kind.index = place

variable {set other : TokenSet} {kinds others : Finset TokenKind}

/-- A single bit is set at the index of its kind only. -/
theorem getLsbD_bit (kind : TokenKind) (place : Nat) :
    (bit kind).getLsbD place = true ↔ kind.index = place := by
  unfold bit
  rw [BitVec.getLsbD_twoPow]
  have hindex := kind.index_lt
  simp only [Bool.and_eq_true, decide_eq_true_eq, and_iff_right_iff_imp]
  omega

namespace Represents

theorem empty : TokenSet.empty.Represents ∅ := by
  intro place
  simp [TokenSet.empty]

theorem insert (h : set.Represents kinds) (kind : TokenKind) :
    (set.insert kind).Represents (Insert.insert kind kinds) := by
  intro place
  unfold TokenSet.insert
  rw [BitVec.getLsbD_or, Bool.or_eq_true, h, getLsbD_bit]
  simp [or_comm]

theorem single (kind : TokenKind) : (TokenSet.single kind).Represents {kind} := by
  intro place
  simp [TokenSet.single, getLsbD_bit]

theorem union (h : set.Represents kinds) (hother : other.Represents others) :
    (set.union other).Represents (kinds ∪ others) := by
  intro place
  unfold TokenSet.union
  rw [BitVec.getLsbD_or, Bool.or_eq_true, h, hother]
  simp [or_and_right, exists_or]

/-- A place that both have is the index of one kind. -/
theorem inter (h : set.Represents kinds) (hother : other.Represents others) :
    (set.inter other).Represents (kinds ∩ others) := by
  intro place
  unfold TokenSet.inter
  rw [BitVec.getLsbD_and, Bool.and_eq_true, h, hother]
  constructor
  · rintro ⟨⟨kind, hkind, rfl⟩, same, hsame, hindex⟩
    obtain rfl := TokenKind.index_injective hindex
    exact ⟨_, Finset.mem_inter.mpr ⟨hkind, hsame⟩, rfl⟩
  · rintro ⟨kind, hkind, hindex⟩
    obtain ⟨hleft, hright⟩ := Finset.mem_inter.mp hkind
    exact ⟨⟨kind, hleft, hindex⟩, kind, hright, hindex⟩

/-- The word of a list has the bits of the kinds in it. -/
theorem ofList (list : List TokenKind) : (TokenSet.ofList list).Represents list.toFinset := by
  have hfold : ∀ (set : TokenSet) (kinds : Finset TokenKind), set.Represents kinds →
      (list.foldl TokenSet.insert set).Represents (kinds ∪ list.toFinset) := by
    induction list with
    | nil => simp
    | cons kind rest ih =>
      intro set kinds h
      rw [List.foldl_cons, List.toFinset_cons, Finset.union_insert, ← Finset.insert_union]
      exact ih _ _ (h.insert kind)
  simpa [TokenSet.ofList] using hfold TokenSet.empty ∅ .empty

-- ============================================= what a set answers

variable (h : set.Represents kinds)
include h

/-- A kind is a member just if its own bit is set. -/
theorem contains_iff (kind : TokenKind) : set.contains kind = true ↔ kind ∈ kinds := by
  unfold contains
  rw [h]
  constructor
  · rintro ⟨same, hsame, hindex⟩
    rwa [← TokenKind.index_injective hindex]
  · exact fun hkind => ⟨kind, hkind, rfl⟩

/-- Every place of the row is the index of a kind, so that none gets lost where the kinds are
looked up. -/
theorem map_index_toList : set.toList.map TokenKind.index = set.places := by
  have hplaces : ∀ place ∈ set.places, ∃ kind, TokenKind.index kind = place := by
    intro place hmem
    obtain ⟨kind, _, hindex⟩ := (h place).mp (mem_places.mp hmem)
    exact ⟨kind, hindex⟩
  unfold toList
  rw [indices_eq_places]
  generalize set.places = row at hplaces
  induction row with
  | nil => rfl
  | cons place more ih =>
    obtain ⟨kind, rfl⟩ := hplaces place List.mem_cons_self
    rw [List.filterMap_cons_some (TokenKind.ofIndex?_index kind), List.map_cons,
      ih fun other hmem => hplaces other (List.mem_cons_of_mem _ hmem)]

/-- The iteration yields the members and nothing else. -/
theorem mem_toList (kind : TokenKind) : kind ∈ set.toList ↔ kind ∈ kinds := by
  rw [← h.contains_iff]
  unfold contains
  rw [← mem_places, ← h.map_index_toList, List.mem_map_of_injective TokenKind.index_injective]

/-- The iteration yields the members in the order of their indices. -/
theorem pairwise_toList : set.toList.Pairwise (·.index < ·.index) := by
  rw [← List.pairwise_map, h.map_index_toList]
  exact set.pairwise_places

theorem length_toList : set.toList.length = set.count := by
  rw [count_eq_length, ← h.map_index_toList, List.length_map]

/-- There are as many set bits as kinds. -/
theorem count_eq_card : set.count = kinds.card := by
  have hnodup : set.toList.Nodup := h.pairwise_toList.imp fun hlt heq => by
    rw [heq] at hlt
    exact Nat.lt_irrefl _ hlt
  have hsame : set.toList.toFinset = kinds := by
    ext kind
    rw [List.mem_toFinset, h.mem_toList]
  rw [← h.length_toList, ← hsame, List.toFinset_card_of_nodup hnodup]

/-- After some turns the iteration goes on with the members that it has not come to. -/
theorem remaining (turns : Nat) :
    ∃ rest : Finset TokenKind, (set.remaining turns).Represents rest
      ∧ (set.remaining turns).toList = set.toList.drop turns := by
  have hrow : (set.toList.drop turns).map TokenKind.index = (set.remaining turns).places := by
    rw [places_remaining, ← h.map_index_toList, List.map_drop]
  have hrest : (set.remaining turns).Represents (set.toList.drop turns).toFinset := by
    intro place
    simp only [← mem_places, ← hrow, List.mem_map, List.mem_toFinset]
  refine ⟨_, hrest, List.map_injective_iff.mpr TokenKind.index_injective ?_⟩
  rw [hrest.map_index_toList, hrow]

/-- No bit is set just if there is no kind. -/
theorem isEmpty_iff : set.isEmpty = true ↔ kinds = ∅ := by
  unfold isEmpty
  rw [beq_iff_eq, Finset.eq_empty_iff_forall_notMem]
  constructor
  · intro hzero kind hkind
    have hbit := (h kind.index).mpr ⟨kind, hkind, rfl⟩
    simp [hzero] at hbit
  · intro hnone
    apply BitVec.eq_of_getLsbD_eq
    intro place _
    by_contra hset
    obtain ⟨kind, hkind, _⟩ := (h place).mp (by simpa using hset)
    exact hnone kind hkind

end Represents

-- ======================================================== operations

/-- How a set is made. Putting a kind or another set into a set makes what adding it to a copy
makes, so one form stands for both. -/
inductive Recipe
  | empty
  | single (kind : TokenKind)
  | ofList (list : List TokenKind)
  | insert (recipe : Recipe) (kind : TokenKind)
  | union (recipe other : Recipe)
  | inter (recipe other : Recipe)

namespace Recipe

/-- The set that the operations make. -/
def build : Recipe → TokenSet
  | empty => .empty
  | single kind => .single kind
  | ofList list => .ofList list
  | insert recipe kind => recipe.build.insert kind
  | union recipe other => recipe.build.union other.build
  | inter recipe other => recipe.build.inter other.build

/-- The finite set that the operations denote. -/
def denotes : Recipe → Finset TokenKind
  | empty => ∅
  | single kind => {kind}
  | ofList list => list.toFinset
  | insert recipe kind => Insert.insert kind recipe.denotes
  | union recipe other => recipe.denotes ∪ other.denotes
  | inter recipe other => recipe.denotes ∩ other.denotes

/-- However a word was made, it stands for the set that its recipe denotes. -/
theorem represents_build (recipe : Recipe) : recipe.build.Represents recipe.denotes := by
  induction recipe with
  | empty => exact .empty
  | single kind => exact .single kind
  | ofList list => exact .ofList list
  | insert recipe kind ih => exact ih.insert kind
  | union recipe other ih ihother => exact ih.union ihother
  | inter recipe other ih ihother => exact ih.inter ihother

end Recipe

/-- Whatever operations make a set, it contains the kinds that they denote. Iteration yields
these, each once, in the order of the kinds; after any number of turns the number of set bits
is the number of members still to come. The number of members is that of the kinds, and the
set is empty just if there are none. -/
theorem build_faithful (recipe : Recipe) :
    let set := recipe.build
    (∀ kind, set.contains kind = true ↔ kind ∈ recipe.denotes)
      ∧ (∀ kind, kind ∈ set.toList ↔ kind ∈ recipe.denotes)
      ∧ set.toList.Pairwise (·.index < ·.index)
      ∧ (∀ turns, (set.remaining turns).toList = set.toList.drop turns
          ∧ (set.remaining turns).count = (set.toList.drop turns).length)
      ∧ set.count = recipe.denotes.card
      ∧ (set.isEmpty = true ↔ recipe.denotes = ∅) := by
  intro set
  have h : set.Represents recipe.denotes := recipe.represents_build
  refine ⟨h.contains_iff, h.mem_toList, h.pairwise_toList, fun turns => ?_, h.count_eq_card,
    h.isEmpty_iff⟩
  obtain ⟨rest, hrest, htoList⟩ := h.remaining turns
  exact ⟨htoList, by rw [← htoList, hrest.length_toList]⟩

end TokenSet

end Offside
