import Mathlib.Data.List.Sort
import Mathlib.Data.String.Basic
import Offside.Parse.Outcome

/-!
What outcomes describe.

A message lists descriptions in order, each once. So of the texts that go into the
list only their set counts (`sortedOnce_eq_iff`), and what an outcome describes is
a matter of membership: a text is described if one of the grammars that were
expected starts with it. Outcomes of one place that are merged describe what either
of them does.
-/

namespace Offside

-- ===================================================== sorted texts

/-- Leaving out repetitions keeps the texts. -/
theorem mem_eraseReps_loop {text : String} (texts : List String) :
    ∀ (last : String) (earlier : List String),
      text ∈ List.eraseRepsBy.loop (· == ·) last texts earlier
        ↔ text ∈ earlier ∨ text = last ∨ text ∈ texts := by
  induction texts with
  | nil =>
    intro last earlier
    simp [List.eraseRepsBy.loop, or_comm]
  | cons next rest ih =>
    intro last earlier
    unfold List.eraseRepsBy.loop
    split
    case h_1 hsame =>
      obtain rfl : last = next := eq_of_beq hsame
      rw [ih, List.mem_cons, or_self_left]
    case h_2 =>
      rw [ih, List.mem_cons, List.mem_cons, or_assoc, or_left_comm]

/-- Texts in order of which the repetitions are left out rise. -/
theorem pairwise_eraseReps_loop (texts : List String) :
    ∀ (last : String) (earlier : List String), (last :: texts).Pairwise (· ≤ ·) →
      (earlier.reverse ++ [last]).Pairwise (· < ·) →
      (List.eraseRepsBy.loop (· == ·) last texts earlier).Pairwise (· < ·) := by
  induction texts with
  | nil =>
    intro last earlier _ hearlier
    simpa [List.eraseRepsBy.loop] using hearlier
  | cons next rest ih =>
    intro last earlier horder hearlier
    obtain ⟨hlast, hrest⟩ := List.pairwise_cons.mp horder
    unfold List.eraseRepsBy.loop
    split
    case h_1 hsame =>
      obtain rfl : last = next := eq_of_beq hsame
      exact ih last earlier hrest hearlier
    case h_2 hother =>
      have hlt : last < next := lt_of_le_of_ne (hlast next List.mem_cons_self) fun hsame => by
        simp [hsame] at hother
      refine ih next (last :: earlier) hrest ?_
      rw [List.reverse_cons]
      refine List.pairwise_append.mpr ⟨hearlier, List.pairwise_singleton .., ?_⟩
      intro text hmem _ hnext
      obtain rfl := List.mem_singleton.mp hnext
      rcases List.mem_append.mp hmem with hmem | hmem
      · exact ((List.pairwise_append.mp hearlier).2.2 text hmem last
          List.mem_cons_self).trans hlt
      · rw [List.mem_singleton.mp hmem]
        exact hlt

/-- Leaving out repetitions leaves out no text. -/
theorem mem_eraseReps {text : String} (texts : List String) :
    text ∈ texts.eraseReps ↔ text ∈ texts := by
  cases texts with
  | nil => rfl
  | cons first rest =>
    show text ∈ List.eraseRepsBy.loop (· == ·) first rest [] ↔ _
    rw [mem_eraseReps_loop, List.mem_cons, or_iff_right List.not_mem_nil]

/-- Sorted texts without repetitions increase. -/
theorem pairwise_eraseReps {texts : List String} (h : texts.Pairwise (· ≤ ·)) :
    texts.eraseReps.Pairwise (· < ·) := by
  cases texts with
  | nil => exact .nil
  | cons first rest => exact pairwise_eraseReps_loop _ _ _ h (List.pairwise_singleton ..)

theorem mem_sortedOnce {text : String} {texts : List String} :
    text ∈ sortedOnce texts ↔ text ∈ texts := by
  unfold sortedOnce
  rw [mem_eraseReps, List.mem_mergeSort]

theorem pairwise_sortedOnce (texts : List String) : (sortedOnce texts).Pairwise (· < ·) := by
  refine pairwise_eraseReps ((List.pairwise_mergeSort ?_ ?_ texts).imp fun h => of_decide_eq_true h)
  · exact fun _ _ _ hfirst hsecond => decide_eq_true
      ((of_decide_eq_true hfirst).trans (of_decide_eq_true hsecond))
  · exact fun first second => by simpa using le_total first second

/-- Only the set of the texts counts. -/
theorem sortedOnce_eq_iff {texts others : List String} :
    sortedOnce texts = sortedOnce others ↔ ∀ text, text ∈ texts ↔ text ∈ others := by
  constructor
  · intro h text
    rw [← mem_sortedOnce, h, mem_sortedOnce]
  · intro h
    refine (pairwise_sortedOnce texts).eq_of_mem_iff (pairwise_sortedOnce others) fun text => ?_
    rw [mem_sortedOnce, mem_sortedOnce, h]

-- ========================================================= outcomes

namespace Outcome

variable {outcome other earlier later : Outcome} {text : String}

/-- What an outcome expects is described by the grammars that it names. -/
theorem mem_descriptions :
    text ∈ outcome.descriptions
      ↔ ∃ grammar ∈ outcome.expected, text ∈ grammar.startDescriptions := by
  unfold descriptions
  rw [mem_sortedOnce, List.mem_flatMap]

/-- Outcomes that describe the same have the same descriptions in a message. -/
theorem descriptions_eq_iff :
    outcome.descriptions = other.descriptions
      ↔ ∀ text, text ∈ outcome.descriptions ↔ text ∈ other.descriptions := by
  unfold descriptions
  rw [sortedOnce_eq_iff]
  simp only [mem_sortedOnce]

theorem mem_descriptions_failed {place : Nat} {grammar : Grammar} :
    text ∈ (failed place grammar).descriptions ↔ text ∈ grammar.startDescriptions := by
  rw [mem_descriptions]
  simp [failed]

/-- Outcomes of one place are joined. -/
theorem merge_of_eq (h : earlier.place = later.place) :
    earlier.merge later = ⟨later.place, earlier.expected ++ later.expected,
      earlier.message <|> later.message, later.success⟩ := by
  unfold merge
  rw [if_neg (by omega), if_neg (by omega), h]

/-- An outcome further on takes the place of the earlier one. -/
theorem merge_of_lt (h : earlier.place < later.place) : earlier.merge later = later := by
  unfold merge
  rw [if_neg (by omega), if_pos h]

/-- An outcome further back only decides on success. -/
theorem merge_of_gt (h : later.place < earlier.place) :
    earlier.merge later = earlier.withSuccess later.success := by
  unfold merge
  rw [if_pos h]

theorem place_merge_of_le (h : earlier.place ≤ later.place) :
    (earlier.merge later).place = later.place := by
  rcases Nat.lt_or_eq_of_le h with hlt | heq
  · rw [merge_of_lt hlt]
  · rw [merge_of_eq heq]

/-- Outcomes of one place that are merged describe what either of them does. -/
theorem mem_descriptions_merge (h : earlier.place = later.place) :
    text ∈ (earlier.merge later).descriptions
      ↔ text ∈ earlier.descriptions ∨ text ∈ later.descriptions := by
  rw [merge_of_eq h]
  simp only [mem_descriptions, List.mem_append, or_and_right, exists_or]

end Outcome

end Offside
