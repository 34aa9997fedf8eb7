import Offside.Proofs.Parse.Described

/-!
Outcomes merged in a row, in whatever groups.

Sequences, repetitions and folds merge the outcomes of their parts in different groupings, and
all of them are to come to the same report. What they come to can be said of the row alone
(`Outcome.summary`): the furthest place, what was expected there, the first message there, and
whether the last outcome is a success.

Two rows that are merged come to the summary of both in a row (`summary_append`). Which of them
lies further on decides which outcomes are left at the furthest place: those of one row, or
those of both. A grouping is a tree over the row, and its merge is the summary by induction on
the tree (`Grouping.merged_eq`).
-/

namespace Offside.Outcome

-- =============================================== the furthest of a row

/-- The furthest place of a row of outcomes. -/
def furthestPlace (outcomes : List Outcome) : Nat := (outcomes.map (·.place)).foldr max 0

/-- The outcomes of a row that are at its furthest place. -/
def furthest (outcomes : List Outcome) : List Outcome :=
  outcomes.filter (·.place == furthestPlace outcomes)

/-- What a row of outcomes comes to. -/
def summary (outcomes : List Outcome) : Outcome where
  place := furthestPlace outcomes
  expected := (furthest outcomes).flatMap (·.expected)
  message := (furthest outcomes).findSome? (·.message)
  success := outcomes.getLast?.any (·.success)

/-- The furthest place of two rows is that of the row that gets further. -/
theorem furthestPlace_append (front back : List Outcome) :
    furthestPlace (front ++ back) = max (furthestPlace front) (furthestPlace back) := by
  induction front with
  | nil => simp [furthestPlace]
  | cons outcome front ih =>
    simp only [furthestPlace, List.cons_append, List.map_cons, List.foldr_cons] at ih ⊢
    rw [ih, Nat.max_assoc]

theorem place_le_furthestPlace {outcomes : List Outcome} {outcome : Outcome}
    (h : outcome ∈ outcomes) : outcome.place ≤ furthestPlace outcomes := by
  obtain ⟨front, back, rfl⟩ := List.append_of_mem h
  rw [furthestPlace_append]
  simp [furthestPlace]

/-- Some outcome of a row is the furthest. -/
theorem furthest_ne_nil {outcomes : List Outcome} (h : outcomes ≠ []) : furthest outcomes ≠ [] := by
  suffices hattained : ∃ outcome ∈ outcomes, outcome.place = furthestPlace outcomes by
    obtain ⟨outcome, hmem, hplace⟩ := hattained
    exact List.ne_nil_of_mem (List.mem_filter.mpr ⟨hmem, by simpa using hplace⟩)
  induction outcomes with
  | nil => exact absurd rfl h
  | cons first rest ih =>
    have hmax : furthestPlace (first :: rest) = max first.place (furthestPlace rest) := rfl
    by_cases hlt : first.place < furthestPlace rest
    · have hrest : rest ≠ [] := by
        rintro rfl
        exact Nat.not_lt_zero _ hlt
      obtain ⟨outcome, hmem, hplace⟩ := ih hrest
      exact ⟨outcome, List.mem_cons_of_mem _ hmem, by omega⟩
    · exact ⟨first, List.mem_cons_self, by omega⟩

/-- No outcome is at a place beyond the furthest. -/
theorem filter_place_of_lt {outcomes : List Outcome} {place : Nat}
    (h : furthestPlace outcomes < place) : outcomes.filter (·.place == place) = [] := by
  rw [List.filter_eq_nil_iff]
  intro outcome hmem
  have hle := place_le_furthestPlace hmem
  simp only [beq_iff_eq]
  omega

/-- A row that falls short has no part in what is furthest. -/
theorem furthest_append_of_lt {front back : List Outcome}
    (h : furthestPlace front < furthestPlace back) : furthest (front ++ back) = furthest back := by
  unfold furthest
  rw [furthestPlace_append, Nat.max_eq_right (Nat.le_of_lt h), List.filter_append,
    filter_place_of_lt h, List.nil_append]

/-- A row that gets further is all that counts. -/
theorem furthest_append_of_gt {front back : List Outcome}
    (h : furthestPlace back < furthestPlace front) : furthest (front ++ back) = furthest front := by
  unfold furthest
  rw [furthestPlace_append, Nat.max_eq_left (Nat.le_of_lt h), List.filter_append,
    filter_place_of_lt h, List.append_nil]

theorem furthest_append_of_eq {front back : List Outcome}
    (h : furthestPlace front = furthestPlace back) :
    furthest (front ++ back) = furthest front ++ furthest back := by
  unfold furthest
  rw [furthestPlace_append, ← h, Nat.max_self, List.filter_append]

-- ============================================================= merging

theorem summary_single (outcome : Outcome) : summary [outcome] = outcome := by
  have hplace : furthestPlace [outcome] = outcome.place := Nat.max_zero _
  have hfurthest : furthest [outcome] = [outcome] := by simp [furthest, hplace]
  unfold summary
  rw [hplace, hfurthest]
  simp

/-- Merging what two rows come to is what they come to in a row. The second one decides on
success, so it is not empty. -/
theorem summary_append (front : List Outcome) {back : List Outcome} (hback : back ≠ []) :
    summary (front ++ back) = (summary front).merge (summary back) := by
  have hlast : (front ++ back).getLast? = back.getLast? := List.getLast?_append_of_ne_nil _ hback
  have hplace := furthestPlace_append front back
  rcases Nat.lt_trichotomy (furthestPlace front) (furthestPlace back) with hlt | heq | hgt
  · rw [merge_of_lt hlt]
    unfold summary
    rw [hlast, hplace, Nat.max_eq_right (Nat.le_of_lt hlt), furthest_append_of_lt hlt]
  · rw [merge_of_eq heq]
    unfold summary
    rw [hlast, hplace, heq, Nat.max_self, furthest_append_of_eq heq, List.flatMap_append,
      List.findSome?_append]
    simp
  · rw [merge_of_gt hgt]
    unfold summary
    rw [hlast, hplace, Nat.max_eq_left (Nat.le_of_lt hgt), furthest_append_of_gt hgt]
    rfl

/-- A way to merge a row of outcomes two at a time that keeps their order. -/
inductive Grouping : List Outcome → Type
  | single (outcome : Outcome) : Grouping [outcome]
  | pair {front back : List Outcome} (earlier : Grouping front) (later : Grouping back) :
      Grouping (front ++ back)

namespace Grouping

variable {outcomes : List Outcome}

/-- What merging in these groups comes to. -/
def merged : {outcomes : List Outcome} → Grouping outcomes → Outcome
  | _, single outcome => outcome
  | _, pair earlier later => earlier.merged.merge later.merged

theorem ne_nil (grouping : Grouping outcomes) : outcomes ≠ [] := by
  induction grouping with
  | single => exact List.cons_ne_nil _ _
  | pair _ _ _ ih => exact List.append_ne_nil_of_right_ne_nil _ ih

/-- Whatever the groups, merging comes to the summary of the row. -/
theorem merged_eq (grouping : Grouping outcomes) : grouping.merged = summary outcomes := by
  induction grouping with
  | single outcome => exact (summary_single outcome).symm
  | pair earlier later ihearlier ihlater =>
    rw [merged, ihearlier, ihlater, summary_append _ later.ne_nil]

end Grouping

/-- Merging from left to right comes to the summary of the row. -/
theorem foldl_merge_eq (rest front : List Outcome) :
    rest.foldl merge (summary front) = summary (front ++ rest) := by
  induction rest generalizing front with
  | nil => rw [List.foldl_nil, List.append_nil]
  | cons outcome rest ih =>
    have hnext : (summary front).merge outcome = summary (front ++ [outcome]) := by
      rw [summary_append _ (List.cons_ne_nil _ _), summary_single]
    rw [List.foldl_cons, hnext, ih, List.append_assoc, List.singleton_append]

/-- Merging a row of outcomes from left to right, or in any other groups that keep their order,
comes to the furthest report: the furthest place, all that was expected there in order, the first
message there, and the success of the last outcome. What it describes is what the outcomes at
that place describe, in order and each once. -/
theorem merge_furthest (first : Outcome) (rest : List Outcome) :
    let outcomes := first :: rest
    let merged := rest.foldl merge first
    let furthest := outcomes.filter (·.place == merged.place)
    (∀ grouping : Grouping outcomes, grouping.merged = merged)
      ∧ (∀ outcome ∈ outcomes, outcome.place ≤ merged.place)
      ∧ furthest ≠ []
      ∧ merged.expected = furthest.flatMap (·.expected)
      ∧ merged.message = furthest.findSome? (·.message)
      ∧ some merged.success = outcomes.getLast?.map (·.success)
      ∧ merged.descriptions.Pairwise (· < ·)
      ∧ ∀ text, text ∈ merged.descriptions ↔ ∃ outcome ∈ furthest, text ∈ outcome.descriptions := by
  intro outcomes merged furthest
  have hmerged : merged = summary outcomes := by
    have hfold := foldl_merge_eq rest [first]
    rwa [summary_single] at hfold
  have hfurthest : furthest = Outcome.furthest outcomes := by
    show outcomes.filter (·.place == merged.place) = _
    rw [hmerged]
    rfl
  have hexpected : merged.expected = furthest.flatMap (·.expected) := by
    rw [hfurthest, hmerged]
    rfl
  refine ⟨fun grouping => ?_, fun outcome hmem => ?_, ?_, hexpected, ?_, ?_, ?_, fun text => ?_⟩
  · rw [grouping.merged_eq, hmerged]
  · rw [hmerged]
    exact place_le_furthestPlace hmem
  · rw [hfurthest]
    exact furthest_ne_nil (List.cons_ne_nil _ _)
  · rw [hfurthest, hmerged]
    rfl
  · rw [hmerged, summary, List.getLast?_eq_some_getLast (List.cons_ne_nil _ _)]
    rfl
  · exact pairwise_sortedOnce _
  · simp only [mem_descriptions, hexpected, List.mem_flatMap]
    constructor
    · rintro ⟨grammar, ⟨outcome, hmem, hgrammar⟩, htext⟩
      exact ⟨outcome, hmem, grammar, hgrammar, htext⟩
    · rintro ⟨outcome, hmem, grammar, hgrammar, htext⟩
      exact ⟨grammar, ⟨outcome, hmem, hgrammar⟩, htext⟩

end Offside.Outcome
