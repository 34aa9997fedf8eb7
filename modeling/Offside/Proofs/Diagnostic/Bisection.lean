import Offside.Diagnostic.LineTable

/-!
The bisection of line starts.

Bisection keeps a window of indices. The starts in front of the window are less than the
offset, and those behind it are greater (`Window`); each round gives up one half of the
window, since the starts increase. Where the offset is found, and where the window is
empty, the window says how many starts come first.

So a hit and a miss mean the same (`lineOf_eq_countP`): the line is the number of starts
at or before the offset. A hit is the index of the last of these, and a miss is the index
behind it.
-/

namespace Offside.LineTable

variable {starts : Array Nat} {offset low high index : Nat}

/-- What bisection knows of the starts outside of its window. -/
structure Window (starts : Array Nat) (offset low high : Nat) : Prop where
  below : ∀ (index : Nat) (_ : index < starts.size), index < low → starts[index] < offset
  above : ∀ (index : Nat) (_ : index < starts.size), high ≤ index → offset < starts[index]

theorem Window.all (starts : Array Nat) (offset : Nat) : Window starts offset 0 starts.size :=
  ⟨fun _ _ hlow => by omega, fun _ _ hhigh => by omega⟩

/-- The starts at or before an offset come first. -/
theorem countP_eq_of_window {list : List Nat} (hinside : low ≤ list.length)
    (hbelow : ∀ (index : Nat) (_ : index < list.length), index < low → list[index] ≤ offset)
    (habove : ∀ (index : Nat) (_ : index < list.length), low ≤ index → offset < list[index]) :
    list.countP (· ≤ offset) = low := by
  have hfront : (list.take low).countP (· ≤ offset) = (list.take low).length := by
    rw [List.countP_eq_length]
    intro start hmem
    obtain ⟨index, hindex, rfl⟩ := List.mem_iff_getElem.mp hmem
    rw [List.length_take] at hindex
    rw [List.getElem_take]
    exact decide_eq_true (hbelow index (by omega) (by omega))
  have hback : (list.drop low).countP (· ≤ offset) = 0 := by
    rw [List.countP_eq_zero]
    intro start hmem
    obtain ⟨index, hindex, rfl⟩ := List.mem_iff_getElem.mp hmem
    rw [List.length_drop] at hindex
    have hgreater := habove (low + index) (by omega) (by omega)
    rw [List.getElem_drop]
    simpa using hgreater
  rw [← List.take_append_drop low list, List.countP_append, hfront, hback, List.length_take]
  omega

/-- What bisection answers, for starts that increase. -/
inductive Located (starts : Array Nat) (offset : Nat) : Except Nat Nat → Prop
  | found {index : Nat} (inside : index < starts.size) (hit : starts[index] = offset) :
    Located starts offset (.ok index)
  | missing {index : Nat} (inside : index ≤ starts.size)
    (window : Window starts offset index index) : Located starts offset (.error index)

/-- Each round gives up the half that the middle start rules out, so the window stays one
until it is empty or the offset is found. -/
theorem located_bisect (hincrease : starts.toList.Pairwise (· < ·)) (inside : high ≤ starts.size)
    (hwindow : Window starts offset low high) (hle : low ≤ high) :
    Located starts offset (bisect starts offset low high inside) := by
  have hless := List.pairwise_iff_getElem.mp hincrease
  simp only [Array.length_toList, Array.getElem_toList] at hless
  fun_induction bisect starts offset low high inside with
  | case1 low high inside hlt middle hmiddle hhit => exact .found hmiddle hhit
  | case2 low high inside hlt middle hmiddle hhit hbefore ih =>
    refine ih ⟨fun index hindex hlow => ?_, hwindow.above⟩ (by omega)
    by_cases heq : index = middle
    · subst heq
      exact hbefore
    · have hfront := hless index middle hindex hmiddle (by omega)
      omega
  | case3 low high inside hlt middle hmiddle hhit hbehind ih =>
    refine ih ⟨hwindow.below, fun index hindex hhigh => ?_⟩ (by omega)
    by_cases heq : index = middle
    · subst heq
      omega
    · have hback := hless middle index hmiddle hindex (by omega)
      omega
  | case4 low high inside hempty =>
    obtain rfl : low = high := by omega
    exact .missing inside hwindow

/-- A hit and a miss come to the number of starts at or before the offset, if there is
one. -/
theorem lineOf_eq_countP {table : LineTable} (hincrease : table.starts.Pairwise (· < ·))
    (hfirst : table.starts.head? = some 0) :
    table.lineOf offset = table.starts.countP (· ≤ offset) := by
  have hlocated := located_bisect (by simpa using hincrease) (Nat.le_refl _)
    (Window.all table.starts.toArray offset) (Nat.zero_le _)
  have hless := List.pairwise_iff_getElem.mp hincrease
  unfold lineOf
  dsimp only
  generalize bisect table.starts.toArray offset 0 _ _ = answer at hlocated
  cases hlocated with
  | @found index inside hit =>
    rw [List.size_toArray] at inside
    rw [List.getElem_toArray] at hit
    symm
    apply countP_eq_of_window inside
    · intro other hother hlow
      by_cases heq : other = index
      · subst heq
        exact Nat.le_of_eq hit
      · have hbefore := hless other index hother inside (by omega)
        omega
    · intro other hother hhigh
      have hbehind := hless index other inside hother (by omega)
      omega
  | @missing index inside window =>
    rw [List.size_toArray] at inside
    have hcount : table.starts.countP (· ≤ offset) = index := countP_eq_of_window inside
      (fun other hother hlow => Nat.le_of_lt (window.below other (by simpa using hother) hlow))
      (fun other hother hhigh => window.above other (by simpa using hother) hhigh)
    -- the first start is 0, so an offset is not inserted in front of it
    have hpos : 0 < table.starts.countP (· ≤ offset) := by
      rw [List.countP_pos_iff]
      exact ⟨0, List.mem_of_head? hfirst, by simp⟩
    dsimp only
    omega

end Offside.LineTable
