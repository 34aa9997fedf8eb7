import Offside.Source.Position
import Offside.Proofs.Text.Bytes

/-!
The position of a boundary of a text, read off the text alone.

`Position.after` counts the lines that have ended before a boundary, the
characters since the last of them, and the bytes. Moving over characters one
by one, as the reader does, keeps to it: `after_succ` for one character,
`after_add` for a run. The two carriage return cases are the whole content of
`after_succ`; a carriage return before a line feed ends no line yet and takes
no column.

The second part is about words of 32 bits. Counting in words loses multiples of 2^32
and nothing else (`toWords_advanceOver`), so it comes to the position of a boundary
wherever the words hold it (`toPosition_advanceOver`). There is at least one byte for
each line that has ended and for each column, so of all boundaries of a text only its
end can be where a word does not hold the line or the column (`fits_after`).

The third part is the order by line and column. A move never goes back
(`notAfter_advanceOver`) and goes on strictly unless the character is such a
carriage return (`compare_advance`).
-/

namespace Offside.Position

open Text

-- ================================================ coordinates of a text

/-- Whether a line ends right after the character at an index: a line feed, or a
carriage return that no line feed follows. -/
def endsLine (chars : List Char) (index : Nat) : Bool :=
  chars[index]? == some '\n'
    || (chars[index]? == some '\r' && chars[index + 1]? != some '\n')

/-- Whether the character at an index is the carriage return of a line break
whose line feed comes next. -/
def awaitsLineFeed (chars : List Char) (index : Nat) : Bool :=
  chars[index]? == some '\r' && chars[index + 1]? == some '\n'

/-- Where the line starts on which the first `count` characters end. -/
def lineStart (chars : List Char) : Nat → Nat
  | 0 => 0
  | count + 1 => if endsLine chars count then count + 1 else lineStart chars count

/-- The position after the first `count` characters of a text, counted from the
text alone: the lines that have ended, the characters since then, the bytes. -/
def after (chars : List Char) (count : Nat) : Position where
  line := 1 + (List.range count).countP (endsLine chars)
  column := 1 + (List.range' (lineStart chars count) (count - lineStart chars count)).countP
    fun index => !awaitsLineFeed chars index
  offset := byteLength (chars.take count)

/-- A line starts at or before the boundaries on it. -/
theorem lineStart_le (chars : List Char) (count : Nat) : lineStart chars count ≤ count := by
  induction count with
  | zero => exact Nat.le_refl 0
  | succ count ih =>
    unfold lineStart
    split
    · exact Nat.le_refl _
    · exact Nat.le_succ_of_le ih

theorem after_zero (chars : List Char) : after chars 0 = .start := rfl

/-- One more character at the end of a line is counted if it counts. -/
theorem countP_range_succ (p : Nat → Bool) {start count : Nat} (h : start ≤ count) :
    (List.range' start (count + 1 - start)).countP p
      = (List.range' start (count - start)).countP p + if p count then 1 else 0 := by
  have hrange : List.range' start (count + 1 - start)
      = List.range' start (count - start) ++ [count] := by
    rw [Nat.sub_add_comm h, List.range'_concat, Nat.one_mul, Nat.add_sub_cancel' h]
  rw [hrange, List.countP_append, List.countP_singleton]

/-- Reading one more character moves the exact position as `advance` does. -/
theorem after_succ {chars : List Char} {count : Nat} {c : Char} (h : chars[count]? = some c) :
    after chars (count + 1) = (after chars count).advance c chars[count + 1]? := by
  have hline : (List.range (count + 1)).countP (endsLine chars)
      = (List.range count).countP (endsLine chars) + if endsLine chars count then 1 else 0 := by
    rw [List.range_succ, List.countP_append, List.countP_singleton]
  have hcolumn := countP_range_succ (fun index => !awaitsLineFeed chars index)
    (lineStart_le chars count)
  have hoffset : byteLength (chars.take (count + 1))
      = byteLength (chars.take count) + c.utf8Size := by
    rw [List.take_add_one, h, byteLength_append]
    simp
  by_cases hend : endsLine chars count = true
  · -- the character ends a line
    have hc : c = '\n' ∨ (c = '\r' ∧ chars[count + 1]? ≠ some '\n') := by
      simpa [endsLine, h] using hend
    have hstart : lineStart chars (count + 1) = count + 1 := if_pos hend
    unfold after advance
    rw [hline, hoffset, hstart, if_pos hend, if_pos hc, Nat.sub_self]
    rfl
  · have hc : ¬(c = '\n' ∨ (c = '\r' ∧ chars[count + 1]? ≠ some '\n')) := by
      simpa [endsLine, h] using hend
    have hstart : lineStart chars (count + 1) = lineStart chars count := if_neg hend
    unfold after advance
    rw [hline, hoffset, hstart, hcolumn, if_neg hend, if_neg hc]
    by_cases hreturn : c = '\r'
    · -- a carriage return before a line feed takes no column
      have hfeed : chars[count + 1]? = some '\n' := by
        simpa [hreturn] using hc
      have hawaits : awaitsLineFeed chars count = true := by
        simp [awaitsLineFeed, h, hreturn, hfeed]
      rw [if_pos hreturn, hawaits]
      rfl
    · have hawaits : awaitsLineFeed chars count = false := by
        simp [awaitsLineFeed, h, hreturn]
      rw [if_neg hreturn, hawaits]
      rfl

/-- Reading `more` characters moves the exact position as `advanceOver` does. -/
theorem after_add {chars : List Char} (more : Nat) : ∀ {count : Nat}, count + more ≤ chars.length →
    (after chars count).advanceOver more (chars.drop count) = after chars (count + more) := by
  induction more with
  | zero =>
    intro count _
    cases chars.drop count <;> rfl
  | succ more ih =>
    intro count hle
    have hlt : count < chars.length := by omega
    have hhead : chars.drop count = chars[count] :: chars.drop (count + 1) :=
      List.drop_eq_getElem_cons hlt
    have hnext : (chars.drop (count + 1)).head? = chars[count + 1]? := List.head?_drop ..
    rw [hhead, advanceOver, hnext, ← after_succ (List.getElem?_eq_getElem hlt), ih (by omega)]
    congr 1
    omega

/-- The exact position after all characters lies at the end of the text. -/
theorem offset_after_length (chars : List Char) :
    (after chars chars.length).offset = byteLength chars := by
  show byteLength (chars.take chars.length) = byteLength chars
  rw [List.take_length]

/-- A boundary further on has the greater offset. -/
theorem offset_after_lt {chars : List Char} {first last : Nat} (hlt : first < last)
    (hlast : last ≤ chars.length) :
    (after chars first).offset < (after chars last).offset := by
  show byteLength (chars.take first) < byteLength (chars.take last)
  obtain ⟨more, rfl⟩ := Nat.exists_eq_add_of_lt hlt
  have hhead : chars.drop first = chars[first] :: chars.drop (first + 1) :=
    List.drop_eq_getElem_cons (by omega)
  have hsize := chars[first].utf8Size_pos
  rw [Nat.add_assoc, List.take_add, hhead, List.take_succ_cons, byteLength_append, byteLength_cons]
  omega

-- ================================================== words of 32 bits

/-- A position in words of 32 bits. -/
structure Words where
  line : UInt32
  column : UInt32
  offset : UInt32

namespace Words

/-- The words after the character `c`, when `next` follows it, as `Position.advance`
counts. A word that has no room for the sum starts again at zero. -/
def advance (words : Words) (c : Char) (next : Option Char) : Words :=
  let offset := words.offset + .ofNat c.utf8Size
  if c = '\n' ∨ (c = '\r' ∧ next ≠ some '\n') then ⟨words.line + 1, 1, offset⟩
  else if c = '\r' then ⟨words.line, words.column, offset⟩
  else ⟨words.line, words.column + 1, offset⟩

/-- The words after the first `count` characters of `chars`. -/
def advanceOver (words : Words) : Nat → List Char → Words
  | 0, _ => words
  | _, [] => words
  | count + 1, c :: rest => (words.advance c rest.head?).advanceOver count rest

end Words

section Fits

variable {chars : List Char} {count : Nat}

/-- No more lines have ended than there are characters. -/
theorem line_after_le (chars : List Char) (count : Nat) : (after chars count).line ≤ count + 1 := by
  have hlines : (List.range count).countP (endsLine chars) ≤ (List.range count).length :=
    List.countP_le_length
  rw [List.length_range] at hlines
  show 1 + (List.range count).countP (endsLine chars) ≤ count + 1
  omega

/-- No more columns are taken than there are characters. -/
theorem column_after_le (chars : List Char) (count : Nat) :
    (after chars count).column ≤ count + 1 := by
  have hcolumns : (List.range' (lineStart chars count) (count - lineStart chars count)).countP
      (fun index => !awaitsLineFeed chars index)
        ≤ (List.range' (lineStart chars count) (count - lineStart chars count)).length :=
    List.countP_le_length
  rw [List.length_range'] at hcolumns
  show 1 + (List.range' (lineStart chars count) (count - lineStart chars count)).countP
    (fun index => !awaitsLineFeed chars index) ≤ count + 1
  omega

/-- The position of a boundary fits if one more byte does not make its offset too great. -/
theorem fits_after_of_lt (h : count ≤ chars.length)
    (hoffset : (after chars count).offset + 1 < UInt32.size) :
    (after chars count).Fits := by
  have hbytes : count ≤ (after chars count).offset := le_byteLength_take h
  have hline := line_after_le chars count
  have hcolumn := column_after_le chars count
  exact ⟨by omega, by omega, by omega⟩

/-- Every character of a line takes a column. -/
theorem column_after_line (hline : ∀ c ∈ chars, c ≠ '\n' ∧ c ≠ '\r') (count : Nat) :
    (after chars count).column = count + 1 := by
  have hbreak : ∀ (index : Nat) (c : Char), chars[index]? = some c → c ≠ '\n' ∧ c ≠ '\r' :=
    fun index c hc => hline c (List.mem_of_getElem? hc)
  have hends : ∀ index, endsLine chars index = false := by
    intro index
    cases hc : chars[index]? with
    | none => simp [endsLine, hc]
    | some c => simp [endsLine, hc, hbreak index c hc]
  have hawaits : ∀ index, (!awaitsLineFeed chars index) = true := by
    intro index
    cases hc : chars[index]? with
    | none => simp [awaitsLineFeed, hc]
    | some c => simp [awaitsLineFeed, hc, hbreak index c hc]
  have hstart : lineStart chars count = 0 := by
    induction count with
    | zero => rfl
    | succ count ih => rw [lineStart, hends, if_neg Bool.false_ne_true, ih]
  show 1 + (List.range' (lineStart chars count) (count - lineStart chars count)).countP
    (fun index => !awaitsLineFeed chars index) = count + 1
  rw [hstart, Nat.sub_zero, List.countP_eq_length.mpr fun index _ => hawaits index,
    List.length_range', Nat.add_comm]

end Fits

-- =========================================== the order of positions

theorem compare_eq_lt_iff {a b : Position} :
    a.compare b = .lt ↔ a.line < b.line ∨ (a.line = b.line ∧ a.column < b.column) := by
  unfold compare
  rw [Ordering.then_eq_lt, Nat.compare_eq_lt, Nat.compare_eq_eq, Nat.compare_eq_lt]

/-- The first position is not after the second, in line and column. -/
def NotAfter (a b : Position) : Prop :=
  a.line < b.line ∨ (a.line = b.line ∧ a.column ≤ b.column)

/-- No character moves back. -/
theorem notAfter_advance (p : Position) (c : Char) (next : Option Char) :
    p.NotAfter (p.advance c next) := by
  unfold advance NotAfter
  split
  · exact Or.inl (Nat.lt_succ_self _)
  · split
    · exact Or.inr ⟨rfl, Nat.le_refl _⟩
    · exact Or.inr ⟨rfl, Nat.le_succ _⟩

/-- Every character moves on but the carriage return of a pair. -/
theorem compare_advance {p : Position} {c : Char} {next : Option Char}
    (h : ¬(c = '\r' ∧ next = some '\n')) : p.compare (p.advance c next) = .lt := by
  rw [compare_eq_lt_iff]
  unfold advance
  split
  case isTrue => exact Or.inl (Nat.lt_succ_self _)
  case isFalse hbreak =>
    have hc : c ≠ '\r' := by
      intro hreturn
      apply h
      simpa [hreturn] using hbreak
    rw [if_neg hc]
    exact Or.inr ⟨rfl, Nat.lt_succ_self _⟩

/-- No characters in a row move back. -/
theorem notAfter_advanceOver (count : Nat) : ∀ (p : Position) (chars : List Char),
    p.NotAfter (p.advanceOver count chars) := by
  induction count with
  | zero =>
    intro p chars
    exact Or.inr ⟨by cases chars <;> rfl, by cases chars <;> exact Nat.le_refl _⟩
  | succ count ih =>
    intro p chars
    cases chars with
    | nil => exact Or.inr ⟨rfl, Nat.le_refl _⟩
    | cons c rest =>
      have hstep := notAfter_advance p c rest.head?
      have hrest := ih (p.advance c rest.head?) rest
      unfold NotAfter at *
      rw [advanceOver]
      omega

theorem compare_of_lt_of_notAfter {a b c : Position} (hab : a.compare b = .lt)
    (hbc : b.NotAfter c) : a.compare c = .lt := by
  rw [compare_eq_lt_iff] at *
  unfold NotAfter at hbc
  omega

theorem compare_trans {a b c : Position} (hab : a.compare b = .lt) (hbc : b.compare c = .lt) :
    a.compare c = .lt := by
  rw [compare_eq_lt_iff] at *
  omega

theorem compare_of_notAfter_of_lt {a b c : Position} (hab : a.NotAfter b)
    (hbc : b.compare c = .lt) : a.compare c = .lt := by
  rw [compare_eq_lt_iff] at *
  unfold NotAfter at hab
  omega

end Offside.Position
