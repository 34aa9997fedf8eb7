import Offside.Proofs.Token.Lexeme

/-!
A lexeme, cut off from what follows it, is the same lexeme.

Most kinds of token look past their own end: whether a dot goes on with a name, whether
a digit follows the sign of an exponent, whether a quote is the third in a row. The
statement of this module (`first_take`) is that none of these looks decides anything
where the text is cut right behind the token: what was seen there and left out would
not have been taken, and an end takes nothing either.

# Two kinds of cut

A part that is one stretch of characters at the front, such as a run or an exponent,
comes out the same wherever the text is cut behind it (`fractionLength_take`,
`exponentLength_take`, `escapeLength_take`, `charContent_take`). A part that is read
piece by piece, such as a qualified name, a comment or a string, could go on differently
if the cut fell into what comes next. For these the cut is exactly at the end, and the
induction follows the pieces (`qualifiedRest_take`, `commentBody_take`, `rawBody_take`,
`stringBody_take`).
-/

namespace Offside.Lexeme

open Text

-- ================================================== what a cut leaves

/-- A run ends where the cut is, if it has not ended before. -/
theorem runLength_take (p : Char → Bool) (chars : List Char) (count : Nat) :
    runLength p (chars.take count) = min count (runLength p chars) := by
  unfold runLength
  rw [← List.take_takeWhile, List.length_take]

/-- What is in front of a cut text is in front of the whole. -/
theorem head?_of_head?_take {chars : List Char} {count : Nat} {c : Char}
    (h : (chars.take count).head? = some c) : chars.head? = some c := by
  rw [List.head?_take] at h
  split at h
  · cases h
  · exact h

/-- A cut behind a run leaves the run. -/
theorem takeWhile_take_of_le {p : Char → Bool} {chars : List Char} {count : Nat}
    (h : runLength p chars ≤ count) : (chars.take count).takeWhile p = chars.takeWhile p := by
  rw [← List.take_takeWhile]
  exact List.take_of_length_le h

/-- What the first two characters of a cut text are, they are of the whole. -/
theorem cons_cons_of_take {α : Type} {list cut : List α} {count : Nat} {x y : α}
    (h : list.take count = x :: y :: cut) : ∃ rest, list = x :: y :: rest := by
  obtain ⟨behind, hsplit⟩ := List.take_prefix count list
  rw [h] at hsplit
  exact ⟨_, hsplit.symm⟩

-- ================================================= names and holes

theorem qualifiedRest_nil (sofar : TokenKind) : qualifiedRest sofar [] = (sofar, 0) := by
  simp [qualifiedRest]

/-- Behind the last segment that was taken there may be a dot; without it the name ends just
the same. -/
theorem qualifiedRest_take (sofar : TokenKind) (chars : List Char) :
    qualifiedRest sofar (chars.take (qualifiedRest sofar chars).2) = qualifiedRest sofar chars := by
  fun_induction qualifiedRest sofar chars with
  | case1 sofar c rest segment hupper kind more heq ih =>
    have hsegment : 1 ≤ segment := runLength_pos (isNameRest_of_isUppercase hupper) rest
    have hrest : (c :: rest).take (segment + more) = c :: rest.take (segment + more - 1) :=
      List.take_cons (by omega)
    have hcut : ('.' :: c :: rest).take (1 + segment + more)
        = '.' :: c :: rest.take (segment + more - 1) := by
      rw [← hrest, Nat.add_assoc, Nat.add_comm 1]
      rfl
    have hrun : runLength isNameRest (c :: rest.take (segment + more - 1)) = segment := by
      rw [← hrest, runLength_take]
      exact Nat.min_eq_right (Nat.le_add_right segment more)
    have hbehind : (c :: rest.take (segment + more - 1)).drop segment
        = ((c :: rest).drop segment).take more := by
      rw [← hrest, List.drop_take, Nat.add_sub_cancel_left]
    rw [heq] at ih
    rw [hcut, qualifiedRest, hrun, if_pos hupper, hbehind, ih]
  | case2 | case4 | case5 => exact qualifiedRest_nil _
  | case3 sofar c rest segment hupper hstart word hfree =>
    have hsegment : 1 ≤ segment := runLength_pos (isNameRest_of_isNameStart hstart) rest
    have hrest : (c :: rest).take segment = c :: rest.take (segment - 1) :=
      List.take_cons hsegment
    have hcut : ('.' :: c :: rest).take (1 + segment) = '.' :: c :: rest.take (segment - 1) := by
      rw [← hrest, Nat.add_comm 1]
      rfl
    have hrun : runLength isNameRest (c :: rest.take (segment - 1)) = segment := by
      rw [← hrest, runLength_take]
      exact Nat.min_self segment
    have hword : (c :: rest.take (segment - 1)).take segment = (c :: rest).take segment := by
      rw [← hrest, List.take_take, Nat.min_self]
    rw [hcut, qualifiedRest, hrun, hword, if_neg hupper, if_pos hstart]
    exact if_neg hfree

/-- The run of a name is all that a name is. -/
theorem name_take (chars : List Char) : name (chars.take (name chars).length) = name chars := by
  fun_cases name chars with
  | case1 word hword =>
    have hcut : (chars.take 1).takeWhile isNameRest = ['_'] := by
      rw [← List.take_takeWhile]
      exact congrArg (List.take 1) hword
    rw [name, hcut, if_pos rfl]
  | case2 word hword =>
    have hcut : (chars.take word.length).takeWhile isNameRest = word :=
      takeWhile_take_of_le (Nat.le_refl word.length)
    rw [name, hcut, if_neg hword]

/-- The first segment is a run, and the rest is cut at its own end. -/
theorem properName_take (chars : List Char) :
    properName (chars.take (properName chars).length) = properName chars := by
  unfold properName
  dsimp only
  rw [runLength_take, Nat.min_eq_right (Nat.le_add_right _ _), List.drop_take,
    Nat.add_sub_cancel_left, qualifiedRest_take]

/-- The run of a hole starts behind its question mark. -/
theorem holeAfter_take (rest : List Char) :
    holeAfter (rest.take ((holeAfter rest).length - 1)) = holeAfter rest := by
  unfold holeAfter
  dsimp only
  rw [Nat.add_sub_cancel_left, runLength_take, Nat.min_self]

-- =========================================================== numbers

/-- A fraction is a point and a run of digits. Where there is none, a cut brings none about. -/
theorem fractionLength_take {chars : List Char} {count : Nat} (h : fractionLength chars ≤ count) :
    fractionLength (chars.take count) = fractionLength chars := by
  fun_cases fractionLength chars with
  | case1 d rest hdigit =>
    rw [fractionLength, if_pos hdigit] at h
    have hpos : 1 ≤ runLength isDigitOrGap (d :: rest) :=
      runLength_pos (by simp [isDigitOrGap, hdigit]) rest
    rw [List.take_cons (by omega), List.take_cons (by omega), fractionLength, if_pos hdigit,
      ← List.take_cons (by omega), runLength_take]
    omega
  | case2 d rest hdigit =>
    rcases count with _ | _ | count
    · rfl
    · rfl
    · show fractionLength ('.' :: d :: rest.take count) = 0
      rw [fractionLength, if_neg hdigit]
  | case3 _ hother =>
    unfold fractionLength
    split
    case h_1 d cut hcut =>
      obtain ⟨rest, hrest⟩ := cons_cons_of_take hcut
      exact absurd hrest (hother d rest)
    case h_2 => rfl

/-- A text that is cut behind its first character starts with the same sign, or with none. -/
theorem sign_take {rest : List Char} {count : Nat} (hpos : 1 ≤ count) :
    ((rest.take count).head? = some '+' ∨ (rest.take count).head? = some '-')
      ↔ (rest.head? = some '+' ∨ rest.head? = some '-') := by
  rw [List.head?_take, if_neg (by omega)]

/-- A sign may stand between the letter and the digits, and the cut is behind both. -/
theorem exponentLength_take {chars : List Char} {count : Nat} (h : exponentLength chars ≤ count) :
    exponentLength (chars.take count) = exponentLength chars := by
  rcases count with _ | count
  · rw [Nat.le_zero.mp h]
    rfl
  fun_cases exponentLength chars with
  | case1 => rfl
  | case2 e rest hletter sign digits hnone =>
    rw [List.take_succ_cons, exponentLength, if_pos hletter]
    rcases count with _ | count
    · rfl
    · simp only [sign_take (Nat.le_add_left 1 count)]
      rw [List.drop_take, runLength_take]
      exact if_pos (by show min _ digits = 0; omega)
  | case3 e rest hletter sign digits hdigits =>
    have hle : 1 + sign + digits ≤ count + 1 := by
      rwa [exponentLength, if_pos hletter, if_neg hdigits] at h
    rw [List.take_succ_cons, exponentLength, if_pos hletter]
    simp only [sign_take (show 1 ≤ count by omega)]
    rw [List.drop_take, runLength_take]
    show (if min (count - sign) digits = 0 then 0 else 1 + sign + min (count - sign) digits) = _
    rw [Nat.min_eq_right (by omega)]
    exact if_neg hdigits
  | case4 e rest hletter =>
    rw [List.take_succ_cons, exponentLength, if_neg hletter]

/-- The parts of a number come in a row, each of them cut off behind all that it takes. -/
theorem number_take (chars : List Char) :
    number (chars.take (number chars).length) = number chars := by
  fun_cases number chars with
  | case1 digits =>
    dsimp only
    rw [List.take_cons (by omega), List.take_cons (by omega), number, runLength_take,
      Nat.min_eq_right (by omega)]
  | case2 _ hother =>
    dsimp only
    generalize hwhole : runLength isDigitOrGap chars = whole
    generalize hfraction : fractionLength (chars.drop whole) = fraction
    generalize hexponent : exponentLength (chars.drop (whole + fraction)) = exponent
    have hcutWhole : runLength isDigitOrGap (chars.take (whole + fraction + exponent)) = whole := by
      rw [runLength_take, hwhole]
      omega
    have hcutFraction : fractionLength ((chars.take (whole + fraction + exponent)).drop whole)
        = fraction := by
      rw [List.drop_take, fractionLength_take (by omega), hfraction]
    have hcutExponent :
        exponentLength ((chars.take (whole + fraction + exponent)).drop (whole + fraction))
          = exponent := by
      rw [List.drop_take, exponentLength_take (by omega), hexponent]
    unfold number
    split
    case h_1 cut hcut =>
      obtain ⟨rest, hrest⟩ := cons_cons_of_take hcut
      exact absurd hrest (hother rest)
    case h_2 =>
      dsimp only
      rw [hcutWhole, hcutFraction, hcutExponent]

-- ========================================== comments and literals

/-- A comment that is closed ends in its closing mark, which the cut leaves in. -/
theorem commentBody_take (chars : List Char) :
    commentBody (chars.take (commentBody chars).1) = commentBody chars := by
  fun_induction commentBody chars with
  | case1 | case2 => rfl
  | case3 c rest hopen length closed heq ih =>
    rw [heq] at ih
    rw [List.take_succ_cons, commentBody, ih]
    intro cut hdash hcut
    obtain ⟨behind, hsplit⟩ := List.take_prefix length rest
    rw [hcut] at hsplit
    exact hopen _ hdash hsplit.symm

theorem commentAfter_take (rest : List Char) :
    commentAfter (rest.take ((commentAfter rest).length - 2)) = commentAfter rest := by
  unfold commentAfter
  dsimp only
  rw [Nat.add_sub_cancel_left, commentBody_take]

/-- Dashes that open a comment run to the end of the line, and other symbols to the end of the
run. -/
theorem operator_take (chars : List Char) :
    operator (chars.take (operator chars).length) = operator chars := by
  fun_cases operator chars with
  | case1 run hdashes =>
    dsimp only
    have hcut : ∀ more, (chars.take (run.length + more)).takeWhile isSymbol = run := fun more =>
      takeWhile_take_of_le (Nat.le_add_right run.length more)
    rw [operator, hcut, if_pos hdashes, List.drop_take, Nat.add_sub_cancel_left, runLength_take,
      Nat.min_self]
  | case2 run hdashes =>
    have hcut : (chars.take run.length).takeWhile isSymbol = run :=
      takeWhile_take_of_le (Nat.le_refl run.length)
    rw [operator, hcut, if_neg hdashes]

/-- The quotes that close a raw string are a run, and the cut leaves all of it. -/
theorem rawBody_take (chars : List Char) :
    rawBody (chars.take (rawBody chars).1) = rawBody chars := by
  fun_induction rawBody chars with
  | case1 => rfl
  | case2 rest =>
    dsimp only
    rw [List.take_cons (by omega), List.take_cons (by omega), List.take_cons (by omega), rawBody,
      runLength_take, Nat.min_eq_right (by omega)]
  | case3 c rest hopen length closed heq ih =>
    rw [heq] at ih
    rw [List.take_succ_cons, rawBody, ih]
    intro cut hquote hcut
    obtain ⟨behind, hrest⟩ := cons_cons_of_take hcut
    exact hopen behind hquote hrest

/-- An escape is one character, or a gap with the backslash behind it if there is one. -/
theorem escapeLength_take {chars : List Char} {count : Nat} (h : escapeLength chars ≤ count) :
    escapeLength (chars.take count) = escapeLength chars := by
  unfold escapeLength at h ⊢
  dsimp only at h ⊢
  rw [runLength_take]
  generalize runLength isBlank chars = gap at h ⊢
  by_cases hgap : gap = 0
  · rw [if_pos hgap] at h ⊢
    rw [if_pos (by omega), List.length_take]
    omega
  · rw [if_neg hgap] at h ⊢
    have hle : gap ≤ count := by
      split at h <;> omega
    rw [Nat.min_eq_right hle, if_neg hgap, List.drop_take]
    by_cases hclosed : (chars.drop gap).head? = some '\\'
    · rw [if_pos hclosed] at h ⊢
      have hcut : ((chars.drop gap).take (count - gap)).head? = some '\\' := by
        rw [List.head?_take, if_neg (by omega), hclosed]
      rw [if_pos hcut]
    · rw [if_neg hclosed, if_neg fun hcut => hclosed (head?_of_head?_take hcut)]

/-- The reading is piece by piece: a closing quote, a line break, a plain character or an escape. -/
theorem stringBody_take (chars : List Char) :
    stringBody (chars.take (stringBody chars).1) = stringBody chars := by
  have hnil : stringBody [] = (0, false) := by rw [stringBody]
  fun_induction stringBody chars with
  | case1 => exact hnil
  | case2 rest =>
    show stringBody ['"'] = (1, true)
    rw [stringBody, if_pos rfl]
  | case3 c rest hquote hbreak => exact hnil
  | case4 c rest hquote hbreak piece length closed heq ih =>
    have hpiece : (if c = '\\' then escapeLength (rest.take (piece + length)) else 0) = piece := by
      by_cases hescape : c = '\\'
      · rw [if_pos hescape, escapeLength_take]
        · exact (if_pos hescape).symm
        · have hle : escapeLength rest = piece := (if_pos hescape).symm
          omega
      · rw [if_neg hescape]
        exact (if_neg hescape).symm
    rw [heq] at ih
    dsimp only at ih ⊢
    rw [List.take_cons (by omega), show 1 + piece + length - 1 = piece + length by omega,
      stringBody, if_neg hquote, if_neg hbreak]
    simp only [hpiece]
    rw [List.drop_take, Nat.add_sub_cancel_left, ih]

/-- A cut makes no raw string of another one: what starts with two more quotes when it is cut
starts with them anyway. -/
theorem stringAfter_take (rest : List Char) :
    stringAfter (rest.take ((stringAfter rest).length - 1)) = stringAfter rest := by
  fun_cases stringAfter rest with
  | case1 raw length closed heq =>
    have hraw := rawBody_take raw
    rw [heq] at hraw
    show stringAfter (('"' :: '"' :: raw).take (3 + length - 1)) = _
    rw [List.take_cons (by omega), List.take_cons (by omega),
      show 3 + length - 1 - 1 - 1 = length by omega, stringAfter]
    simp only [hraw]
  | case2 =>
    rename_i hother
    dsimp only
    rw [Nat.add_sub_cancel_left]
    unfold stringAfter
    split
    case h_1 cut hcut =>
      obtain ⟨raw, hraw⟩ := cons_cons_of_take hcut
      exact absurd hraw (hother raw)
    case h_2 => rw [stringBody_take]

/-- The content is one character, or a backslash and the run behind it. -/
theorem charContent_take {chars : List Char} {count : Nat} (h : charContent chars ≤ count) :
    charContent (chars.take count) = charContent chars := by
  rcases count with _ | count
  · rw [Nat.le_zero.mp h]
    rfl
  fun_cases charContent chars with
  | case1 => rfl
  | case2 rest =>
    have hle : 1 + min 1 rest.length + runLength (fun c => c != '\'' && !isBlank c) (rest.drop 1)
        ≤ count + 1 := h
    have hrun := runLength_drop_le (fun c => c != '\'' && !isBlank c) rest 1
    rw [List.take_succ_cons, charContent, if_pos rfl, List.length_take, List.drop_take,
      runLength_take]
    omega
  | case3 c rest hne hstop => rw [List.take_succ_cons, charContent, if_neg hne, if_pos hstop]
  | case4 c rest hne hstop => rw [List.take_succ_cons, charContent, if_neg hne, if_neg hstop]

/-- A literal that misses its closing quote ends with its content, and the cut brings no quote
about. -/
theorem charAfter_take (rest : List Char) :
    charAfter (rest.take ((charAfter rest).length - 1)) = charAfter rest := by
  fun_cases charAfter rest with
  | case1 content hclosed =>
    show charAfter (rest.take (content + 1)) = _
    have hcontent : charContent (rest.take (content + 1)) = content :=
      charContent_take (Nat.le_succ content)
    have hquote : ((rest.take (content + 1)).drop content).head? = some '\'' := by
      rw [List.drop_take, List.head?_take, if_neg (by omega), hclosed.2]
    rw [charAfter, hcontent, if_pos ⟨hclosed.1, hquote⟩]
  | case2 content hopen =>
    show charAfter (rest.take content) = _
    have hcontent : charContent (rest.take content) = content := charContent_take (Nat.le_refl _)
    have hend : ((rest.take content).drop content).head? = none := by
      rw [List.drop_take, Nat.sub_self]
      rfl
    rw [charAfter, hcontent, hend]
    apply if_neg
    rintro ⟨_, ⟨⟩⟩

-- ==================================================== the first token

/-- What starts a hole with some of what follows does with all of it. -/
theorem startsHole_of_take {c : Char} {rest : List Char} {count : Nat}
    (h : startsHole c (rest.take count) = true) : startsHole c rest = true := by
  unfold startsHole at h ⊢
  rw [List.head?_take] at h
  split at h
  · rw [Option.any_none, Bool.and_false] at h
    cases h
  · exact h

/-- A hole has a name. -/
theorem holeName_pos {c : Char} {rest : List Char} (h : startsHole c rest = true) :
    1 ≤ runLength isNameRest rest := by
  rcases rest with _ | ⟨next, rest⟩
  · simp [startsHole] at h
  · apply runLength_pos
    simp only [startsHole, List.head?_cons, Option.any_some, Bool.and_eq_true, Bool.or_eq_true] at h
    rcases h.2 with hsmall | hline
    · simp [isNameRest, isAlphanumeric, isAlphabetic_of_isLowercase hsmall]
    · simp [isNameRest, hline]

/-- The first token of a text is the first of its own characters. -/
theorem first_take (c : Char) (rest : List Char) :
    first c (rest.take ((first c rest).length - 1)) = first c rest := by
  -- what was not a comment or a hole with all that follows is none without
  have hdash : ∀ {count : Nat}, ¬(c = '{' ∧ rest.head? = some '-') →
      ¬(c = '{' ∧ (rest.take count).head? = some '-') := fun hno hcut =>
    hno ⟨hcut.1, head?_of_head?_take hcut.2⟩
  have hnoHole : ∀ {count : Nat}, ¬startsHole c rest = true →
      ¬startsHole c (rest.take count) = true := fun hno hcut => hno (startsHole_of_take hcut)
  fun_cases first c rest with
  | case1 hbreak =>
    unfold first
    rw [if_pos hbreak]
    dsimp only
    by_cases hpair : c = '\r' ∧ rest.head? = some '\n'
    · have hfeed : (rest.take 1).head? = some '\n' := by
        rw [List.head?_take, if_neg Nat.one_ne_zero, hpair.2]
      rw [if_pos hpair]
      exact congrArg (Lexeme.mk .newline · none) (if_pos ⟨hpair.1, hfeed⟩)
    · rw [if_neg hpair, if_neg fun hcut => hpair ⟨hcut.1, head?_of_head?_take hcut.2⟩]
  | case2 hbreak hblank =>
    have hpos : 1 ≤ runLength isInlineBlank (c :: rest) :=
      runLength_pos (by simp [isInlineBlank, hblank, hbreak]) rest
    rw [first, if_neg hbreak, if_pos hblank, ← List.take_cons hpos, runLength_take, Nat.min_self]
  | case3 hbreak hblank hcomment =>
    obtain ⟨rfl, hopen⟩ := hcomment
    obtain ⟨body, rfl⟩ : ∃ body, rest = '-' :: body := List.head?_eq_some_iff.mp hopen
    have hlength : 2 ≤ (commentAfter body).length := Nat.le_add_right 2 _
    show first '{' (('-' :: body).take ((commentAfter body).length - 1)) = commentAfter body
    rw [List.take_cons (by omega), Nat.sub_sub]
    show commentAfter (body.take ((commentAfter body).length - 2)) = _
    exact commentAfter_take body
  | case4 hbreak hblank hcomment kind hsingle =>
    rw [first, if_neg hbreak, if_neg hblank, if_neg (hdash hcomment), hsingle]
  | case5 hbreak hblank hcomment hsingle hstring =>
    simp only [first, if_neg hbreak, if_neg hblank, if_neg (hdash hcomment), hsingle,
      if_pos hstring, stringAfter_take]
  | case6 hbreak hblank hcomment hsingle hstring hchar =>
    simp only [first, if_neg hbreak, if_neg hblank, if_neg (hdash hcomment), hsingle,
      if_neg hstring, if_pos hchar, charAfter_take]
  | case7 hbreak hblank hcomment hsingle hstring hchar hdigit =>
    have hpos := (number_fits (runLength_pos (show isDigitOrGap c = true by
      simp [isDigitOrGap, hdigit]) rest)).1
    simp only [first, if_neg hbreak, if_neg hblank, if_neg (hdash hcomment), hsingle,
      if_neg hstring, if_neg hchar, if_pos hdigit, ← List.take_cons hpos, number_take]
  | case8 hbreak hblank hcomment hsingle hstring hchar hdigit hhole =>
    have hpos := holeName_pos hhole
    have hcut : startsHole c (rest.take ((holeAfter rest).length - 1)) = true := by
      rw [startsHole, List.head?_take, if_neg (by rw [holeAfter]; dsimp only; omega)]
      exact hhole
    simp only [first, if_neg hbreak, if_neg hblank, if_neg (hdash hcomment), hsingle,
      if_neg hstring, if_neg hchar, if_neg hdigit, if_pos hcut, holeAfter_take]
  | case9 hbreak hblank hcomment hsingle hstring hchar hdigit hhole hupper =>
    have hpos := (properName_fits hupper rest).1
    simp only [first, if_neg hbreak, if_neg hblank, if_neg (hdash hcomment), hsingle,
      if_neg hstring, if_neg hchar, if_neg hdigit, if_neg (hnoHole hhole), if_pos hupper,
      ← List.take_cons hpos, properName_take]
  | case10 hbreak hblank hcomment hsingle hstring hchar hdigit hhole hupper hstart =>
    have hpos := (name_fits hstart rest).1
    simp only [first, if_neg hbreak, if_neg hblank, if_neg (hdash hcomment), hsingle,
      if_neg hstring, if_neg hchar, if_neg hdigit, if_neg (hnoHole hhole), if_neg hupper,
      if_pos hstart, ← List.take_cons hpos, name_take]
  | case11 hbreak hblank hcomment hsingle hstring hchar hdigit hhole hupper hstart hsymbol =>
    have hpos := (operator_fits hsymbol rest).1
    simp only [first, if_neg hbreak, if_neg hblank, if_neg (hdash hcomment), hsingle,
      if_neg hstring, if_neg hchar, if_neg hdigit, if_neg (hnoHole hhole), if_neg hupper,
      if_neg hstart, if_pos hsymbol, ← List.take_cons hpos, operator_take]
  | case12 hbreak hblank hcomment hsingle hstring hchar hdigit hhole hupper hstart hsymbol =>
    simp only [first, if_neg hbreak, if_neg hblank, if_neg (hdash hcomment), hsingle,
      if_neg hstring, if_neg hchar, if_neg hdigit, if_neg (hnoHole hhole), if_neg hupper,
      if_neg hstart, if_neg hsymbol]

end Offside.Lexeme
