import Offside.Token.Lexeme

/-!
The first token of a text has at least one character, and none past the end.

Every arm of the reader measures its token by runs of characters, so each
bound comes from the bound on a run (`runLength_le`). That an arm takes at
least one character follows from the test that selected the arm: the first
character satisfies the predicate of the run. For proper names this needs
that a capital can go on a name, thus that capitals are alphanumeric.

`first_fits` is what the reader of whole texts builds on.
-/

namespace Offside.Lexeme

open Text

-- ================================================== runs of characters

theorem runLength_le (p : Char → Bool) (chars : List Char) : runLength p chars ≤ chars.length :=
  (List.takeWhile_sublist p).length_le

theorem runLength_pos {p : Char → Bool} {c : Char} (h : p c = true) (rest : List Char) :
    1 ≤ runLength p (c :: rest) := by
  unfold runLength
  rw [List.takeWhile_cons_of_pos h, List.length_cons]
  omega

theorem runLength_drop_le (p : Char → Bool) (chars : List Char) (count : Nat) :
    runLength p (chars.drop count) ≤ chars.length - count := by
  have h := runLength_le p (chars.drop count)
  rwa [List.length_drop] at h

/-- A character that stands after the first `count` is one of the characters. -/
theorem lt_length_of_head?_drop {chars : List Char} {count : Nat} {c : Char}
    (h : (chars.drop count).head? = some c) : count < chars.length := by
  rw [List.head?_drop] at h
  exact (List.getElem?_eq_some_iff.mp h).1

-- ===================================================== names

theorem isNameRest_of_isNameStart {c : Char} (h : isNameStart c = true) :
    isNameRest c = true := by
  simp only [isNameStart, Bool.or_eq_true] at h
  rcases h with h | h
  · simp [isNameRest, isAlphanumeric, h]
  · simp [isNameRest, h]

theorem isNameRest_of_isUppercase {c : Char} (h : isUppercase c = true) :
    isNameRest c = true := by
  simp [isNameRest, isAlphanumeric_of_isUppercase h]

/-- Every segment is behind a dot that is there, so the segments stay inside the text. -/
theorem qualifiedRest_le (sofar : TokenKind) (chars : List Char) :
    (qualifiedRest sofar chars).2 ≤ chars.length := by
  fun_induction qualifiedRest sofar chars with
  | case1 sofar c rest segment hupper kind more heq ih =>
    have hsegment := runLength_le isNameRest (c :: rest)
    rw [heq, List.length_drop] at ih
    simp only [List.length_cons] at *
    omega
  | case2 sofar c rest segment => simp
  | case3 sofar c rest segment =>
    have hsegment := runLength_le isNameRest (c :: rest)
    simp only [List.length_cons] at *
    omega
  | case4 => simp
  | case5 => simp

-- =========================================================== numbers

/-- A fraction has its point inside the text, and its digits behind that. -/
theorem fractionLength_le (chars : List Char) : fractionLength chars ≤ chars.length := by
  fun_cases fractionLength chars with
  | case1 d rest hdigit =>
    have h := runLength_le isDigitOrGap (d :: rest)
    simp only [List.length_cons] at *
    omega
  | case2 => simp
  | case3 => simp

/-- An exponent has its letter inside the text, and a sign and digits behind that. -/
theorem exponentLength_le (chars : List Char) : exponentLength chars ≤ chars.length := by
  fun_cases exponentLength chars with
  | case1 => simp
  | case2 => simp
  | case3 e rest hletter sign digits hdigits =>
    have h := runLength_drop_le Char.isDigit rest sign
    rw [List.length_cons]
    omega
  | case4 => simp

-- ========================================== comments and literals

/-- A comment is read character by character, up to its mark or the end. -/
theorem commentBody_le (chars : List Char) : (commentBody chars).1 ≤ chars.length := by
  fun_induction commentBody chars with
  | case1 => simp
  | case2 => simp
  | case3 c rest hne length closed heq ih =>
    rw [heq] at ih
    simpa using ih

/-- A raw string is read character by character, up to its quotes or the end. -/
theorem rawBody_le (chars : List Char) : (rawBody chars).1 ≤ chars.length := by
  fun_induction rawBody chars with
  | case1 => simp
  | case2 rest =>
    have h := runLength_le (· == '"') rest
    simp only [List.length_cons]
    omega
  | case3 c rest hne length closed heq ih =>
    rw [heq] at ih
    simpa using ih

/-- A gap that is closed has its backslash inside the text. -/
theorem escapeLength_le (chars : List Char) : escapeLength chars ≤ chars.length := by
  have hgap := runLength_le isBlank chars
  fun_cases escapeLength chars with
  | case1 => omega
  | case2 gap hne hclosed =>
    exact lt_length_of_head?_drop hclosed
  | case3 => exact hgap

/-- Each piece of a string is inside the text, and so is what follows it. -/
theorem stringBody_le (chars : List Char) : (stringBody chars).1 ≤ chars.length := by
  fun_induction stringBody chars with
  | case1 => simp
  | case2 => simp
  | case3 => simp
  | case4 c rest hquote hbreak piece length closed heq ih =>
    have hpiece : piece ≤ rest.length := by
      unfold piece
      split
      · exact escapeLength_le rest
      · omega
    rw [heq, List.length_drop] at ih
    simp only [List.length_cons]
    omega

/-- What is behind a backslash is inside the text if anything is. -/
theorem charContent_le (chars : List Char) : charContent chars ≤ chars.length := by
  fun_cases charContent chars with
  | case1 => simp
  | case2 rest =>
    have h := runLength_drop_le (fun c => c != '\'' && !isBlank c) rest 1
    rw [List.length_cons]
    omega
  | case3 => simp
  | case4 => simp

-- ==================================================== the first token

/-- The lexeme has at least one character, and all of them are among `chars`. -/
def Fits (lexeme : Lexeme) (chars : List Char) : Prop :=
  1 ≤ lexeme.length ∧ lexeme.length ≤ chars.length

/-- The first character belongs to the run of the name. -/
theorem name_fits {c : Char} (h : isNameStart c = true) (rest : List Char) :
    (name (c :: rest)).Fits (c :: rest) := by
  have hpos := runLength_pos (isNameRest_of_isNameStart h) rest
  have hle := runLength_le isNameRest (c :: rest)
  fun_cases name (c :: rest) with
  | case1 => exact ⟨Nat.le_refl 1, Nat.le_add_left 1 rest.length⟩
  | case2 => exact ⟨hpos, hle⟩

/-- The first character belongs to the run of the first segment, and further segments only add
to it. -/
theorem properName_fits {c : Char} (h : isUppercase c = true) (rest : List Char) :
    (properName (c :: rest)).Fits (c :: rest) := by
  have hpos := runLength_pos (isNameRest_of_isUppercase h) rest
  have hle := runLength_le isNameRest (c :: rest)
  have hmore := qualifiedRest_le .upper ((c :: rest).drop (runLength isNameRest (c :: rest)))
  rw [List.length_drop] at hmore
  constructor
  · show 1 ≤ runLength isNameRest (c :: rest) + _
    omega
  · show runLength isNameRest (c :: rest) + _ ≤ (c :: rest).length
    omega

theorem holeAfter_fits (c : Char) (rest : List Char) : (holeAfter rest).Fits (c :: rest) := by
  have hle := runLength_le isNameRest rest
  constructor
  · exact Nat.le_add_right 1 _
  · show 1 + runLength isNameRest rest ≤ rest.length + 1
    omega

/-- The digits that select the arm are among the characters taken. -/
theorem number_fits {chars : List Char} (h : 1 ≤ runLength isDigitOrGap chars) :
    (number chars).Fits chars := by
  fun_cases number chars with
  | case1 digits =>
    have hle := runLength_le isHexDigit digits
    constructor
    · show 1 ≤ 2 + _
      omega
    · show 2 + runLength isHexDigit digits ≤ digits.length + 2
      omega
  | case2 =>
    have hwhole := runLength_le isDigitOrGap chars
    have hfraction := fractionLength_le (chars.drop (runLength isDigitOrGap chars))
    have hexponent := exponentLength_le (chars.drop (runLength isDigitOrGap chars
      + fractionLength (chars.drop (runLength isDigitOrGap chars))))
    rw [List.length_drop] at hfraction hexponent
    constructor
    · show 1 ≤ runLength isDigitOrGap chars + _ + _
      omega
    · show runLength isDigitOrGap chars + fractionLength _ + exponentLength _ ≤ chars.length
      omega

/-- The dashes that select the arm are two characters of the text. -/
theorem commentAfter_fits {c : Char} {rest : List Char} (h : rest.head? = some '-') :
    (commentAfter rest.tail).Fits (c :: rest) := by
  have hbody := commentBody_le rest.tail
  have hrest : rest.length = rest.tail.length + 1 := by
    cases rest with
    | nil => cases h
    | cons d rest => rfl
  constructor
  · show 1 ≤ 2 + (commentBody rest.tail).1
    omega
  · show 2 + (commentBody rest.tail).1 ≤ rest.length + 1
    omega

/-- The first character belongs to the run of symbols. -/
theorem operator_fits {c : Char} (h : isSymbol c = true) (rest : List Char) :
    (operator (c :: rest)).Fits (c :: rest) := by
  have hpos := runLength_pos h rest
  have hle := runLength_le isSymbol (c :: rest)
  fun_cases operator (c :: rest) with
  | case1 run hdashes =>
    have hline := runLength_drop_le (fun c => !isLineBreak c) (c :: rest) run.length
    constructor
    · show 1 ≤ runLength isSymbol (c :: rest) + _
      omega
    · show run.length + runLength (fun c => !isLineBreak c) ((c :: rest).drop run.length) ≤ _
      have hrun : run.length ≤ (c :: rest).length := hle
      omega
  | case2 => exact ⟨hpos, hle⟩

/-- The opening quotes are one or three characters of the text, and the body is behind them. -/
theorem stringAfter_fits (c : Char) (rest : List Char) :
    (stringAfter rest).Fits (c :: rest) := by
  have hbody := stringBody_le rest
  fun_cases stringAfter rest with
  | case1 raw length closed heq =>
    have hraw := rawBody_le raw
    rw [heq] at hraw
    constructor
    · show 1 ≤ 3 + length
      omega
    · show 3 + length ≤ raw.length + 3
      omega
  | case2 =>
    constructor
    · show 1 ≤ 1 + (stringBody rest).1
      omega
    · show 1 + (stringBody rest).1 ≤ rest.length + 1
      omega

/-- The opening quote is a character, and the closing one is there if it is taken. -/
theorem charAfter_fits (c : Char) (rest : List Char) : (charAfter rest).Fits (c :: rest) := by
  have hcontent := charContent_le rest
  fun_cases charAfter rest with
  | case1 content hclosed =>
    have hquote := lt_length_of_head?_drop hclosed.2
    constructor
    · show 1 ≤ content + 2
      omega
    · show content + 2 ≤ rest.length + 1
      omega
  | case2 content hopen =>
    constructor
    · exact Nat.le_add_left 1 content
    · exact Nat.add_le_add_right hcontent 1

/-- The first token of a text is not empty and does not reach past its end. -/
theorem first_fits (c : Char) (rest : List Char) : (first c rest).Fits (c :: rest) := by
  have hone : 1 ≤ (c :: rest).length := Nat.le_add_left 1 rest.length
  fun_cases first c rest with
  | case1 hbreak =>
    by_cases hpair : c = '\r' ∧ rest.head? = some '\n'
    · cases rest with
      | nil => cases hpair.2
      | cons d rest => simp [Fits, hpair]
    · simp [Fits, hpair]
  | case2 hbreak hblank =>
    exact ⟨runLength_pos (by simp [isInlineBlank, hblank, hbreak]) rest, runLength_le _ _⟩
  | case3 hbreak hblank hcomment => exact commentAfter_fits hcomment.2
  | case4 hbreak hblank hcomment kind hsingle => exact ⟨Nat.le_refl 1, hone⟩
  | case5 => exact stringAfter_fits _ rest
  | case6 => exact charAfter_fits _ rest
  | case7 _ _ _ _ _ _ hdigit =>
    exact number_fits (runLength_pos (by simp [isDigitOrGap, hdigit]) rest)
  | case8 => exact holeAfter_fits c rest
  | case9 _ _ _ _ _ _ _ _ hupper => exact properName_fits hupper rest
  | case10 _ _ _ _ _ _ _ _ _ hstart => exact name_fits hstart rest
  | case11 _ _ _ _ _ _ _ _ _ _ hsymbol => exact operator_fits hsymbol rest
  | case12 => exact ⟨Nat.le_refl 1, hone⟩

end Offside.Lexeme
