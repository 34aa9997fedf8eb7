import Offside.Proofs.Token.Alone
import Offside.Proofs.Token.Written

/-!
Which texts are strings.

A string holds pieces between its quotes: characters that stand for themselves, escapes of one
character, and gaps of blanks between two backslashes (`Lexeme.IsPiece`). The reader goes on as
well where no backslash closes a gap, so what it takes for the body of a string is pieces and
open gaps (`Lexeme.IsBody`), and a text without an open gap is one that holds pieces alone.

# Both directions

Whatever the reader takes for a closed body has a derivation (`isBody_of_closed`), by induction
on the reading. Whatever has a derivation is read to its closing quote (`stringBody_of_isBody`),
by induction on the derivation; an open gap has no backslash and no blank behind it, so that
the reader sees the same gap. The raw strings go the same way, with the first three quotes in a
row as the end of the body (`holdsNone_of_closed`, `rawBody_of_holdsNone`).

A body has one number of open gaps, as counting them along the reading shows
(`countOpen_of_isBody`), and a raw string one number of further quotes, as no body reaches
behind the first three in a row (`HoldsNone.length_le`).

A token is flawless just if its body is closed, and it has the kind of a string only if it
starts with a quote (`eq_stringAfter_of_isText`), which makes statements on tokens out of those
on bodies (`stringAfter_string`, `stringAfter_rawString`).
-/

namespace Offside

open Text

namespace Lexeme

-- ============================================== what strings are made of

/-- One piece of a string: a character that stands for itself, an escape, or a gap. Only a
gap can hold line breaks. -/
inductive IsPiece : List Char → Prop
  | plain {c : Char} (hquote : c ≠ '"') (hslash : c ≠ '\\') (hbreak : isLineBreak c = false) :
      IsPiece [c]
  | escape {c : Char} (hblank : isBlank c = false) : IsPiece ['\\', c]
  | gap {blanks : List Char} (hsome : blanks ≠ []) (hblank : ∀ c ∈ blanks, isBlank c = true) :
      IsPiece ('\\' :: (blanks ++ ['\\']))

theorem IsPiece.ne_nil {piece : List Char} (h : IsPiece piece) : piece ≠ [] := by
  cases h <;> exact List.cons_ne_nil _ _

/-- Pieces in a row, among them a number of gaps that no backslash closes. -/
inductive IsBody : (openGaps : Nat) → List Char → Prop
  | nil : IsBody 0 []
  | piece {openGaps : Nat} {piece rest : List Char} (hpiece : IsPiece piece)
      (hrest : IsBody openGaps rest) : IsBody openGaps (piece ++ rest)
  | openGap {openGaps : Nat} {blanks rest : List Char} (hsome : blanks ≠ [])
      (hblank : ∀ c ∈ blanks, isBlank c = true)
      (hopen : ∀ c ∈ rest.head?, c ≠ '\\' ∧ isBlank c = false) (hrest : IsBody openGaps rest) :
      IsBody (openGaps + 1) ('\\' :: (blanks ++ rest))

/-- A text that is a string: a body between two quotes. -/
def IsString (openGaps : Nat) (text : List Char) : Prop :=
  ∃ body, IsBody openGaps body ∧ text = '"' :: (body ++ ['"'])

/-- Quotes in a row. -/
def quotes (count : Nat) : List Char := List.replicate count '"'

/-- No three quotes in a row start in the body, also if they reach into those behind it. -/
def HoldsNone (body : List Char) : Prop :=
  ∀ before < body.length, ¬quotes 3 <+: (body ++ quotes 3).drop before

/-- A text that is a raw string: a body between three quotes and the next three, with some
further quotes behind these. -/
def IsRawString (further : Nat) (text : List Char) : Prop :=
  ∃ body, HoldsNone body ∧ text = quotes 3 ++ body ++ quotes (3 + further)

-- ========================================================= escapes

/-- A front on which the predicate holds is taken as a whole if the rest does not go on with it. -/
theorem takeWhile_append {p : Char → Bool} {front rest : List Char}
    (hfront : ∀ c ∈ front, p c = true) (hrest : ∀ c ∈ rest.head?, p c = false) :
    (front ++ rest).takeWhile p = front := by
  rw [List.takeWhile_append_of_pos hfront]
  cases rest with
  | nil => simp
  | cons c rest => simp [hrest c rfl]

/-- What is left behind a run does not go on with it. -/
theorem head?_dropWhile (p : Char → Bool) (chars : List Char) :
    ∀ c ∈ (chars.dropWhile p).head?, p c = false := by
  intro c hc
  have hstop := List.head?_dropWhile_not p chars
  rw [hc] at hstop
  exact hstop

theorem isBlank_slash : isBlank '\\' = false := by decide

theorem escapeLength_escape {c : Char} (h : isBlank c = false) (rest : List Char) :
    escapeLength (c :: rest) = 1 := by
  simp [escapeLength, runLength, h]

theorem runLength_blanks {blanks rest : List Char} (hblank : ∀ c ∈ blanks, isBlank c = true)
    (hrest : ∀ c ∈ rest.head?, isBlank c = false) :
    runLength isBlank (blanks ++ rest) = blanks.length := by
  unfold runLength
  rw [takeWhile_append hblank hrest]

/-- Blanks are passed up to a character that is none, and a backslash is taken along. -/
theorem escapeLength_blanks {blanks rest : List Char} (hsome : blanks ≠ [])
    (hblank : ∀ c ∈ blanks, isBlank c = true) (hrest : ∀ c ∈ rest.head?, isBlank c = false) :
    escapeLength (blanks ++ rest)
      = if rest.head? = some '\\' then blanks.length + 1 else blanks.length := by
  have hpos : blanks.length ≠ 0 := by simpa using hsome
  simp [escapeLength, runLength_blanks hblank hrest, hpos]

/-- What can stand behind a backslash. -/
theorem escape_cases (rest : List Char) :
    rest = []
      ∨ (∃ c more, rest = c :: more ∧ isBlank c = false)
      ∨ ∃ blanks more, rest = blanks ++ more ∧ blanks ≠ [] ∧ (∀ c ∈ blanks, isBlank c = true)
        ∧ ∀ c ∈ more.head?, isBlank c = false := by
  cases rest with
  | nil => exact .inl rfl
  | cons c more =>
    by_cases hblank : isBlank c = true
    · refine .inr (.inr ⟨(c :: more).takeWhile isBlank, (c :: more).dropWhile isBlank,
        List.takeWhile_append_dropWhile.symm, ?_, fun d hmem => ?_, head?_dropWhile _ _⟩)
      · simp [hblank]
      · exact List.all_eq_true.mp List.all_takeWhile d hmem
    · exact .inr (.inl ⟨c, more, rfl, by simpa using hblank⟩)

-- ================================================= bodies of strings

/-- A plain character is one piece, and the reading goes on behind it. -/
theorem stringBody_plain {c : Char} (hquote : c ≠ '"') (hslash : c ≠ '\\')
    (hbreak : isLineBreak c = false) (rest : List Char) :
    stringBody (c :: rest) = (1 + (stringBody rest).1, (stringBody rest).2) := by
  rw [stringBody, if_neg hquote, if_neg (by simp [hbreak])]
  simp [hslash]

theorem stringBody_slash (rest : List Char) :
    stringBody ('\\' :: rest)
      = (1 + escapeLength rest + (stringBody (rest.drop (escapeLength rest))).1,
        (stringBody (rest.drop (escapeLength rest))).2) := by
  rw [stringBody, if_neg (by decide), if_neg (by decide)]
  simp

/-- A piece is read, and then what follows it. -/
theorem stringBody_piece {piece : List Char} (h : IsPiece piece) (rest : List Char) :
    stringBody (piece ++ rest) = (piece.length + (stringBody rest).1, (stringBody rest).2) := by
  cases h with
  | plain hquote hslash hbreak => exact stringBody_plain hquote hslash hbreak rest
  | escape hblank =>
    show stringBody ('\\' :: _ :: rest) = _
    rw [stringBody_slash, escapeLength_escape hblank]
    rfl
  | @gap blanks hsome hblank =>
    have hlength : escapeLength (blanks ++ '\\' :: rest) = blanks.length + 1 := by
      rw [escapeLength_blanks hsome hblank (by simp [isBlank_slash])]
      simp
    have hdrop : (blanks ++ '\\' :: rest).drop (blanks.length + 1) = rest := by simp
    rw [List.cons_append, List.append_assoc, List.singleton_append, stringBody_slash, hlength,
      hdrop]
    simp [Nat.add_comm]

/-- So is a gap that no backslash closes. -/
theorem stringBody_openGap {blanks rest : List Char} (hsome : blanks ≠ [])
    (hblank : ∀ c ∈ blanks, isBlank c = true)
    (hopen : ∀ c ∈ rest.head?, c ≠ '\\' ∧ isBlank c = false) :
    stringBody ('\\' :: (blanks ++ rest))
      = (1 + blanks.length + (stringBody rest).1, (stringBody rest).2) := by
  have hnone : rest.head? ≠ some '\\' := fun hslash => (hopen _ hslash).1 rfl
  have hlength : escapeLength (blanks ++ rest) = blanks.length := by
    rw [escapeLength_blanks hsome hblank fun c hc => (hopen c hc).2, if_neg hnone]
  rw [stringBody_slash, hlength, List.drop_left]

/-- What is derived is read up to the quote behind it. -/
theorem stringBody_of_isBody {openGaps : Nat} {body : List Char} (h : IsBody openGaps body)
    (behind : List Char) :
    stringBody (body ++ '"' :: behind) = (body.length + 1, true) := by
  induction h with
  | nil => rw [List.nil_append, stringBody, if_pos rfl, List.length_nil]
  | piece hpiece _ ih =>
    rw [List.append_assoc, stringBody_piece hpiece, ih, List.length_append, Nat.add_assoc]
  | @openGap _ blanks rest hsome hblank hopen _ ih =>
    have hbehind : ∀ c ∈ (rest ++ '"' :: behind).head?, c ≠ '\\' ∧ isBlank c = false := by
      cases rest with
      | nil =>
        intro c hc
        obtain rfl : '"' = c := Option.some.inj hc
        decide
      | cons => exact hopen
    rw [List.cons_append, List.append_assoc, stringBody_openGap hsome hblank hbehind, ih]
    simp only [List.length_cons, List.length_append, Prod.mk.injEq, and_true]
    omega

/-- What a body that is read to a closing quote starts with. -/
theorem closed_cases {chars : List Char} (h : (stringBody chars).2 = true) :
    (∃ behind, chars = '"' :: behind)
      ∨ (∃ piece rest, IsPiece piece ∧ chars = piece ++ rest)
      ∨ ∃ blanks rest, blanks ≠ [] ∧ (∀ c ∈ blanks, isBlank c = true)
        ∧ (∀ c ∈ rest.head?, c ≠ '\\' ∧ isBlank c = false) ∧ chars = '\\' :: (blanks ++ rest) := by
  cases chars with
  | nil =>
    rw [stringBody] at h
    cases h
  | cons c rest =>
    by_cases hquote : c = '"'
    · exact .inl ⟨rest, by rw [hquote]⟩
    by_cases hbreak : isLineBreak c = true
    · rw [stringBody, if_neg hquote, if_pos hbreak] at h
      cases h
    by_cases hslash : c = '\\'
    · subst hslash
      rcases escape_cases rest with rfl | ⟨c, more, rfl, hblank⟩
        | ⟨blanks, more, rfl, hsome, hblank, hmore⟩
      · rw [stringBody_slash, List.drop_nil, stringBody] at h
        cases h
      · exact .inr (.inl ⟨['\\', c], more, .escape hblank, rfl⟩)
      · by_cases hclosed : more.head? = some '\\'
        · obtain ⟨rest, rfl⟩ := List.head?_eq_some_iff.mp hclosed
          exact .inr (.inl ⟨'\\' :: (blanks ++ ['\\']), rest, .gap hsome hblank, by simp⟩)
        · have hopen : ∀ c ∈ more.head?, c ≠ '\\' ∧ isBlank c = false := fun c hc =>
            ⟨fun heq => hclosed (heq ▸ hc), hmore c hc⟩
          exact .inr (.inr ⟨blanks, more, hsome, hblank, hopen, rfl⟩)
    · exact .inr (.inl ⟨[c], rest, .plain hquote hslash (by simpa using hbreak), rfl⟩)

/-- What is read to a closing quote has a derivation. -/
theorem isBody_of_closed (chars : List Char) (h : (stringBody chars).2 = true) :
    ∃ openGaps body behind, IsBody openGaps body ∧ chars = body ++ '"' :: behind := by
  induction hlength : chars.length using Nat.strongRecOn generalizing chars with
  | ind length ih =>
    subst hlength
    rcases closed_cases h with ⟨behind, rfl⟩ | ⟨piece, rest, hpiece, rfl⟩
      | ⟨blanks, rest, hsome, hblank, hopen, rfl⟩
    · exact ⟨0, [], behind, .nil, rfl⟩
    · have hless : rest.length < (piece ++ rest).length := by
        have hpos := List.length_pos_iff.mpr hpiece.ne_nil
        rw [List.length_append]
        omega
      rw [stringBody_piece hpiece] at h
      obtain ⟨openGaps, body, behind, hbody, rfl⟩ := ih _ hless rest h rfl
      exact ⟨openGaps, piece ++ body, behind, .piece hpiece hbody, (List.append_assoc ..).symm⟩
    · have hless : rest.length < ('\\' :: (blanks ++ rest)).length := by
        rw [List.length_cons, List.length_append]
        omega
      rw [stringBody_openGap hsome hblank hopen] at h
      obtain ⟨openGaps, body, behind, hbody, rfl⟩ := ih _ hless rest h rfl
      refine ⟨openGaps + 1, _, behind, .openGap hsome hblank (fun c hc => ?_) hbody, by simp⟩
      apply hopen
      rw [List.head?_append_of_ne_nil _ (by rintro rfl; cases hc)]
      exact hc

-- ============================================= gaps that stay open

/-- The characters behind a backslash are a gap that no other backslash closes. -/
def leavesOpen (chars : List Char) : Bool :=
  runLength isBlank chars != 0 && (chars.drop (runLength isBlank chars)).head? != some '\\'

/-- The gaps of a body that stay open, counted. -/
def countOpen (chars : List Char) : Nat :=
  match chars with
  | [] => 0
  | c :: rest =>
    if c = '\\' then (leavesOpen rest).toNat + countOpen (rest.drop (escapeLength rest))
    else countOpen rest
termination_by chars.length
decreasing_by
  all_goals
    simp only [List.length_drop, List.length_cons]
    omega

/-- Blanks behind a backslash leave a gap open unless a backslash closes it. -/
theorem leavesOpen_blanks {blanks rest : List Char} (hsome : blanks ≠ [])
    (hblank : ∀ c ∈ blanks, isBlank c = true) (hrest : ∀ c ∈ rest.head?, isBlank c = false) :
    leavesOpen (blanks ++ rest) = (rest.head? != some '\\') := by
  have hpos : blanks.length ≠ 0 := by simpa using hsome
  simp [leavesOpen, runLength_blanks hblank hrest, hpos]

theorem countOpen_slash (rest : List Char) :
    countOpen ('\\' :: rest)
      = (leavesOpen rest).toNat + countOpen (rest.drop (escapeLength rest)) := by
  rw [countOpen, if_pos rfl]

/-- No piece leaves a gap open. -/
theorem countOpen_piece {piece : List Char} (h : IsPiece piece) (rest : List Char) :
    countOpen (piece ++ rest) = countOpen rest := by
  cases h with
  | plain hquote hslash hbreak => rw [List.singleton_append, countOpen, if_neg hslash]
  | @escape c hblank =>
    have hclosed : leavesOpen (c :: rest) = false := by simp [leavesOpen, runLength, hblank]
    show countOpen ('\\' :: c :: rest) = _
    rw [countOpen_slash, escapeLength_escape hblank, hclosed, List.drop_one]
    exact Nat.zero_add _
  | @gap blanks hsome hblank =>
    have hslash : ∀ c ∈ ('\\' :: rest).head?, isBlank c = false := by simp [isBlank_slash]
    rw [List.cons_append, List.append_assoc, List.singleton_append, countOpen_slash,
      leavesOpen_blanks hsome hblank hslash, escapeLength_blanks hsome hblank hslash]
    simp

/-- The derivations of a body agree on the number of its open gaps. -/
theorem countOpen_of_isBody {openGaps : Nat} {body : List Char} (h : IsBody openGaps body) :
    countOpen body = openGaps := by
  induction h with
  | nil => rw [countOpen]
  | piece hpiece _ ih => rw [countOpen_piece hpiece, ih]
  | @openGap openGaps blanks rest hsome hblank hopen _ ih =>
    have hstop : ∀ c ∈ rest.head?, isBlank c = false := fun c hc => (hopen c hc).2
    have hnone : rest.head? ≠ some '\\' := fun hslash => (hopen _ hslash).1 rfl
    rw [countOpen_slash, leavesOpen_blanks hsome hblank hstop,
      escapeLength_blanks hsome hblank hstop, if_neg hnone, List.drop_left, ih]
    simp [hnone, Nat.add_comm]

/-- A string has one number of open gaps, since its body is all between its quotes. -/
theorem IsString.unique {text : List Char} {one other : Nat} (hone : IsString one text)
    (hother : IsString other text) : one = other := by
  obtain ⟨body, hbody, rfl⟩ := hone
  obtain ⟨same, hsame, htext⟩ := hother
  obtain rfl : body = same := List.append_cancel_right (List.cons.inj htext).2
  rw [← countOpen_of_isBody hbody, countOpen_of_isBody hsame]

-- ============================================= bodies of raw strings

theorem rawBody_quotes (rest : List Char) :
    rawBody (quotes 3 ++ rest) = (3 + runLength (· == '"') rest, true) := by
  show rawBody ('"' :: '"' :: '"' :: rest) = _
  rw [rawBody]

/-- A character that three quotes do not start with is passed. -/
theorem rawBody_cons {c : Char} {rest : List Char} (h : ¬quotes 3 <+: c :: rest) :
    rawBody (c :: rest) = ((rawBody rest).1 + 1, (rawBody rest).2) := by
  rw [rawBody]
  rintro more rfl rfl
  exact h (List.prefix_append (quotes 3) more)

theorem isPrefix_quotes (count : Nat) (behind : List Char) :
    quotes 3 <+: quotes (3 + count) ++ behind := by
  unfold quotes
  rw [List.replicate_add, List.append_assoc]
  exact List.prefix_append ..

/-- Whether three quotes start in a body is decided by the first three behind it. -/
theorem isPrefix_quotes_iff (body : List Char) (count : Nat) (behind : List Char) :
    quotes 3 <+: body ++ quotes 3 ↔ quotes 3 <+: body ++ (quotes (3 + count) ++ behind) := by
  have hfront : body ++ quotes 3 <+: body ++ (quotes (3 + count) ++ behind) :=
    (List.prefix_append_right_inj body).mpr (isPrefix_quotes count behind)
  have hlength : (quotes 3).length ≤ (body ++ quotes 3).length := by simp
  exact ⟨fun h => h.trans hfront, fun h => List.prefix_of_prefix_length_le h hfront hlength⟩

theorem holdsNone_nil : HoldsNone [] := fun _ hlt => absurd hlt (Nat.not_lt_zero _)

/-- A body holds none if none start at its front and none further in. -/
theorem holdsNone_cons {c : Char} {body : List Char} :
    HoldsNone (c :: body) ↔ ¬quotes 3 <+: c :: body ++ quotes 3 ∧ HoldsNone body := by
  constructor
  · intro h
    exact ⟨h 0 (Nat.zero_lt_succ _), fun before hlt => h (before + 1) (Nat.succ_lt_succ hlt)⟩
  · rintro ⟨hhead, hbody⟩ before hlt
    cases before with
    | zero => exact hhead
    | succ before => exact hbody before (Nat.lt_of_succ_lt_succ hlt)

/-- A body without three quotes in a row is passed, up to the end of the quotes behind it. -/
theorem rawBody_of_holdsNone {body : List Char} (h : HoldsNone body) (further : Nat)
    {behind : List Char} (hend : ∀ c ∈ behind.head?, c ≠ '"') :
    rawBody (body ++ (quotes (3 + further) ++ behind)) = (body.length + 3 + further, true) := by
  induction body with
  | nil =>
    have hsplit : quotes (3 + further) = quotes 3 ++ quotes further := List.replicate_add ..
    have hall : ∀ c ∈ quotes further, (c == '"') = true := fun c hmem =>
      beq_iff_eq.mpr (List.eq_of_mem_replicate hmem)
    have hrun : runLength (· == '"') (quotes further ++ behind) = further := by
      unfold runLength
      rw [takeWhile_append hall fun c hc => beq_eq_false_iff_ne.mpr (hend c hc)]
      exact List.length_replicate
    rw [List.nil_append, hsplit, List.append_assoc, rawBody_quotes, hrun, List.length_nil,
      Nat.zero_add]
  | cons c body ih =>
    obtain ⟨hhead, hbody⟩ := holdsNone_cons.mp h
    rw [isPrefix_quotes_iff _ further behind, List.cons_append] at hhead
    rw [List.cons_append, rawBody_cons hhead, ih hbody, List.length_cons]
    simp only [Prod.mk.injEq, and_true]
    omega

/-- What is closed is a body without three quotes in a row, and all the quotes behind it. -/
theorem holdsNone_of_closed (chars : List Char) (h : (rawBody chars).2 = true) :
    ∃ body further behind, HoldsNone body ∧ (∀ c ∈ behind.head?, c ≠ '"')
      ∧ chars = body ++ (quotes (3 + further) ++ behind) := by
  induction chars with
  | nil => cases h
  | cons c rest ih =>
    by_cases hquotes : quotes 3 <+: c :: rest
    · obtain ⟨more, hmore⟩ := hquotes
      have hstop := head?_dropWhile (· == '"') more
      have hrun : more.takeWhile (· == '"') = quotes (more.takeWhile (· == '"')).length := by
        apply List.eq_replicate_of_mem
        intro c hmem
        exact beq_iff_eq.mp (List.all_eq_true.mp List.all_takeWhile c hmem)
      refine ⟨[], (more.takeWhile (· == '"')).length, more.dropWhile (· == '"'), holdsNone_nil,
        fun c hc => beq_eq_false_iff_ne.mp (hstop c hc), ?_⟩
      · unfold quotes at hrun
        rw [List.nil_append, quotes, List.replicate_add, ← hrun, List.append_assoc,
          List.takeWhile_append_dropWhile]
        exact hmore.symm
    · rw [rawBody_cons hquotes] at h
      obtain ⟨body, further, behind, hbody, hend, rfl⟩ := ih h
      refine ⟨c :: body, further, behind, ?_, hend, rfl⟩
      exact holdsNone_cons.mpr ⟨fun hhead =>
        hquotes ((isPrefix_quotes_iff (c :: body) further behind).mp hhead), hbody⟩

/-- No three quotes in a row start sooner than those behind the body. -/
theorem HoldsNone.length_le {body same : List Char} {one other : Nat} (h : HoldsNone body)
    (heq : body ++ quotes (3 + one) = same ++ quotes (3 + other)) :
    body.length ≤ same.length := by
  by_contra hlt
  apply h same.length (Nat.not_le.mp hlt)
  have hinner : quotes 3 <+: (body ++ quotes (3 + one)).drop same.length := by
    rw [heq, List.drop_left]
    simpa using isPrefix_quotes other []
  rw [List.drop_append_of_le_length (by omega)] at hinner ⊢
  rw [isPrefix_quotes_iff _ one []]
  simpa using hinner

/-- Two readings of a raw string have the same body, so they have the same further quotes. -/
theorem IsRawString.unique {text : List Char} {one other : Nat} (hone : IsRawString one text)
    (hother : IsRawString other text) : one = other := by
  obtain ⟨body, hbody, rfl⟩ := hone
  obtain ⟨same, hsame, htext⟩ := hother
  rw [List.append_assoc, List.append_assoc] at htext
  have heq := List.append_cancel_left htext
  have hle := hbody.length_le heq
  have hge := hsame.length_le heq.symm
  have hlength := congrArg List.length heq
  simp only [quotes, List.length_append, List.length_replicate] at hlength
  omega

-- ================================================ strings read whole

/-- A string that is one lexeme has no problem just if it is a body between two quotes. -/
theorem stringAfter_string {rest : List Char} (hkind : (stringAfter rest).kind = .string)
    (hwhole : (stringAfter rest).length = rest.length + 1) :
    (stringAfter rest).problem = none ↔ ∃ openGaps, IsString openGaps ('"' :: rest) := by
  revert hkind hwhole
  fun_cases stringAfter rest with
  | case1 =>
    intro hkind
    cases hkind
  | case2 =>
    intro _ hwhole
    change 1 + (stringBody rest).1 = rest.length + 1 at hwhole
    constructor
    · intro hnone
      have hclosed : (stringBody rest).2 = true := by simpa using hnone
      obtain ⟨openGaps, body, behind, hbody, rfl⟩ := isBody_of_closed rest hclosed
      rw [stringBody_of_isBody hbody] at hwhole
      have hbehind : behind = [] := by
        apply List.eq_nil_of_length_eq_zero
        rw [List.length_append, List.length_cons] at hwhole
        omega
      exact ⟨openGaps, body, hbody, by rw [hbehind]⟩
    · rintro ⟨openGaps, body, hbody, htext⟩
      obtain rfl : rest = body ++ ['"'] := (List.cons.inj htext).2
      show (if (stringBody (body ++ ['"'])).2 then none else some _) = none
      rw [stringBody_of_isBody hbody]
      rfl

/-- A raw string that is one lexeme has no problem just if it is a body between its quotes. -/
theorem stringAfter_rawString {rest : List Char} (hkind : (stringAfter rest).kind = .rawString)
    (hwhole : (stringAfter rest).length = rest.length + 1) :
    (stringAfter rest).problem = none ↔ ∃ further, IsRawString further ('"' :: rest) := by
  revert hkind hwhole
  fun_cases stringAfter rest with
  | case2 =>
    intro hkind
    cases hkind
  | case1 raw length closed hread =>
    intro _ hwhole
    change 3 + length = raw.length + 2 + 1 at hwhole
    constructor
    · intro hnone
      have hclosed : (rawBody raw).2 = true := by
        rw [hread]
        simpa using hnone
      obtain ⟨body, further, behind, hbody, hend, rfl⟩ := holdsNone_of_closed raw hclosed
      rw [rawBody_of_holdsNone hbody further hend] at hread
      -- the lexeme is all of the text, so nothing is left behind the quotes
      have hbehind : behind = [] := by
        apply List.eq_nil_of_length_eq_zero
        have hlength := congrArg Prod.fst hread
        change body.length + 3 + further = length at hlength
        simp only [quotes, List.length_append, List.length_replicate] at hwhole
        omega
      exact ⟨further, body, hbody, by rw [hbehind, List.append_nil]; rfl⟩
    · rintro ⟨further, body, hbody, htext⟩
      have hsplit : quotes 3 ++ raw = quotes 3 ++ (body ++ quotes (3 + further)) :=
        htext.trans (List.append_assoc ..)
      obtain rfl : raw = body ++ (quotes (3 + further) ++ []) := by
        rw [List.append_nil]
        exact List.append_cancel_left hsplit
      rw [rawBody_of_holdsNone hbody further (by simp)] at hread
      obtain rfl : true = closed := congrArg Prod.snd hread
      rfl

end Lexeme

-- =============================================== strings of a source

namespace Reading

/-- A string of a source carries no diagnostic just if its text is a string, with any number of open
gaps, and a raw string just if its text is one, with any number of further quotes. Both numbers are
fixed by the text: the texts without an open gap are those of pieces alone. -/
theorem string_flawless_iff (source : String) :
    ∀ token ∈ (ofSource source).tokens,
      (token.kind = .string →
        ((ofSource source).diagnosticsOn token = []
          ↔ ∃! openGaps, Lexeme.IsString openGaps (token.text source).toList))
      ∧ (token.kind = .rawString →
        ((ofSource source).diagnosticsOn token = []
          ↔ ∃! further, Lexeme.IsRawString further (token.text source).toList)) := by
  intro token hmem
  have hlexeme := (isLexeme_ofSource hmem).text
  rw [String.ofList_toList] at hlexeme
  obtain ⟨c, rest, htext, hwhole, hkind, hdiagnostics⟩ := hlexeme
  -- the diagnostics on a token are the one problem of its lexeme, if it has any
  have hnone : (ofSource source).diagnosticsOn token = []
      ↔ (Lexeme.first c rest).problem = none := by
    rw [hdiagnostics, Option.toList_eq_nil_iff, Option.map_eq_none_iff]
  rw [hnone, htext]
  constructor
  · intro hstring
    have htextual : (Lexeme.first c rest).kind.isText = true := by
      rw [← hkind, hstring]
      rfl
    obtain ⟨rfl, hfirst⟩ := Lexeme.eq_stringAfter_of_isText htextual
    rw [hfirst] at hwhole hkind ⊢
    rw [Lexeme.stringAfter_string (hkind.symm.trans hstring) hwhole]
    exact ⟨fun ⟨openGaps, h⟩ => ⟨openGaps, h, fun _ hother => hother.unique h⟩,
      ExistsUnique.exists⟩
  · intro hraw
    have htextual : (Lexeme.first c rest).kind.isText = true := by
      rw [← hkind, hraw]
      rfl
    obtain ⟨rfl, hfirst⟩ := Lexeme.eq_stringAfter_of_isText htextual
    rw [hfirst] at hwhole hkind ⊢
    rw [Lexeme.stringAfter_rawString (hkind.symm.trans hraw) hwhole]
    exact ⟨fun ⟨further, h⟩ => ⟨further, h, fun _ hother => hother.unique h⟩,
      ExistsUnique.exists⟩

/-- A string and a raw string behind one another, both without a diagnostic. -/
theorem string_flawless_iff_both :
    let source := "\"a\\ \\b\" \"\"\"c\"\"\"\""
    let string : Token := ⟨.string, ⟨1, 1, 0⟩, ⟨1, 8, 7⟩⟩
    let raw : Token := ⟨.rawString, ⟨1, 9, 8⟩, ⟨1, 17, 16⟩⟩
    (string ∈ (ofSource source).tokens ∧ raw ∈ (ofSource source).tokens)
      ∧ (∃! openGaps, Lexeme.IsString openGaps (string.text source).toList)
      ∧ ∃! further, Lexeme.IsRawString further (raw.text source).toList := by
  intro source string raw
  have hstring : string ∈ (ofSource source).tokens := by decide +kernel
  have hraw : raw ∈ (ofSource source).tokens := by decide +kernel
  refine ⟨⟨hstring, hraw⟩, ?_, ?_⟩
  · exact ((string_flawless_iff source string hstring).1 rfl).mp (by decide +kernel)
  · exact ((string_flawless_iff source raw hraw).2 rfl).mp (by decide +kernel)

/-- Not every string without a diagnostic is made of pieces, and not every raw string without one
ends in at most two further quotes: a gap is not closed, and a sixth quote is taken along. -/
theorem string_gap_unclosed :
    (¬∀ source : String, ∀ token ∈ (ofSource source).tokens, token.kind = .string →
        ((ofSource source).diagnosticsOn token = []
          ↔ Lexeme.IsString 0 (token.text source).toList))
      ∧ ¬∀ source : String, ∀ token ∈ (ofSource source).tokens, token.kind = .rawString →
        (ofSource source).diagnosticsOn token = [] →
          ∃ further ≤ 2, Lexeme.IsRawString further (token.text source).toList := by
  constructor
  · intro h
    have hmem : ⟨.string, ⟨1, 1, 0⟩, ⟨2, 3, 6⟩⟩ ∈ (ofSource "\"a\\\nb\"").tokens := by
      decide +kernel
    have hpieces : Lexeme.IsString 0 "\"a\\\nb\"".toList := by
      exact (h _ _ hmem rfl).mp (by decide +kernel)
    have hfirst : Lexeme.IsPiece ['a'] := .plain (by decide) (by decide) (by decide)
    have hlast : Lexeme.IsPiece ['b'] := .plain (by decide) (by decide) (by decide)
    have hgap : Lexeme.IsBody 1 ('\\' :: (['\n'] ++ (['b'] ++ []))) := by
      refine .openGap (List.cons_ne_nil _ _) (List.forall_mem_singleton.mpr (by decide)) ?_
        (.piece hlast .nil)
      intro c hc
      obtain rfl : 'b' = c := Option.some.inj hc
      decide
    exact absurd (hpieces.unique ⟨_, .piece hfirst hgap, rfl⟩) (by decide)
  · intro h
    have hmem : ⟨.rawString, ⟨1, 1, 0⟩, ⟨1, 11, 10⟩⟩
        ∈ (ofSource "\"\"\"a\"\"\"\"\"\"").tokens := by
      decide +kernel
    have hfew : ∃ further ≤ 2, Lexeme.IsRawString further "\"\"\"a\"\"\"\"\"\"".toList := by
      exact h _ _ hmem rfl (by decide +kernel)
    obtain ⟨further, hle, hraw⟩ := hfew
    have hnone : Lexeme.HoldsNone ['a'] :=
      Lexeme.holdsNone_cons.mpr ⟨by decide, Lexeme.holdsNone_nil⟩
    obtain rfl : further = 3 := hraw.unique ⟨_, hnone, rfl⟩
    omega

end Reading

end Offside
