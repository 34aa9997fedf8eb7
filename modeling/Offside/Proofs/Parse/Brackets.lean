import Offside.Proofs.Parse.Resumed

/-!
Brackets in what recovery skips.

Skipping counts the blocks of the layout, and no brackets: a bracket is a token as others are. So
what is skipped can end between a bracket and the one that closes it. It does so only where the
synchronisation point matches: neither an end of the input nor one of a block comes between the
two, as they stand in the same block.

# What carries the proof

Whole trees lead from a bracket to the one that closes it. A tree that is skipped and holds the
first of them either holds the second, too, or it ends on the way there, at a boundary between
those trees (`skipTokenTree_trees`). From such a boundary skipping goes along the same trees, one
after the other, so that it comes to the second bracket if nothing stops it (`reaches_skipTo`).

Nothing is assumed of the input. A token of the kind that the end of the input has is not passed,
and skipping comes to an answer there only if the synchronisation point matches
(`skipTo_of_eof`).
-/

namespace Offside

/-- The kind of bracket that closes a bracket of the source. -/
def TokenKind.closer? : TokenKind → Option TokenKind
  | .leftParen => some .rightParen
  | .leftSquare => some .rightSquare
  | .leftBrace => some .rightBrace
  | _ => none

/-- A token that is passed on its own. -/
structure Input.StandsAlone (input : Input) (place : Nat) : Prop where
  notEof : input.kindAt place ≠ .eof
  notBracket : (input.kindAt place).isBracket = false

/-- A bracket, and one further on in the same block that is of the kind to close it. The bracket
that matches it is such a one. -/
structure Input.Encloses (input : Input) (opening closing : Nat) : Prop where
  pair : (input.kindAt opening).closer? = some (input.kindAt closing)
  sameBlock : input.Trees anyRoot opening closing

variable {input : Input}

theorem Input.Encloses.standsAlone {opening closing : Nat} (h : input.Encloses opening closing) :
    input.StandsAlone closing := by
  have hpair := h.pair
  generalize hkind : input.kindAt closing = kind at hpair
  unfold TokenKind.closer? at hpair
  split at hpair <;> cases hpair <;> exact ⟨by rw [hkind]; exact nofun, by rw [hkind]; rfl⟩

namespace Context

variable {ctx : Context input}

/-- Every place that skipping a block passes is passed inside of it. -/
theorem skipBlocks_inner (ctx : Context input) (depth : Nat) : ∀ place, ctx.place < place →
    place < (ctx.skipBlocks depth).place →
      ∃ (between : Context input) (inner : Nat), between.place = place
        ∧ between.skipBlocks (inner + 1) = ctx.skipBlocks depth := by
  fun_induction ctx.skipBlocks depth with
  | case1 | case2 =>
    intro place hlt hle
    omega
  | case3 ctx depth hinside =>
    intro place hlt hle
    rw [place_advance (place_lt_size hinside)] at hle
    omega
  | case4 ctx depth hinside inner _ hopen ih =>
    intro place hlt hle
    have hadvance := place_advance (place_lt_size hinside)
    by_cases hnext : place = ctx.place + 1
    · obtain ⟨more, hmore⟩ := Nat.exists_eq_succ_of_ne_zero hopen
      exact ⟨ctx.advance, more, hadvance.trans hnext.symm, by rw [hmore]⟩
    · exact ih place (by omega) hle

/-- A token tree that is skipped and holds the first of some trees holds them all and what stands
behind, or ends at a boundary between them, or is held up among them. -/
theorem skipTokenTree_trees {first last : Nat} (trees : input.Trees anyRoot first last)
    (hlast : input.StandsAlone last) (hle : ctx.place ≤ first)
    (hlt : first < ctx.skipTokenTree.2.place) :
    last < ctx.skipTokenTree.2.place
      ∨ input.Trees anyRoot ctx.skipTokenTree.2.place last
      ∨ ctx.skipTokenTree.2.kind = .eof ∧ ctx.skipTokenTree.2.place < last := by
  have hinside : ctx.place < input.size :=
    Nat.lt_of_le_of_lt (Nat.le_trans hle trees.first_le) (Input.lt_size_of_kindAt hlast.notEof)
  rw [skipTokenTree_eq hinside] at hlt ⊢
  rcases Nat.eq_or_lt_of_le hle with rfl | hbehind
  · -- the tree is the first of the trees
    cases trees with
    | nil => exact .inl hlt
    | token _ _ hkind rest =>
      have heof : ctx.kind ≠ .eof := by
        intro heof
        rw [skipBlocks_of_eof heof] at hlt
        exact Nat.lt_irrefl _ hlt
      rw [skipBlocks_token heof hkind, if_pos rfl, place_advance hinside]
      exact .inr (.inl rest)
    | block _ hstart body hstop rest =>
      rw [skipBlocks_start hstart]
      rcases skipBlocks_trees_or_eof body 0 ctx.advance (place_advance hinside)
        with ⟨inner, rfl, heq⟩ | ⟨heof, hbefore⟩
      · rw [heq, skipBlocks_stop hstop, if_pos rfl, place_advance (Input.lt_size_of_stop hstop)]
        exact .inr (.inl rest)
      · exact .inr (.inr ⟨heof, Nat.lt_trans hbefore rest.first_le⟩)
  · -- the tree is a block, and the trees stand inside of it
    obtain ⟨between, inner, rfl, heq⟩ := skipBlocks_inner ctx 0 first hbehind hlt
    rw [← heq]
    rcases skipBlocks_trees_or_eof trees inner between rfl with ⟨after, rfl, hpassed⟩ | hheld
    · have hadvance := place_advance (Input.lt_size_of_kindAt hlast.notEof)
      have honward := (Skips.skipBlocks after.advance (inner + 1)).onward
      rw [hpassed, skipBlocks_token hlast.notEof hlast.notBracket,
        if_neg (Nat.succ_ne_zero inner)]
      exact .inl (by omega)
    · exact .inr (.inr hheld)

end Context

namespace Form

open Context

variable {run : Runner input} {sync : Grammar} {ctx after : Context input} {closing : Nat}

/-- The synchronisation point matches at a place. -/
def MatchesAt (run : Runner input) (sync : Grammar) (place : Nat) : Prop :=
  ∃ ctx after : Context input, ctx.place = place ∧ syncMatches run sync ctx = some (true, after)

/-- Nothing but a match stops skipping at a token that is not passed. -/
theorem skipTo_of_eof (heof : ctx.kind = .eof) (hinside : ctx.place < input.size)
    (h : skipTo run sync ctx = some after) :
    after.place = ctx.place ∧ MatchesAt run sync after.place := by
  have hend : ¬ctx.atEnd = true := fun hend => Nat.not_lt_of_le (of_decide_eq_true hend) hinside
  have hstop : ¬ctx.isAt .layoutEnd = true := fun hstop => by
    rw [eq_of_beq hstop] at heof
    cases heof
  rw [skipTo, dif_neg hend, if_neg hstop] at h
  split at h
  case h_1 => cases h
  case h_2 last hsync =>
    cases h
    exact ⟨place_syncMatches hsync, ctx, after, (place_syncMatches hsync).symm, hsync⟩
  case h_3 last hsync =>
    have hplace := place_syncMatches hsync
    have hkind : last.kind = .eof := (congrArg input.kindAt hplace).trans heof
    have hheld : last.skipTokenTree.2 = last := by
      rw [skipTokenTree_eq (by omega), skipBlocks_of_eof hkind]
    dsimp only at h
    split at h
    case isTrue hprogress =>
      rw [hheld] at hprogress
      omega
    case isFalse => cases h

/-- Skipping that is under way on trees to a token passes the token, or it is stopped by a match.
It is under way from where it starts, and wherever it comes to. -/
def Reaches (run : Runner input) (sync : Grammar) (closing : Nat) (ctx after : Context input) :
    Prop :=
  ∀ opening, input.Trees anyRoot opening closing → ctx.place ≤ opening →
    opening = ctx.place ∨ opening < after.place →
      closing < after.place ∨ MatchesAt run sync after.place

/-- One more token tree in front. -/
theorem Reaches.behind (hclosing : input.StandsAlone closing)
    (hskip : skipTo run sync ctx.skipTokenTree.2 = some after)
    (honward : ctx.skipTokenTree.2.place ≤ after.place)
    (h : Reaches run sync closing ctx.skipTokenTree.2 after) {opening : Nat}
    (trees : input.Trees anyRoot opening closing) (hle : ctx.place ≤ opening)
    (hlt : opening < after.place) : closing < after.place ∨ MatchesAt run sync after.place := by
  by_cases hheld : opening < ctx.skipTokenTree.2.place
  · rcases skipTokenTree_trees trees hclosing hle hheld with hpassed | rest | ⟨heof, hbefore⟩
    · exact .inl (Nat.lt_of_lt_of_le hpassed honward)
    · exact h _ rest (Nat.le_refl _) (.inl rfl)
    · have hsize := Input.lt_size_of_kindAt hclosing.notEof
      exact .inr (skipTo_of_eof heof (Nat.lt_trans hbefore hsize) hskip).2
  · exact h opening trees (Nat.not_lt.mp hheld) (.inr hlt)

/-- Skipping reaches what trees lead to. -/
theorem reaches_skipTo (hrun : Extending run) (hclosing : input.StandsAlone closing)
    (ctx : Context input) : ∀ after : Context input, skipTo run sync ctx = some after →
      Reaches run sync closing ctx after := by
  fun_induction skipTo run sync ctx with
  | case1 ctx hend =>
    intro after h opening trees hle hstart
    cases h
    have hsize := Input.lt_size_of_kindAt hclosing.notEof
    have hend : input.size ≤ ctx.place := of_decide_eq_true hend
    have hfirst := trees.first_le
    omega
  | case2 ctx _ hstop =>
    intro after h opening trees hle hstart
    cases h
    obtain rfl : opening = ctx.place := hstart.elim id fun hlt => absurd hle (Nat.not_le.mpr hlt)
    have hstop : input.kindAt ctx.place = .layoutEnd := eq_of_beq hstop
    have hbracket : (input.kindAt ctx.place).isBracket = true := by rw [hstop]; rfl
    -- no tree starts with an end
    cases trees with
    | nil => exact absurd hclosing.notBracket (by rw [hbracket]; exact Bool.noConfusion)
    | token _ _ hkind => exact absurd hkind (by rw [hbracket]; exact Bool.noConfusion)
    | block _ hbegins =>
      rw [hbegins] at hstop
      cases hstop
  | case3 =>
    intro after h
    cases h
  | case4 ctx _ _ last hsync =>
    intro after h opening trees hle hstart
    cases h
    exact .inr ⟨ctx, last, (place_syncMatches hsync).symm, hsync⟩
  | case5 ctx _ _ last hsync place skipped hprogress ih =>
    intro after h opening trees hle hstart
    have hplace := place_syncMatches hsync
    have honward := (skips_skipTo hrun sync _ _ h).onward
    refine Reaches.behind hclosing h honward (ih after h) trees (by omega) ?_
    rcases hstart with rfl | hlt
    · exact Nat.lt_of_lt_of_le hprogress honward
    · exact hlt
  | case6 =>
    intro after h
    cases h

end Form

namespace Grammar

open Form

variable {rules : RuleTable} {sync : Grammar} {message : String}

/-- A trial is one of the place. -/
theorem tries_of_matchesAt {levels place : Nat}
    (h : MatchesAt (runWithin rules levels : Runner input) sync place) :
    Tries rules sync input place true := by
  obtain ⟨ctx, after, rfl, htrial⟩ := h
  unfold syncMatches at htrial
  dsimp only at htrial
  split at htrial
  case h_1 => cases htrial
  case h_2 outcome last hrun =>
    have hsuccess : outcome.success = true := congrArg Prod.fst (Option.some.inj htrial)
    obtain ⟨other, hother, _⟩ := run_shifted hrun
      ({ Context.initial input with place := ctx.place, inAttempt := true } : Context input) rfl rfl
    exact ⟨(outcome, other), ⟨levels, hother⟩, hsuccess⟩

/-- Outside an attempt, what `relaxTo` skips in place of a child that does not match holds, with a
bracket, also the one that closes it, or else `sync` matches where it ends. -/
theorem relaxTo_encloses (rules : RuleTable) (message : String) (child sync : Grammar)
    (ctx : Context input) (hattempt : ctx.inAttempt = false) {outcome result : Outcome}
    {between after : Context input} (hchild : Evaluates rules child ctx (outcome, between))
    (hfailed : outcome.success = false)
    (hskip : Evaluates rules (.relaxTo message child sync) ctx (result, after))
    {opening closing : Nat} (hencloses : input.Encloses opening closing)
    (hle : ctx.place ≤ opening) (hlt : opening < after.place) :
    closing < after.place ∨ Tries rules sync input after.place true := by
  obtain ⟨levels, hrun⟩ := hskip
  obtain ⟨below, hbelow⟩ := runLevel_of_runWithin hrun
  have hextends : Extending (runWithin rules below : Runner input) :=
    extends_runWithin rules below
  rcases orRecover_cases hextends hattempt hbelow
    with ⟨last, hmatched, hsuccess, _⟩ | ⟨_, _, nextId, _, _, hrecover⟩
  · -- in its transaction the child does what it would do without
    obtain ⟨another, hanother, hsame, _⟩ := hchild.sameLog ctx.start.2 rfl rfl rfl
    have hunique := hanother.unique ⟨below, hmatched⟩
    rw [hunique] at hsame
    change result = outcome at hsame
    rw [hsame, hfailed] at hsuccess
    cases hsuccess
  · obtain ⟨_, ⟨_, rfl⟩ | ⟨_, _, _, last, hskipTo, _, hplace, _⟩⟩ :=
      skipMalformed_cases hextends hrecover
    · exact absurd hle (Nat.not_le.mpr hlt)
    · have honward := (skips_skipTo hextends sync _ _ hskipTo).onward
      have hreaches := reaches_skipTo hextends hencloses.standsAlone _ _ hskipTo
      rw [hplace] at hlt ⊢
      rcases hreaches.behind hencloses.standsAlone hskipTo honward hencloses.sameBlock hle hlt
        with hpassed | hmatches
      · exact .inl hpassed
      · exact .inr (tries_of_matchesAt hmatches)

/-- A name in parentheses, and an equals sign. -/
def parenthesized : Input :=
  .ofTokens "(x)=" [.raw ⟨.leftParen, ⟨1, 1, 0⟩, ⟨1, 2, 1⟩⟩, .raw ⟨.lower, ⟨1, 2, 1⟩, ⟨1, 3, 2⟩⟩,
    .raw ⟨.rightParen, ⟨1, 3, 2⟩, ⟨1, 4, 3⟩⟩, .raw ⟨.equals, ⟨1, 4, 3⟩, ⟨1, 5, 4⟩⟩]

/-- In place of a number, both parentheses are skipped, up to the equals sign. -/
theorem relaxTo_encloses_name :
    let rules : RuleTable := fun _ => none
    let grammar := Grammar.relaxTo "malformed" (.token .int) (.token .equals)
    ∃ result after, Evaluates rules grammar (Context.initial parenthesized) (result, after)
      ∧ 0 < after.place ∧ parenthesized.Encloses 0 2
      ∧ (2 < after.place ∨ Tries rules (.token .equals) parenthesized after.place true) := by
  intro rules grammar
  have hplace : (runWithin rules 2 grammar (Context.initial parenthesized)).map (·.2.place)
      = some 3 := by decide +kernel
  obtain ⟨⟨result, after⟩, hrun, hafter⟩ := Option.map_eq_some_iff.mp hplace
  have hlt : 0 < after.place := by rw [hafter]; decide
  have hencloses : parenthesized.Encloses 0 2 :=
    ⟨rfl, .token (by decide) rfl rfl (.single rfl (by decide) rfl)⟩
  exact ⟨result, after, ⟨2, hrun⟩, hlt, hencloses,
    relaxTo_encloses rules "malformed" (.token .int) (.token .equals) _ rfl ⟨1, rfl⟩ rfl ⟨2, hrun⟩
      hencloses (Nat.le_refl 0) hlt⟩

/-- An equals sign in parentheses. -/
def parenthesizedEquals : Input :=
  .ofTokens "(=)" [.raw ⟨.leftParen, ⟨1, 1, 0⟩, ⟨1, 2, 1⟩⟩, .raw ⟨.equals, ⟨1, 2, 1⟩, ⟨1, 3, 2⟩⟩,
    .raw ⟨.rightParen, ⟨1, 3, 2⟩, ⟨1, 4, 3⟩⟩]

/-- In place of a number, only the first parenthesis is skipped, as the equals sign behind it is
what recovery looks for. The one that closes it, the only other bracket of the text, is left. -/
theorem relaxTo_splits_parentheses :
    let rules : RuleTable := fun _ => none
    let start := Context.initial parenthesizedEquals
    parenthesizedEquals.size = 3
      ∧ (List.range 3).map parenthesizedEquals.kindAt = [.leftParen, .equals, .rightParen]
      ∧ parenthesizedEquals.Encloses 0 2
      ∧ start.place = 0 ∧ start.inAttempt = false
      ∧ ∃ failure between result after,
        Evaluates rules (.token .int) start (failure, between) ∧ failure.success = false
          ∧ Evaluates rules (.relaxTo "malformed" (.token .int) (.token .equals)) start
            (result, after)
          ∧ after.place = 1
          ∧ Tries rules (.token .equals) parenthesizedEquals after.place true := by
  intro rules start
  have hplace : (runWithin rules 2 (.relaxTo "malformed" (.token .int) (.token .equals))
      start).map (·.2.place) = some 1 := by decide +kernel
  obtain ⟨⟨result, after⟩, hrun, hafter⟩ := Option.map_eq_some_iff.mp hplace
  have hafter : after.place = 1 := hafter
  have hencloses : parenthesizedEquals.Encloses 0 2 :=
    ⟨rfl, .token (by decide) rfl rfl (.single rfl (by decide) rfl)⟩
  refine ⟨rfl, by decide, hencloses, rfl, rfl, _, _, result, after, ⟨1, rfl⟩, rfl, ⟨2, hrun⟩,
    hafter, ?_⟩
  rw [hafter]
  exact ⟨_, ⟨1, rfl⟩, rfl⟩

end Grammar

end Offside
