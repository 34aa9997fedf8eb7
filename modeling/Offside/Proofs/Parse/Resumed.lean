import Mathlib.Logic.Relation
import Offside.Proofs.Parse.Alike
import Offside.Proofs.Parse.Cases
import Offside.Proofs.Parse.Skipped

/-!
Where a parse goes on behind malformed input.

A child that does not match is taken back, and input is skipped: token trees, one after the
other, and at least one, up to the first boundary between them at which the input ends, an end
of a block stands or the synchronisation point matches. Blocks need not be balanced for that:
a block that nothing closes is a tree that leads to the end of the input
(`Input.TokenTree`).

Whether the synchronisation point matches depends on the place alone, and nothing is left of
the trial, so that a boundary stops skipping or not whatever was skipped before (`ResumesAt`).
From a place there is one tree at most (`TokenTree.unique`). So the boundaries lie in a row,
and passing over one tree after the other comes to the first that stops
(`PassesTo.further`).
-/

namespace Offside

namespace Input

/-- The input ends at a place, or a block does. -/
def EndsAt (input : Input) (place : Nat) : Prop :=
  input.size ≤ place ∨ input.kindAt place = .layoutEnd

/-- A token tree from one place up to another: a token, or a block up to the end that closes
it, or up to the end of the input if none does. -/
inductive TokenTree (input : Input) (first : Nat) : Nat → Prop
  | token (inside : first < input.size) (hkind : (input.kindAt first).isBracket = false) :
      TokenTree input first (first + 1)
  | block {stop : Nat} (closes : input.Closes first stop) : TokenTree input first (stop + 1)
  | unclosed (hstart : input.kindAt first = .layoutStart)
      (hopen : ∀ stop, ¬input.Closes first stop) : TokenTree input first input.size

namespace TokenTree

variable {input : Input} {first last other : Nat}

theorem first_lt (h : input.TokenTree first last) : first < last := by
  cases h with
  | token => exact Nat.lt_succ_self _
  | block closes => exact Nat.lt_succ_of_lt closes.body.first_le
  | unclosed hstart => exact lt_size_of_start hstart

theorem last_le (h : input.TokenTree first last) : last ≤ input.size := by
  cases h with
  | token inside => exact inside
  | block closes => exact lt_size_of_stop closes.stop_kind
  | unclosed => exact Nat.le_refl _

/-- What a token tree starts with settles how far it goes. -/
theorem unique (h : input.TokenTree first last) (more : input.TokenTree first other) :
    last = other := by
  have hbracket : input.kindAt first = .layoutStart → (input.kindAt first).isBracket ≠ false := by
    intro hstart
    rw [hstart]
    exact nofun
  cases h with
  | token _ hkind =>
    cases more with
    | token => rfl
    | block closes => exact absurd hkind (hbracket closes.start_kind)
    | unclosed hstart => exact absurd hkind (hbracket hstart)
  | block closes =>
    cases more with
    | token _ hkind => exact absurd hkind (hbracket closes.start_kind)
    | block others => rw [closes.unique others]
    | unclosed _ hopen => exact absurd closes (hopen _)
  | unclosed hstart hopen =>
    cases more with
    | token _ hkind => exact absurd hkind (hbracket hstart)
    | block closes => exact absurd closes (hopen _)
    | unclosed => rfl

theorem rightUnique (input : Input) : Relator.RightUnique input.TokenTree :=
  fun _ _ _ h more => h.unique more

theorem first_le (h : Relation.ReflTransGen input.TokenTree first last) : first ≤ last := by
  induction h with
  | refl => exact Nat.le_refl _
  | tail _ tree ih => exact Nat.le_trans ih (Nat.le_of_lt tree.first_lt)

/-- A row of token trees is not empty, and stays in the input. -/
theorem bounds (h : Relation.TransGen input.TokenTree first last) :
    first < last ∧ last ≤ input.size := by
  obtain ⟨before, hfront, tree⟩ := Relation.TransGen.tail'_iff.mp h
  exact ⟨Nat.lt_of_le_of_lt (first_le hfront) tree.first_lt, tree.last_le⟩

end TokenTree

/-- What has a kind is a token. -/
theorem exists_get? {input : Input} {place : Nat} (h : input.kindAt place ≠ .eof) :
    ∃ token, input.get? place = some token := by
  cases hget : input.get? place with
  | none =>
    unfold kindAt at h
    rw [hget] at h
    exact absurd rfl h
  | some token => exact ⟨token, rfl⟩

/-- A stretch of tokens spans from the first through the last of them. -/
theorem cover?_eq_merge {input : Input} {first last : Nat}
    (hinside : ∀ place, place < input.size → input.kindAt place ≠ .eof) (hlt : first < last)
    (hle : last ≤ input.size) :
    input.cover? first last = some ((input.spanAt first).merge (input.spanAt (last - 1))) := by
  obtain ⟨left, hleft⟩ := exists_get? (hinside first (Nat.lt_of_lt_of_le hlt hle))
  obtain ⟨right, hright⟩ := exists_get? (hinside (last - 1) (by omega))
  unfold cover? spanAt
  rw [if_pos hlt, hleft, hright]
  rfl

end Input

variable {input : Input}

namespace Context

theorem skipBlocks_of_end {ctx : Context input} (h : input.size ≤ ctx.place) (depth : Nat) :
    ctx.skipBlocks depth = ctx := by
  have hend : ctx.atEnd = true := decide_eq_true h
  rw [skipBlocks, dif_pos hend]

variable (hinside : ∀ place, place < input.size → input.kindAt place ≠ .eof)
include hinside

/-- Where nothing closes the open block, skipping leads to the end of the input. -/
theorem place_skipBlocks_open (depth : Nat) (ctx : Context input) (hle : ctx.place ≤ input.size)
    (hopen : ∀ stop, input.Trees anyRoot ctx.place stop → input.kindAt stop ≠ .layoutEnd) :
    (ctx.skipBlocks (depth + 1)).place = input.size := by
  -- a block inside that is closed is passed over, and what is left of the input gets shorter
  induction hleft : input.size - ctx.place using Nat.strongRecOn generalizing depth ctx with
  | ind left ih =>
    rcases Nat.eq_or_lt_of_le hle with hend | inside
    · rw [skipBlocks_of_end (Nat.le_of_eq hend.symm), hend]
    have hadvance := place_advance inside
    by_cases hstart : ctx.kind = .layoutStart
    · rw [skipBlocks_start hstart]
      by_cases hbody : ∃ stop, input.Trees anyRoot (ctx.place + 1) stop
          ∧ input.kindAt stop = .layoutEnd
      · obtain ⟨inner, body, hinner⟩ := hbody
        have hinnerInside := Input.lt_size_of_stop hinner
        obtain ⟨after, rfl, heq⟩ :=
          skipBlocks_trees hinside body (Nat.le_of_lt hinnerInside) (depth + 1) _ hadvance
        have hbehind := place_advance hinnerInside
        have hfirst := body.first_le
        rw [heq, skipBlocks_stop hinner, if_neg (Nat.succ_ne_zero _)]
        refine ih _ (by omega) depth after.advance (by omega) (fun stop rest => ?_) rfl
        rw [hbehind] at rest
        exact hopen stop (.block rfl hstart body hinner rest)
      · refine ih _ (by omega) (depth + 1) ctx.advance (by omega) (fun stop rest hstop => ?_) rfl
        rw [hadvance] at rest
        exact hbody ⟨stop, rest, hstop⟩
    · have hplain : ctx.kind.isBracket = false :=
        TokenKind.isBracket_of_ne hstart (hopen _ (.nil _ _))
      rw [skipBlocks_token (hinside _ inside) hplain, if_neg (Nat.succ_ne_zero _)]
      refine ih _ (by omega) depth ctx.advance (by omega) (fun stop rest => ?_) rfl
      rw [hadvance] at rest
      exact hopen stop (.token inside rfl hplain rest)

/-- Whatever the input, skipping a token tree passes over one. -/
theorem tokenTree_skipTokenTree {place : Nat} (h : ¬input.EndsAt place) (ctx : Context input)
    (hplace : ctx.place = place) : input.TokenTree place ctx.skipTokenTree.2.place := by
  subst hplace
  obtain ⟨hend, hstop⟩ := not_or.mp h
  have inside : ctx.place < input.size := Nat.lt_of_not_le hend
  by_cases hstart : input.kindAt ctx.place = .layoutStart
  · by_cases hcloses : ∃ stop, input.Closes ctx.place stop
    · obtain ⟨stop, closes⟩ := hcloses
      rw [place_skipTokenTree_block hinside closes]
      exact .block closes
    · have hopen := not_exists.mp hcloses
      have hadvance := place_advance inside
      have hlast : ctx.skipTokenTree.2.place = input.size := by
        rw [skipTokenTree_eq inside, skipBlocks_start hstart]
        refine place_skipBlocks_open hinside 0 ctx.advance (by omega) fun stop body hend => ?_
        rw [hadvance] at body
        exact hopen stop ⟨hstart, body, hend⟩
      rw [hlast]
      exact .unclosed hstart hopen
  · have hplain := TokenKind.isBracket_of_ne hstart hstop
    rw [place_skipTokenTree_token (hinside _ inside) hplain]
    exact .token inside hplain

end Context

namespace Grammar

/-- Run at a place in an attempt, so that nothing is recovered, the grammar matches or not. -/
def Tries (rules : RuleTable) (grammar : Grammar) (input : Input) (place : Nat)
    (matched : Bool) : Prop :=
  ∃ reply, Evaluates rules grammar
      ({ Context.initial input with place := place, inAttempt := true } : Context input) reply
    ∧ reply.1.success = matched

/-- Skipping goes no further than the place: the input or a block ends there, or the
synchronisation point matches. -/
def ResumesAt (rules : RuleTable) (sync : Grammar) (input : Input) (place : Nat) : Prop :=
  input.EndsAt place ∨ Tries rules sync input place true

/-- Skipping from one place comes to another: token trees lead there, at least one, and at no
boundary between them does it stop. -/
def PassesTo (rules : RuleTable) (sync : Grammar) (input : Input) (first place : Nat) : Prop :=
  Relation.TransGen input.TokenTree first place
    ∧ ∀ earlier, Relation.TransGen input.TokenTree first earlier → earlier < place →
      ¬ResumesAt rules sync input earlier

variable {rules : RuleTable} {sync : Grammar} {first place next : Nat}

/-- A trial has one answer, since a run has. -/
theorem Tries.unique {matched other : Bool} (h : Tries rules sync input place matched)
    (more : Tries rules sync input place other) : matched = other := by
  obtain ⟨reply, hreply, rfl⟩ := h
  obtain ⟨another, hanother, rfl⟩ := more
  rw [hreply.unique hanother]

/-- Where the synchronisation point does not match, nothing but an end stops skipping. -/
theorem Tries.not_resumesAt (h : Tries rules sync input place false)
    (hinner : ¬input.EndsAt place) : ¬ResumesAt rules sync input place := by
  rintro (hends | hmatches)
  · exact hinner hends
  · exact Bool.false_ne_true (h.unique hmatches)

-- ========================================================== boundaries

/-- Behind the first tree, skipping has passed no place where it could stop. -/
theorem passesTo_first (tree : input.TokenTree first place) :
    PassesTo rules sync input first place := by
  refine ⟨.single tree, fun earlier trees hlt => ?_⟩
  obtain ⟨between, hfirst, hrest⟩ := Relation.TransGen.head'_iff.mp trees
  obtain rfl := tree.unique hfirst
  exact absurd hlt (Nat.not_lt_of_le (Input.TokenTree.first_le hrest))

/-- Where skipping does not stop it passes over one more tree. -/
theorem PassesTo.further (h : PassesTo rules sync input first place)
    (hgoes : ¬ResumesAt rules sync input place) (tree : input.TokenTree place next) :
    PassesTo rules sync input first next := by
  refine ⟨h.1.tail tree, fun earlier trees hlt => ?_⟩
  -- the boundaries lie in a row, and none lies inside the last tree
  have hle : earlier ≤ place := by
    rcases Relation.ReflTransGen.total_of_right_unique (Input.TokenTree.rightUnique input)
      trees.to_reflTransGen h.1.to_reflTransGen with hbefore | hbehind
    · exact Input.TokenTree.first_le hbefore
    · rcases Relation.ReflTransGen.cases_head hbehind with rfl | ⟨between, hfirst, hrest⟩
      · exact Nat.le_refl _
      · obtain rfl := tree.unique hfirst
        exact absurd hlt (Nat.not_lt_of_le (Input.TokenTree.first_le hrest))
  rcases Nat.lt_or_eq_of_le hle with hearlier | rfl
  · exact h.2 earlier trees hearlier
  · exact hgoes

/-- There is one place where skipping stops. -/
theorem PassesTo.unique {last : Nat} (h : PassesTo rules sync input first place)
    (hstops : ResumesAt rules sync input place) (more : PassesTo rules sync input first last)
    (hmore : ResumesAt rules sync input last) : place = last := by
  rcases Nat.lt_trichotomy place last with hlt | hsame | hlt
  · exact absurd hstops (more.2 place h.1 hlt)
  · exact hsame
  · exact absurd hmore (h.2 last more.1 hlt)

end Grammar

-- ============================================================ skipping

/-- The two tests on a context look at the end of the tokens and of the block. -/
theorem Context.ends_iff (ctx : Context input) : (ctx.atEnd || ctx.isAt .layoutEnd) = true
    ↔ input.EndsAt ctx.place := by
  unfold atEnd isAt kind Input.EndsAt
  rw [Bool.or_eq_true, decide_eq_true_iff, beq_iff_eq]

namespace Form

variable {run : Runner input} {sync : Grammar} {ctx after : Context input}

/-- At the end of the tokens or of the block, skipping stops. -/
theorem skipTo_of_end (h : input.EndsAt ctx.place) :
    skipTo run sync ctx = some ctx := by
  rw [skipTo]
  split
  case isTrue => rfl
  case isFalse hend =>
    exact if_pos (beq_iff_eq.mpr (h.resolve_left fun hle => hend (decide_eq_true hle)))

section Child

variable {child : Grammar} {recover : Context input → Reply input} {between : Context input}
  {outcome : Outcome}

theorem orRecover_of_inAttempt (hattempt : ctx.inAttempt = true) :
    orRecover run child recover ctx = run child ctx :=
  if_pos hattempt

/-- A child that matches needs no recovery. -/
theorem orRecover_of_success (hrecovers : ctx.inAttempt = false)
    (hchild : run child ctx.start.2 = some (outcome, between)) (hsuccess : outcome.success = true) :
    orRecover run child recover ctx = some (outcome, between.commit ctx.start.1) := by
  unfold orRecover
  rw [if_neg (by rw [hrecovers]; exact Bool.false_ne_true)]
  dsimp only
  rw [hchild]
  exact if_pos hsuccess

/-- A child that does not match leaves but the number of its transaction. -/
theorem orRecover_of_failure (hrun : Extending run) (hrecovers : ctx.inAttempt = false)
    (hchild : run child ctx.start.2 = some (outcome, between)) (hfailed : outcome.success = false) :
    orRecover run child recover ctx = recover { ctx with nextId := between.nextId } := by
  unfold orRecover
  rw [if_neg (by rw [hrecovers]; exact Bool.false_ne_true)]
  dsimp only
  rw [hchild]
  dsimp only
  rw [if_neg (by rw [hfailed]; exact Bool.false_ne_true), Context.rollback_eq (hrun _ _ _ hchild)]

end Child

section Inside

variable (h : ¬input.EndsAt ctx.place)
include h

theorem skipTo_of_match (htrial : syncMatches run sync ctx = some (true, after)) :
    skipTo run sync ctx = some after := by
  have hend : ¬ctx.atEnd = true := fun hend => h (.inl (of_decide_eq_true hend))
  have hstop : ¬ctx.isAt .layoutEnd = true := fun hstop => h (.inr (eq_of_beq hstop))
  rw [skipTo, dif_neg hend, if_neg hstop, htrial]

/-- Skipping passes a tree where the synchronisation point does not match. -/
theorem skipTo_of_mismatch (htrial : syncMatches run sync ctx = some (false, after))
    (hprogress : ctx.place < after.skipTokenTree.2.place) :
    skipTo run sync ctx = skipTo run sync after.skipTokenTree.2 := by
  have hend : ¬ctx.atEnd = true := fun hend => h (.inl (of_decide_eq_true hend))
  have hstop : ¬ctx.isAt .layoutEnd = true := fun hstop => h (.inr (eq_of_beq hstop))
  rw [skipTo, dif_neg hend, if_neg hstop, htrial]
  exact dif_pos hprogress

end Inside

end Form

namespace Grammar

open Form

variable {rules : RuleTable} {sync : Grammar} {message : String} {first : Nat}

/-- A trial that comes to an answer comes to it in every context at the place. -/
theorem exists_syncMatches {place : Nat} {matched : Bool}
    (h : Tries rules sync input place matched) :
    ∃ levels, ∀ more, levels ≤ more → ∀ ctx : Context input, ctx.place = place →
      ∃ after, after.place = place
        ∧ syncMatches (runWithin rules more) sync ctx = some (matched, after) := by
  obtain ⟨⟨outcome, last⟩, ⟨levels, hrun⟩, rfl⟩ := h
  refine ⟨levels, fun more hmore ctx hplace => ?_⟩
  obtain ⟨after, htrial, _⟩ :=
    run_shifted (runWithin_mono hmore hrun) (ctx.start.2.setInAttempt true) hplace.symm rfl
  refine ⟨(after.setInAttempt ctx.inAttempt).rollback ctx.start.1, hplace, ?_⟩
  unfold syncMatches
  dsimp only
  rw [htrial]
  rfl

/-- Where the synchronisation point can be tried at the boundaries that are passed, skipping
comes to the first that stops it. -/
theorem exists_skipTo (hinside : ∀ place, place < input.size → input.kindAt place ≠ .eof)
    (htries : ∀ place, PassesTo rules sync input first place → ¬input.EndsAt place →
      ∃ matched, Tries rules sync input place matched)
    (place : Nat) (hpasses : PassesTo rules sync input first place) :
    ∃ levels, ∀ more, levels ≤ more → ∀ ctx : Context input, ctx.place = place →
      ∃ after, skipTo (runWithin rules more) sync ctx = some after
        ∧ PassesTo rules sync input first after.place
        ∧ ResumesAt rules sync input after.place := by
  induction hleft : input.size - place using Nat.strongRecOn generalizing place with
  | ind left ih =>
    by_cases hends : input.EndsAt place
    · refine ⟨0, fun more _ ctx hplace => ?_⟩
      subst hplace
      exact ⟨ctx, skipTo_of_end hends, hpasses, .inl hends⟩
    obtain ⟨matched, htried⟩ := htries place hpasses hends
    obtain ⟨levels, htrial⟩ := exists_syncMatches htried
    cases matched with
    | true =>
      refine ⟨levels, fun more hmore ctx hplace => ?_⟩
      subst hplace
      obtain ⟨after, hsame, hmatches⟩ := htrial more hmore ctx rfl
      exact ⟨after, skipTo_of_match hends hmatches, hsame ▸ hpasses, .inr (hsame ▸ htried)⟩
    | false =>
      have hskips := Context.tokenTree_skipTokenTree hinside hends
      have tree := hskips { Context.initial input with place := place } rfl
      have hlt := tree.first_lt
      have hlast := tree.last_le
      obtain ⟨others, hrest⟩ :=
        ih _ (by omega) _ (hpasses.further (htried.not_resumesAt hends) tree) rfl
      -- the trial here and the skipping behind it each take some levels
      refine ⟨max levels others, fun more hmore ctx hplace => ?_⟩
      subst hplace
      obtain ⟨after, hsame, hmatches⟩ :=
        htrial more (Nat.le_trans (Nat.le_max_left _ _) hmore) ctx rfl
      have hskipped := hskips after hsame
      rw [skipTo_of_mismatch hends hmatches hskipped.first_lt]
      exact hrest more (Nat.le_trans (Nat.le_max_right _ _) hmore) _ (hskipped.unique tree)

-- ================================================== what is left behind

/-- What a child leaves behind that does not match, outside an attempt: nothing of its own, and
a report on what is skipped. -/
structure Resumed (rules : RuleTable) (sync : Grammar) (message : String)
    (ctx after : Context input) : Prop extends ctx.SameBook after where
  /-- At the end of the input or of a block nothing is skipped. -/
  nothing : input.EndsAt ctx.place →
    after.place = ctx.place
      ∧ after.events.toList = ctx.events.toList ++ [.report (.skipped ctx.point message)]
  /-- Elsewhere trees are skipped up to the first boundary that stops it. One error node holds
  their tokens, and the report spans the first through the last of them. -/
  skipped : ¬input.EndsAt ctx.place →
    PassesTo rules sync input ctx.place after.place ∧ ResumesAt rules sync input after.place
      ∧ after.events.toList = ctx.events.toList
        ++ (.start (some .error) none :: tokenEvents ctx.place after.place
          ++ [.finish, .report (.skipped
            ((input.spanAt ctx.place).merge (input.spanAt (after.place - 1))) message)])

/-- What is skipped is left behind as said, if skipping stops where it should. -/
theorem resumed_of_skipMalformed (rules : RuleTable) {run : Runner input}
    (hrun : Extending run)
    (hinside : ∀ place, place < input.size → input.kindAt place ≠ .eof)
    {ctx after : Context input} {outcome : Outcome}
    (h : skipMalformed run sync message ctx = some (outcome, after))
    (hstops : ¬input.EndsAt ctx.place →
      PassesTo rules sync input ctx.place after.place
        ∧ ResumesAt rules sync input after.place) :
    outcome = .matched after.place ∧ Resumed rules sync message ctx after := by
  obtain ⟨houtcome, ⟨hends, rfl⟩ | ⟨hlt, hstop, hbook, last, _, _, hplace, hevents⟩⟩ :=
    skipMalformed_cases hrun h
  · refine ⟨houtcome, ⟨rfl, rfl, rfl, rfl⟩, fun _ => ⟨rfl, Array.toList_push⟩, fun hinner => ?_⟩
    exact absurd (ctx.ends_iff.mp hends) hinner
  · have hinner : ¬input.EndsAt ctx.place := by
      rintro (hend | hclosed)
      · exact Nat.not_lt_of_le hend hlt
      · exact ne_of_beq_false hstop hclosed
    obtain ⟨hpasses, hresumes⟩ := hstops hinner
    refine ⟨houtcome, hbook, fun hends => absurd hends hinner, fun _ => ⟨hpasses, hresumes, ?_⟩⟩
    obtain ⟨hsome, hle⟩ := Input.TokenTree.bounds hpasses.1
    rw [hevents, ← hplace, skippedReport, Input.cover?_eq_merge hinside hsome hle]
    rfl

/-- Skipping comes to an answer where the synchronisation point can be tried at the boundaries
that are passed. -/
theorem exists_skipMalformed
    (hinside : ∀ place, place < input.size → input.kindAt place ≠ .eof)
    (htries : ∀ place, PassesTo rules sync input first place → ¬input.EndsAt place →
      ∃ matched, Tries rules sync input place matched)
    (message : String) :
    ∃ levels, ∀ more, levels ≤ more → ∀ ctx : Context input, ctx.place = first →
      ∃ after, skipMalformed (runWithin rules more) sync message ctx
          = some (.matched after.place, after)
        ∧ Resumed rules sync message ctx after := by
  by_cases hends : input.EndsAt first
  · refine ⟨0, fun more _ ctx hplace => ?_⟩
    subst hplace
    have hskip : skipMalformed (runWithin rules more) sync message ctx
        = some (.matched ctx.place, ctx.report (.skipped ctx.point message)) :=
      if_pos (ctx.ends_iff.mpr hends)
    obtain ⟨_, hresumed⟩ := resumed_of_skipMalformed rules
      (extends_runWithin rules more) hinside hskip fun hinner => absurd hends hinner
    exact ⟨_, hskip, hresumed⟩
  · -- the first tree is skipped without a trial
    have hskips := Context.tokenTree_skipTokenTree hinside hends
    have tree := hskips { Context.initial input with place := first } rfl
    obtain ⟨levels, hrest⟩ := exists_skipTo hinside htries _ (passesTo_first tree)
    refine ⟨levels, fun more hmore ctx hplace => ?_⟩
    subst hplace
    obtain ⟨last, hlast, hpasses⟩ :=
      hrest more hmore ctx.mark.2.skipTokenTree.2 ((hskips ctx.mark.2 rfl).unique tree)
    let node := (last.complete ctx.mark.1 .error).2
    have hskip : skipMalformed (runWithin rules more) sync message ctx
        = some (.matched node.place,
          node.report (.skipped (node.spanBetween ctx.place node.place) message)) := by
      unfold skipMalformed
      rw [if_neg fun hnothing => hends (ctx.ends_iff.mp hnothing)]
      dsimp only
      rw [hlast]
    obtain ⟨_, hresumed⟩ := resumed_of_skipMalformed rules
      (extends_runWithin rules more) hinside hskip fun _ => hpasses
    exact ⟨_, hskip, hresumed⟩

/-- Outside an attempt, `relaxTo` goes on from where its child matched, or behind what is
skipped in its place. Skipping stops at the first boundary between token trees at which the
input ends, a block ends or `sync` matches; nothing else is left of the child, or of trying
`sync`. Inside an attempt it is its child. -/
theorem relaxTo_resumes (rules : RuleTable) (message : String) (child sync : Grammar)
    (ctx : Context input) :
    (ctx.inAttempt = true → ∀ reply,
        Evaluates rules (.relaxTo message child sync) ctx reply ↔ Evaluates rules child ctx reply)
      ∧ (ctx.inAttempt = false → (∀ place, place < input.size → input.kindAt place ≠ .eof) →
        ∀ outcome between, Evaluates rules child ctx (outcome, between) →
        (outcome.success = true →
          ∃ after, Evaluates rules (.relaxTo message child sync) ctx (outcome, after)
            ∧ ctx.SameBook after ∧ after.place = between.place ∧ after.events = between.events)
        ∧ (outcome.success = false →
          (∀ place, PassesTo rules sync input ctx.place place → ¬input.EndsAt place →
            ∃ matched, Tries rules sync input place matched) →
          ∃ after, Evaluates rules (.relaxTo message child sync) ctx (.matched after.place, after)
            ∧ Resumed rules sync message ctx after)) := by
  refine ⟨fun hattempt reply => ⟨?_, ?_⟩, fun hrecovers hinside outcome between hchild => ?_⟩
  · rintro ⟨levels, hrun⟩
    obtain ⟨below, hbelow⟩ := runLevel_of_runWithin hrun
    exact ⟨below, (orRecover_of_inAttempt hattempt).symm.trans hbelow⟩
  · rintro ⟨levels, hrun⟩
    refine ⟨levels + 1, ?_⟩
    rw [runWithin_succ]
    exact (orRecover_of_inAttempt hattempt).trans hrun
  -- in its transaction the child does what it would do without
  obtain ⟨⟨result, last⟩, ⟨levels, hrun⟩, rfl, hplace, hevents⟩ :=
    hchild.sameLog ctx.start.2 rfl rfl rfl
  refine ⟨fun hsuccess => ?_, fun hfailed htries => ?_⟩
  · refine ⟨last.commit ctx.start.1, ⟨levels + 1, ?_⟩,
      (extends_runWithin rules levels _ _ _ hrun).commit.toSameBook, hplace, hevents⟩
    rw [runWithin_succ]
    exact orRecover_of_success hrecovers hrun hsuccess
  · obtain ⟨others, hskips⟩ := exists_skipMalformed hinside htries message
    have hmore := runWithin_mono (Nat.le_max_left levels others) hrun
    obtain ⟨after, hskip, hresumed⟩ := hskips (max levels others) (Nat.le_max_right _ _)
      { ctx with nextId := last.nextId } rfl
    refine ⟨after, ⟨max levels others + 1, ?_⟩, ⟨?_, hresumed.nothing, hresumed.skipped⟩⟩
    · rw [runWithin_succ]
      exact (orRecover_of_failure (extends_runWithin rules _) hrecovers hmore hfailed).trans hskip
    · exact ⟨hresumed.transactions, hresumed.markers, hresumed.inAttempt, hresumed.inOrder⟩

/-- A name, a block that holds another, and an equals sign. -/
def nameAndBlock : Input :=
  .ofTokens "x y=" [.raw ⟨.lower, ⟨1, 1, 0⟩, ⟨1, 2, 1⟩⟩, .start ⟨1, 3, 2⟩,
    .raw ⟨.lower, ⟨1, 3, 2⟩, ⟨1, 4, 3⟩⟩, .stop ⟨1, 4, 3⟩, .raw ⟨.equals, ⟨1, 4, 3⟩, ⟨1, 5, 4⟩⟩]

/-- In place of a number, the name and the block are skipped, up to the equals sign. A name
would match, and in an attempt the number is missing. -/
theorem relaxTo_resumes_block :
    let rules : RuleTable := fun _ => none
    let ctx := Context.initial nameAndBlock
    let skips := fun child => Grammar.relaxTo "malformed" child (.token .equals)
    (∃ after, Evaluates rules (skips (.token .int)) ctx (.matched 4, after) ∧ after.place = 4
        ∧ after.events.toList = [.start (some .error) none, .token 0, .token 1, .token 2, .token 3,
          .finish, .report (.skipped ⟨0, 3⟩ "malformed")])
      ∧ (∃ outcome after, Evaluates rules (skips (.token .lower)) ctx (outcome, after)
        ∧ outcome.success = true ∧ after.place = 1)
      ∧ ∃ reply, Evaluates rules (skips (.token .int)) (ctx.setInAttempt true) reply
        ∧ reply.1.success = false := by
  intro rules ctx skips
  have hinside : ∀ place, place < nameAndBlock.size → nameAndBlock.kindAt place ≠ .eof := by decide
  have htries : ∀ place, ∃ matched, Tries rules (.token .equals) nameAndBlock place matched :=
    fun place => ⟨_, _, ⟨1, rfl⟩, rfl⟩
  have hname : nameAndBlock.TokenTree 0 1 := .token (by decide) rfl
  have hblock : nameAndBlock.TokenTree 1 4 := .block ⟨rfl, .single rfl (by decide) rfl, rfl⟩
  -- skipping does not stop in front of the block, and inside it there is nothing to stop at
  have hgoes : ¬ResumesAt rules (.token .equals) nameAndBlock 1 :=
    Tries.not_resumesAt ⟨_, ⟨1, rfl⟩, rfl⟩ (not_or.mpr ⟨by decide, by decide⟩)
  have hpasses : PassesTo rules (.token .equals) nameAndBlock 0 4 :=
    (passesTo_first hname).further hgoes hblock
  have hstops : ResumesAt rules (.token .equals) nameAndBlock 4 := .inr ⟨_, ⟨1, rfl⟩, rfl⟩
  refine ⟨?_, ?_, ?_⟩
  · obtain ⟨after, hafter, hresumed⟩ :=
      ((relaxTo_resumes rules "malformed" (.token .int) (.token .equals) ctx).2 rfl hinside _ _
        ⟨1, rfl⟩).2 rfl fun place _ _ => htries place
    obtain ⟨hmore, hends, hevents⟩ :=
      hresumed.skipped (not_or.mpr ⟨by decide, by decide⟩)
    have hplace : after.place = 4 := hmore.unique hends hpasses hstops
    rw [hplace] at hafter hevents
    exact ⟨after, hafter, hplace, hevents⟩
  · obtain ⟨after, hafter, _, hplace, _⟩ :=
      ((relaxTo_resumes rules "malformed" (.token .lower) (.token .equals) ctx).2 rfl hinside _ _
        ⟨1, rfl⟩).1 rfl
    exact ⟨_, after, hafter, rfl, hplace⟩
  · have hattempt := (relaxTo_resumes rules "malformed" (.token .int) (.token .equals)
      (ctx.setInAttempt true)).1 rfl
    exact ⟨_, (hattempt _).mpr ⟨1, rfl⟩, rfl⟩

end Grammar

end Offside
