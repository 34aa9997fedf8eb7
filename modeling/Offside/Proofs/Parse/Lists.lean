import Offside.Proofs.Parse.Rows

/-!
Separated lists stop cleanly.

A list is an item, then a separator and an item as often as both follow. What comes
after the last item, a separator without an item included, is left as if nobody had
looked at it.

# The loop

`repeatFrom_greedy` is the induction on the loop. Each round runs a step that is
healed, in a transaction of the loop's own, so the contexts of the loop share their log
with those of the row, and are not the same. `round_comesTo` says what a round finds:
the step succeeds, and the log is that of its success; or it leaves no trace, and the
step does not succeed here at all. The second ends the loop with success, since no
matches are asked for, and makes the row the longest there is.

That the loop comes to a reply is a matter of its own (`repeatFrom_answers`): each round
that goes on has consumed a token, and levels enough for one round and for what is left
are levels enough.
-/

namespace Offside

open Form Context

variable {input : Input}

namespace Grammar

variable {rules : RuleTable} {grammar : Grammar} {rest : List Grammar}
  {ctx between after last : Context input} {reply : Outcome × Context input}

-- ========================================================== healing

/-- A token that is not there leaves no trace. -/
theorem token_failed {kind : TokenKind} (h : Evaluates rules (.token kind) ctx reply)
    (hfailed : reply.1.success = false) : SharesLog ctx reply.2 := by
  obtain ⟨levels, hrun⟩ := h
  obtain ⟨below, hrun⟩ := runLevel_of_runWithin hrun
  change some (single (.token kind) (ctx.isAt kind) ctx) = _ at hrun
  unfold single at hrun
  split at hrun
  · cases hrun
    cases hfailed
  · cases hrun
    exact .refl ctx

/-- The reply is that of a success of the grammar, or it has left no trace and the grammar
does not succeed here. -/
inductive HealedReply (rules : RuleTable) (grammar : Grammar) (ctx : Context input)
    (reply : Outcome × Context input) : Prop
  | kept {after : Context input} (matched : reply.1.success = true)
    (succeeds : Succeeds rules grammar ctx after) (shared : SharesLog after reply.2)
  | undone (failed : reply.1.success = false) (shared : SharesLog ctx reply.2)
    (never : ∀ after, ¬Succeeds rules grammar ctx after)

/-- A child whose heads consume is refused in advance only where it would have failed. -/
theorem heal_comesTo {child : Grammar} (hheads : child.headsConsume = true)
    (h : Evaluates rules (.heal child) ctx reply) : HealedReply rules child ctx reply := by
  obtain ⟨outcome, last⟩ := reply
  obtain ⟨levels, hrun⟩ := h
  obtain ⟨below, hrun⟩ := runLevel_of_runWithin hrun
  change Form.heal _ _ child ctx = _ at hrun
  unfold Form.heal at hrun
  split at hrun
  case isTrue =>
    obtain ⟨step, between, hchild, hcases⟩ := whole_cases hrun
    -- the child ran in a transaction, and comes to the same without it
    obtain ⟨after, hafter, hshared⟩ := run_shared hchild (sharesLog_start ctx).symm
    rcases hcases with ⟨hsuccess, rfl, rfl⟩ | ⟨hfailed, houtcome, rfl⟩
    · have hcommitted := hshared.symm.trans (sharesLog_commit between ctx.start.1)
      exact .kept hsuccess ⟨_, ⟨below, hafter⟩, hsuccess⟩ hcommitted
    · have hrolledBack := (sharesLog_rollback hchild).symm
      exact .undone houtcome hrolledBack fun _ =>
        Fails.not_succeeds ⟨_, ⟨below, hafter⟩, hfailed⟩
  case isFalse hstart =>
    cases hrun
    refine .undone rfl (.refl ctx) ?_
    rintro after ⟨outcome, heval, hsuccess⟩
    exact neverTakes_of_canStart hheads (Bool.eq_false_iff.mpr hstart) _ heval (.inl hsuccess)

/-- What leaves no trace where it fails is healed as it is. -/
theorem healedReply_self (h : Evaluates rules grammar ctx reply)
    (hfailed : reply.1.success = false → SharesLog ctx reply.2) :
    HealedReply rules grammar ctx reply := by
  cases hsuccess : reply.1.success with
  | true => exact .kept hsuccess ⟨reply.1, h, hsuccess⟩ (.refl _)
  | false =>
    exact .undone hsuccess (hfailed hsuccess) fun _ => Fails.not_succeeds ⟨reply, h, hsuccess⟩

/-- That a token and what is healed already stay as they are makes no difference. -/
theorem healed_comesTo (hheads : grammar.headsConsume = true)
    (h : Evaluates rules grammar.healed ctx reply) : HealedReply rules grammar ctx reply := by
  cases grammar
  case token kind => exact healedReply_self h (token_failed h)
  case heal child =>
    have hinner : child.headsConsume = true := by simpa [headsConsume] using hheads
    refine healedReply_self h fun hfailed => ?_
    cases heal_comesTo hinner h with
    | kept hmatched =>
      rw [hfailed] at hmatched
      cases hmatched
    | undone _ hshared => exact hshared
  all_goals exact heal_comesTo hheads h

/-- What is healed comes to a reply where the child does. -/
theorem healed_answers (hheads : grammar.headsConsume = true)
    (h : ∃ reply, Evaluates rules grammar ctx reply) :
    ∃ reply, Evaluates rules grammar.healed ctx reply := by
  obtain ⟨reply, levels, hrun⟩ := h
  have hheal : ∃ result, Evaluates rules (.heal grammar) ctx result := by
    obtain ⟨result, hresult, _⟩ := heal_takesBack (.heal grammar) hheads hrun
    exact ⟨result, evaluates_of_runLevel hresult⟩
  unfold healed
  split
  · exact ⟨reply, levels, hrun⟩
  · exact ⟨reply, levels, hrun⟩
  · exact hheal

-- ========================================================= the loop

/-- Where no token is left, nothing moves on. -/
theorem place_of_atEnd (hend : ctx.atEnd = true) (h : Succeeds rules grammar ctx after) :
    after.place = ctx.place := by
  obtain ⟨outcome, ⟨levels, hrun⟩, _⟩ := h
  obtain ⟨log, pieces, _, hlog⟩ := (extends_runWithin rules levels _ _ _ hrun).logged
  exact hlog.last_eq (by simpa [atEnd] using hend)

section Loop

variable {step self : Grammar} {levels : Nat} {outcome : Outcome}

/-- A round of a loop, which has a transaction of its own, finds a step that succeeds, or
none. -/
theorem round_comesTo (hheads : step.headsConsume = true)
    (h : runWithin rules levels step.healed ctx.start.2 = some (outcome, between)) :
    (outcome.success = true ∧ ∃ after, Succeeds rules step ctx after
        ∧ SharesLog after (between.commit ctx.start.1))
      ∨ outcome.success = false ∧ between.place = ctx.place
        ∧ SharesLog ctx (between.rollback ctx.start.1)
        ∧ ∀ after, ¬Succeeds rules step ctx after := by
  cases healed_comesTo hheads ⟨levels, h⟩ with
  | kept hmatched hstep hshared =>
    obtain ⟨last, hlast, hafter⟩ := hstep.shared (sharesLog_start ctx).symm
    have hcommitted := hshared.trans (sharesLog_commit between ctx.start.1)
    exact .inl ⟨hmatched, last, hlast, hafter.symm.trans hcommitted⟩
  | undone hfailed hshared hnever =>
    refine .inr ⟨hfailed, hshared.place.symm, (sharesLog_rollback h).symm, ?_⟩
    intro after hstep
    obtain ⟨last, hlast, _⟩ := hstep.shared (sharesLog_start ctx)
    exact hnever last hlast

/-- A loop over a healed step that moves on goes through the longest row of steps there
is, and succeeds at its end. -/
theorem repeatFrom_greedy (hheads : step.headsConsume = true)
    (hmoves : MovesOn rules step input)
    (count : Nat) (sofar : Outcome) (ctx : Context input) (hsofar : sofar.success = true)
    (h : repeatFrom (runWithin rules levels) self step.healed 0 count sofar ctx = some reply) :
    reply.1.success = true ∧ ∃ steps last, InRow rules (List.replicate steps step) ctx last
      ∧ SharesLog last reply.2 ∧ ∀ after, ¬Succeeds rules step last after := by
  fun_induction repeatFrom (runWithin rules levels) self step.healed 0 count sofar ctx with
  | case1 count sofar ctx hend =>
    cases h
    refine ⟨by simpa using hsofar, 0, ctx, .nil ctx, .refl ctx, fun after hstep => ?_⟩
    have hmoved := hmoves ctx after hstep
    have hstayed := place_of_atEnd hend hstep
    omega
  | case2 => cases h
  | case3 count sofar ctx hinside place transaction opened hopen outcome between hround hmatched
      hprogress ih =>
    cases hopen
    -- the further steps make a row in a context that shares the log, so one step more stands in
    -- front of them
    obtain ⟨hsuccess, steps, last, hrow, hlast, hnone⟩ :=
      ih (by rw [Outcome.success_merge, hmatched]) h
    rcases round_comesTo hheads hround with ⟨_, after, hstep, hshared⟩ | ⟨hfailed, _⟩
    · obtain ⟨found, hfound, hends⟩ := hrow.shared hshared.symm
      refine ⟨hsuccess, steps + 1, found, .cons hstep hfound, hends.symm.trans hlast, ?_⟩
      intro behind hbehind
      obtain ⟨more, hmore, _⟩ := hbehind.shared hends.symm
      exact hnone more hmore
    · rw [hmatched] at hfailed
      cases hfailed
  | case4 count sofar ctx hinside place transaction opened hopen outcome between hround hmatched
      hstuck =>
    cases hopen
    rcases round_comesTo hheads hround with ⟨_, after, hstep, hshared⟩ | ⟨hfailed, _⟩
    · -- a step that matches has moved on, so the loop is not stuck
      have hmoved := hmoves ctx after hstep
      rw [hshared.place] at hmoved
      exact absurd hmoved hstuck
    · rw [hmatched] at hfailed
      cases hfailed
  | case5 count sofar ctx hinside place transaction opened hopen outcome between hround hfailed
      hmade =>
    cases hopen
    rcases round_comesTo hheads hround with ⟨hsuccess, _⟩ | ⟨_, hstayed, _⟩
    · exact absurd hsuccess hfailed
    · rw [Progress.isMade_between, decide_eq_true_eq] at hmade
      -- a healed step that fails is taken back, so it has got no further
      change ctx.place < between.place at hmade
      omega
  | case6 count sofar ctx hinside place transaction opened hopen outcome between hround hfailed
      hnone =>
    cases hopen
    cases h
    rcases round_comesTo hheads hround with ⟨hsuccess, _⟩ | ⟨_, _, hshared, hnever⟩
    · exact absurd hsuccess hfailed
    · exact ⟨by simp [Outcome.withSuccess], 0, ctx, .nil ctx, hshared, hnever⟩

/-- A loop comes to a reply if its round does, and what is left if the round moves on. -/
theorem exists_repeatFrom_of_round {run : Runner input} {child : Grammar} {least count : Nat}
    {sofar : Outcome} (hinside : ¬ctx.atEnd = true)
    (hround : run child ctx.start.2 = some (outcome, between))
    (hmore : outcome.success = true → ∃ reply, repeatFrom run self child least (count + 1)
      (sofar.merge outcome) (between.commit ctx.start.1) = some reply) :
    ∃ reply, repeatFrom run self child least count sofar ctx = some reply := by
  unfold repeatFrom
  rw [dif_neg hinside]
  dsimp only
  rw [hround]
  dsimp only
  split
  case isTrue hsuccess =>
    split
    · exact hmore hsuccess
    · exact ⟨_, rfl⟩
  case isFalse =>
    split
    · exact ⟨_, rfl⟩
    · exact ⟨_, rfl⟩

/-- A loop over a healed step that moves on comes to a reply, if the step does behind each
row of steps. -/
theorem repeatFrom_answers (hheads : step.headsConsume = true)
    (hmoves : MovesOn rules step input) (ctx : Context input)
    (hsteps : ∀ steps last, InRow rules (List.replicate steps step) ctx last →
      last.place < input.size → ∃ reply, Evaluates rules step last reply) :
    ∃ enough, ∀ levels, enough ≤ levels → ∀ count sofar other, SharesLog ctx other →
      ∃ reply, repeatFrom (runWithin rules levels) self step.healed 0 count sofar other
        = some reply := by
  induction hleft : input.size - ctx.place using Nat.strongRecOn generalizing ctx with
  | ind left ih =>
  by_cases hend : input.size ≤ ctx.place
  · refine ⟨0, fun levels _ count sofar other hshared => ?_⟩
    have hother : other.atEnd = true := by simpa [atEnd, hshared.place] using hend
    unfold repeatFrom
    exact ⟨_, dif_pos hother⟩
  · have hreply := hsteps 0 ctx (.nil ctx) (by omega)
    obtain ⟨⟨outcome, after⟩, enough, hrun⟩ := healed_answers hheads hreply
    -- levels enough for what is left behind the match of the round, if there is one
    obtain ⟨more, hmore⟩ : ∃ more, outcome.success = true → ∀ levels, more ≤ levels →
        ∀ count sofar other, SharesLog after other → ∃ reply,
          repeatFrom (runWithin rules levels) self step.healed 0 count sofar other
            = some reply := by
      cases healed_comesTo hheads ⟨enough, hrun⟩ with
      | @kept found _ hstep hfound =>
        have hmoved := hmoves ctx found hstep
        obtain ⟨more, hmore⟩ := ih (input.size - found.place) (by omega) found
          (fun steps last hrow => hsteps (steps + 1) last (.cons hstep hrow)) rfl
        exact ⟨more, fun _ levels hle count sofar other hother =>
          hmore levels hle count sofar other (hfound.trans hother)⟩
      | undone hfailed =>
        refine ⟨0, fun hsuccess => ?_⟩
        rw [hsuccess] at hfailed
        cases hfailed
    refine ⟨max enough more, fun levels hle count sofar other hshared => ?_⟩
    have hinside : ¬other.atEnd = true := by simpa [atEnd, hshared.place] using hend
    have hround := runWithin_mono (by omega : enough ≤ levels) hrun
    obtain ⟨last, hlast, hafter⟩ := run_shared hround (hshared.trans (sharesLog_start other))
    apply exists_repeatFrom_of_round hinside hlast
    intro hsuccess
    exact hmore hsuccess levels (by omega) _ _ _ (hafter.trans (sharesLog_commit last _))

end Loop

-- ========================================================== the list

/-- An item, and then a number of times a separator and an item. -/
def chain (item separator : Grammar) (steps : Nat) : List Grammar :=
  item :: (List.replicate steps [separator, item]).flatten

variable {item separator : Grammar}

/-- A row of pairs is a row of separators and items in turn. -/
theorem inRow_replicate {steps : Nat} :
    InRow rules (List.replicate steps (separator + item)) ctx after
      ↔ InRow rules (List.replicate steps [separator, item]).flatten ctx after := by
  induction steps generalizing ctx with
  | zero => rfl
  | succ steps ih =>
    rw [List.replicate_succ, List.replicate_succ, List.flatten_cons, inRow_append,
      ← List.singleton_append, inRow_append]
    simp only [inRow_single, ih]
    exact exists_congr fun between => and_congr_left' succeeds_sequence

/-- A sequence starts as its first parts do, and these consume if those of each grammar do. -/
theorem headsConsume_sequence (h : ∀ grammar ∈ rest, grammar.headsConsume = true) :
    (sequence rest).headsConsume = true := by
  have hparts : ∀ part ∈ rest.flatMap parts, part.headsConsume = true := by
    intro part hmem
    obtain ⟨grammar, hgrammar, hpart⟩ := List.mem_flatMap.mp hmem
    have hheads := h grammar hgrammar
    unfold parts at hpart
    split at hpart
    · unfold headsConsume at hheads
      exact allHeadsConsume_iff.mp hheads part hpart
    · rwa [List.mem_singleton.mp hpart]
  unfold sequence
  split
  case h_1 single hsingle =>
    rw [hsingle] at hparts
    exact hparts single List.mem_cons_self
  case h_2 =>
    unfold headsConsume
    exact allHeadsConsume_iff.mpr hparts

/-- A row of steps behind which no step follows is the longest. -/
theorem steps_le {steps more : Nat} (h : InRow rules (List.replicate steps grammar) ctx after)
    (hnone : ∀ behind, ¬Succeeds rules grammar after behind)
    (hother : InRow rules (List.replicate more grammar) ctx last) : more ≤ steps := by
  by_contra hlonger
  obtain ⟨extra, rfl⟩ : ∃ extra, more = steps + (extra + 1) := ⟨more - steps - 1, by omega⟩
  rw [List.replicate_add, inRow_append] at hother
  obtain ⟨between, hfront, hback⟩ := hother
  obtain rfl := h.unique hfront
  obtain _ | ⟨hbehind, _⟩ := hback
  exact hnone _ hbehind

/-- A repetition of healed steps is the loop, with no match required. -/
theorem many_comesTo (hheads : grammar.headsConsume = true)
    (hmoves : MovesOn rules grammar input)
    (h : Evaluates rules (.many grammar.healed 0) ctx reply) :
    reply.1.success = true ∧ ∃ steps last, InRow rules (List.replicate steps grammar) ctx last
      ∧ SharesLog last reply.2 ∧ ∀ after, ¬Succeeds rules grammar last after := by
  obtain ⟨levels, hrun⟩ := h
  obtain ⟨below, hrun⟩ := runLevel_of_runWithin hrun
  change repeatFrom _ _ _ 0 0 _ ctx = _ at hrun
  exact repeatFrom_greedy hheads hmoves 0 _ ctx rfl hrun

/-- A repetition of healed steps answers if the loop does. -/
theorem many_answers (hheads : grammar.headsConsume = true)
    (hmoves : MovesOn rules grammar input)
    (hsteps : ∀ steps last, InRow rules (List.replicate steps grammar) ctx last →
      last.place < input.size → ∃ reply, Evaluates rules grammar last reply) :
    ∃ reply, Evaluates rules (.many grammar.healed 0) ctx reply := by
  obtain ⟨enough, hloop⟩ := repeatFrom_answers hheads hmoves ctx hsteps
  obtain ⟨reply, hreply⟩ := hloop enough (Nat.le_refl _) 0 (.matched ctx.place) ctx (.refl ctx)
  exact ⟨reply, evaluates_of_runLevel hreply⟩

/-- What a list comes to. -/
theorem sepBy1_comesTo (hheads : (separator + item).headsConsume = true)
    (hmoves : MovesOn rules (separator + item) input)
    (h : Evaluates rules (item.sepBy1 separator) ctx reply) :
    (reply.1.success = true ∧ ∃ steps last, InRow rules (chain item separator steps) ctx last
        ∧ SharesLog last reply.2 ∧ ∀ after, ¬InRow rules [separator, item] last after)
      ∨ reply.1.success = false ∧ ∀ after, ¬Succeeds rules item ctx after := by
  rcases sequence_comesTo h with ⟨hsuccess, hrow⟩ | ⟨hfailed, hbreaks⟩
  · obtain _ | ⟨hfirst, hmany⟩ := hrow
    obtain ⟨outcome, hmany, _⟩ := inRow_single.mp hmany
    obtain ⟨_, steps, last, hsteps, hshared, hnone⟩ := many_comesTo hheads hmoves hmany
    refine .inl ⟨hsuccess, steps, last, .cons hfirst (inRow_replicate.mp hsteps), hshared, ?_⟩
    exact fun after hstep => hnone after (succeeds_sequence.mpr hstep)
  · refine .inr ⟨hfailed, fun after hitem => ?_⟩
    rw [List.flatMap_cons] at hbreaks
    rcases breaksOff_append hbreaks with hbreaks | ⟨between, _, hmany⟩
    · exact hbreaks.not_inRow (inRow_parts.mpr hitem)
    · -- the loop does not fail
      obtain ⟨reply, heval, hfailed⟩ | ⟨_, ⟨⟩⟩ := hmany
      rw [(many_comesTo hheads hmoves heval).1] at hfailed
      cases hfailed

/-- A list comes to a reply if its first item does, and what may follow does behind each
item up to the end of the tokens. -/
theorem sepBy1_answers (hheads : (separator + item).headsConsume = true)
    (hmoves : MovesOn rules (separator + item) input)
    (hitem : ∃ reply, Evaluates rules item ctx reply)
    (hsteps : ∀ steps last, InRow rules (chain item separator steps) ctx last →
      last.place < input.size → ∃ reply, Evaluates rules (separator + item) last reply) :
    ∃ reply, Evaluates rules (item.sepBy1 separator) ctx reply := by
  obtain ⟨⟨outcome, first⟩, hfirst⟩ := hitem
  cases hsuccess : outcome.success with
  | false =>
    apply sequence_answers
    exact (breaksOff_parts ⟨_, hfirst, hsuccess⟩).append _
  | true =>
    have hsucceeds : Succeeds rules item ctx first := ⟨outcome, hfirst, hsuccess⟩
    obtain ⟨⟨result, last⟩, hmany⟩ := many_answers hheads hmoves fun steps last hrow hinside =>
      hsteps steps last (.cons hsucceeds (inRow_replicate.mp hrow)) hinside
    have hrow : InRow rules [item, .many (separator + item).healed 0] ctx last :=
      .cons hsucceeds (inRow_single.mpr ⟨result, hmany, (many_comesTo hheads hmoves hmany).1⟩)
    obtain ⟨all, heval, _⟩ := succeeds_sequence.mpr hrow
    exact ⟨_, heval⟩

/-- A separator that is a token moves on, whatever the item. -/
theorem movesOn_token (rules : RuleTable) (kind : TokenKind) (item : Grammar) (input : Input) :
    MovesOn rules (.token kind + item) input := by
  intro ctx after h
  obtain _ | ⟨hseparator, hitem⟩ := succeeds_sequence.mp h
  obtain ⟨outcome, ⟨levels, hrun⟩, hsuccess⟩ := hseparator
  obtain ⟨_, ⟨more, hmore⟩, _⟩ := inRow_single.mp hitem
  obtain ⟨below, hrun⟩ := runLevel_of_runWithin hrun
  have hmoved := (matched_single hrun hsuccess).2.2
  have hlater := (extends_runWithin rules more _ _ _ hmore).place_le
  dsimp only at hlater
  omega

-- ==================================================== the statement

/-- A list succeeds just if its first item does. It then ends behind the last item of
the longest row of items with separators between them, with the log of that row: what
follows is no separator and item, and a separator alone is left. It comes to a reply if
the items and the separators do. -/
theorem sepBy1_greedy (rules : RuleTable) (item separator : Grammar)
    (hitem : item.headsConsume = true) (hseparator : separator.headsConsume = true)
    (input : Input) (hmoves : MovesOn rules (separator + item) input) (ctx : Context input) :
    (∀ reply, Evaluates rules (item.sepBy1 separator) ctx reply →
        (reply.1.success = true ↔ ∃ first, Succeeds rules item ctx first)
          ∧ (reply.1.success = true → ∃ steps last,
            InRow rules (chain item separator steps) ctx last
              ∧ reply.2.place = last.place ∧ reply.2.events = last.events
              ∧ (∀ after, ¬InRow rules [separator, item] last after)
              ∧ ∀ more other, InRow rules (chain item separator more) ctx other → more ≤ steps))
      ∧ ((∃ reply, Evaluates rules item ctx reply) →
          (∀ steps last, InRow rules (chain item separator steps) ctx last →
            last.place < input.size → ∃ reply, Evaluates rules (separator + item) last reply) →
          ∃ reply, Evaluates rules (item.sepBy1 separator) ctx reply) := by
  have hheads : (separator + item).headsConsume = true := by
    apply headsConsume_sequence
    intro grammar hmem
    rcases List.mem_cons.mp hmem with rfl | hmem
    · exact hseparator
    · rwa [List.mem_singleton.mp hmem]
  refine ⟨fun reply heval => ?_, fun hfirst hsteps => sepBy1_answers hheads hmoves hfirst hsteps⟩
  rcases sepBy1_comesTo hheads hmoves heval with
    ⟨hsuccess, steps, last, hrow, hshared, hnone⟩ | ⟨hfailed, hnever⟩
  · have hlongest : ∀ more other, InRow rules (chain item separator more) ctx other →
        more ≤ steps := by
      rintro more other (_ | ⟨hagain, hothers⟩)
      obtain _ | ⟨hfirst, hrest⟩ := hrow
      -- both chains start with the same item, so the further steps can be counted from there
      obtain rfl := hfirst.unique hagain
      apply steps_le (inRow_replicate.mpr hrest) _ (inRow_replicate.mpr hothers)
      exact fun behind hstep => hnone behind (succeeds_sequence.mp hstep)
    refine ⟨iff_of_true hsuccess ?_, fun _ => ⟨steps, last, hrow, hshared.place.symm,
      hshared.events_eq.symm, hnone, hlongest⟩⟩
    obtain _ | ⟨hfirst, _⟩ := hrow
    exact ⟨_, hfirst⟩
  · have hnot : ¬reply.1.success = true := by simp [hfailed]
    exact ⟨iff_of_false hnot fun ⟨first, hfirst⟩ => hnever first hfirst, fun h => absurd h hnot⟩

/-- Two names with commas behind them. -/
def twoNames : Input :=
  .ofTokens "x,y," [.raw ⟨.lower, ⟨1, 1, 0⟩, ⟨1, 2, 1⟩⟩, .raw ⟨.comma, ⟨1, 2, 1⟩, ⟨1, 3, 2⟩⟩,
    .raw ⟨.lower, ⟨1, 3, 2⟩, ⟨1, 4, 3⟩⟩, .raw ⟨.comma, ⟨1, 4, 3⟩, ⟨1, 5, 4⟩⟩]

/-- Applications with commas between them: the list ends behind the second, and its comma
is left. -/
theorem sepBy1_greedy_twoNames :
    let item : Grammar := .fold .exprApp (.token .lower) (.token .int)
    item.headsConsume = true ∧ (token .comma).headsConsume = true
      ∧ MovesOn (fun _ => none) (.token .comma + item) twoNames
      ∧ ∃ reply, Evaluates (fun _ => none) (item.sepBy1 (.token .comma))
          (Context.initial twoNames) reply
        ∧ reply.1.success = true ∧ reply.2.place = 3
        ∧ ∃ steps last, InRow (fun _ => none) (chain item (.token .comma) steps)
            (Context.initial twoNames) last
          ∧ reply.2.place = last.place ∧ reply.2.events = last.events
          ∧ (∀ after, ¬InRow (fun _ => none) [.token .comma, item] last after)
          ∧ ∀ more other, InRow (fun _ => none) (chain item (.token .comma) more)
            (Context.initial twoNames) other → more ≤ steps := by
  intro item
  have hmoves := movesOn_token (fun _ => none) .comma item twoNames
  have hrun : (runWithin (fun _ => none) 6 (item.sepBy1 (.token .comma))
      (Context.initial twoNames)).map (fun reply => (reply.1.success, reply.2.place))
        = some (true, 3) := by
    decide +kernel
  obtain ⟨reply, hreply, hends⟩ := Option.map_eq_some_iff.mp hrun
  obtain ⟨hsuccess, hplace⟩ := Prod.mk.inj hends
  obtain ⟨hcomesTo, _⟩ := sepBy1_greedy (fun _ => none) item (.token .comma) rfl rfl twoNames hmoves
    (Context.initial twoNames)
  exact ⟨rfl, rfl, hmoves, reply, ⟨6, hreply⟩, hsuccess, hplace,
    (hcomesTo reply ⟨6, hreply⟩).2 hsuccess⟩

end Grammar

end Offside
