import Offside.Proofs.Parse.Starts

/-!
What a run leaves behind in the context.

A run closes what it opens, innermost first, and only adds to the log: that is
`Context.Extends`, which every run keeps. Here it is put together with what is
said of single forms. Failing to attempt or to heal leaves nothing behind, nor
does a guard that rejects; and inside an attempt nothing is recovered.

# Recovery

Nothing of what a run logs tells an error node of recovery from one that a
grammar asks for. So of a run inside an attempt it is said that it is the run of
another evaluation, `runPlain`, which has no recovery at all: the two forms that
recover are their children there. Both evaluations go side by side in contexts
that are the same and speculative, which is a `Likeness`.
-/

namespace Offside

variable {input : Input}

-- ====================================================== the forms

namespace Form

variable {run : Runner input} {ctx after : Context input} {outcome : Outcome}
  {self child : Grammar}

/-- Taking back a child that fails restores the context. -/
theorem whole_restores (hrun : Extending run) (h : whole run self child ctx = some (outcome, after))
    (hfailed : outcome.success = false) : after = { ctx with nextId := after.nextId } := by
  obtain ⟨step, between, hchild, ⟨hsuccess, rfl, _⟩ | ⟨_, _, rfl⟩⟩ := whole_cases h
  · rw [hfailed] at hsuccess
    cases hsuccess
  · exact Context.rollback_eq (hrun _ _ _ hchild)

/-- Failing to heal restores the context. -/
theorem heal_restores (hrun : Extending run) (h : heal run self child ctx = some (outcome, after))
    (hfailed : outcome.success = false) : after = { ctx with nextId := after.nextId } := by
  unfold heal at h
  split at h
  · exact whole_restores hrun h hfailed
  · cases h
    rfl

/-- A failed attempt restores the context. -/
theorem attempt_restores (hrun : Extending run)
    (h : attempt run self child ctx = some (outcome, after)) (hfailed : outcome.success = false) :
    after = { ctx with nextId := after.nextId } := by
  rw [attempt_eq_heal] at h
  obtain ⟨⟨step, between⟩, hheal, hreply⟩ := Option.map_eq_some_iff.mp h
  cases hreply
  rw [heal_restores hrun hheal hfailed]
  rfl

/-- A guard that rejects what its child has matched restores the context. -/
theorem guard_restores (hrun : Extending run) {message : String} {accepts : String → Bool}
    (h : guard run self child message accepts ctx = some (outcome, after)) :
    ∃ step between, run child ctx.start.2 = some (step, between)
      ∧ (step.success = true → accepts (input.textBetween ctx.place between.place) = false →
        outcome.success = false ∧ after = { ctx with nextId := after.nextId }) := by
  unfold guard at h
  dsimp only at h
  obtain ⟨step, between, hchild, h⟩ := reply_bind h
  refine ⟨step, between, hchild, fun hmatched hrejects => ?_⟩
  rw [if_pos hmatched, if_neg (by rw [hrejects]; exact Bool.false_ne_true)] at h
  cases h
  exact ⟨rfl, Context.rollback_eq (hrun _ _ _ hchild)⟩

end Form

-- ========================================== inside an attempt

mutual

/-- Without recovery nothing is reported. -/
theorem Log.not_reports {first last : Nat} {log : List Event} {pieces : List Piece}
    (diagnostic : Diagnostic) :
    Log input false first last log pieces → .report diagnostic ∉ log
  | .nil _ | .blank _ | .token _ => by simp [Event.blank]
  | .append earlier later => fun h => (List.mem_append.mp h).elim
      (earlier.not_reports diagnostic) (later.not_reports diagnostic)
  | .node chain => by
    obtain ⟨hfront, hback⟩ := chain.not_reports diagnostic
    simp [hfront, hback]

/-- A speculative run logs no report, in front of its wrappers or behind them. -/
theorem Chain.not_reports {first last : Nat} {front back : List Event} {kind : NodeKind}
    {piece : Piece} (diagnostic : Diagnostic) :
    Chain input false first last front kind back piece →
      .report diagnostic ∉ front ∧ .report diagnostic ∉ back
  | .node _ body => by simp [body.not_reports diagnostic]
  | .wrap _ chain body => by
    obtain ⟨hfront, hback⟩ := chain.not_reports diagnostic
    simp [hfront, hback, body.not_reports diagnostic]

end

/-- Being one and the same context, inside an attempt, as a likeness. -/
def Likeness.speculating (input : Input) : Likeness input where
  Rel ctx other := ctx = other ∧ ctx.inAttempt = true
  Marked index another := index = another
  place h := by rw [h.1]
  inAttempt h := by rw [h.1]
  start h := ⟨by rw [h.1], h.2⟩
  mark h := ⟨by rw [h.1], h.2⟩
  marked h := by rw [h.1]
  advance h := ⟨by rw [h.1], (Context.inAttempt_advance _).trans h.2⟩
  report _ h := ⟨by rw [h.1], h.2⟩
  commit h hafter := ⟨by rw [h.1, hafter.1], hafter.2⟩
  rollback h hafter := ⟨by rw [h.1, hafter.1], hafter.2⟩
  speculate h := ⟨by rw [h.1], rfl⟩
  restore h hafter := ⟨by rw [h.1, hafter.1], h.2⟩
  complete {_ _ marker another} kind h hmarker := ⟨by
    obtain rfl : marker = another := congrArg Marker.mk hmarker
    rw [h.1], h.2⟩
  abandon {_ _ marker another} h hmarker := ⟨by
    obtain rfl : marker = another := congrArg Marker.mk hmarker
    rw [h.1], h.2⟩
  precede {_ _ done finished} h hdone := ⟨by
    obtain rfl : done = finished := congrArg CompletedMarker.mk hdone
    rw [h.1], h.2⟩

namespace Grammar

/-- One level of a run without recovery: what would recover is its child. -/
def plainLevel (rules : RuleTable) (run : Runner input) (grammar : Grammar) (ctx : Context input) :
    Reply input :=
  match grammar with
  | .relax _ child | .relaxTo _ child _ => run child ctx
  | grammar => runLevel rules run grammar ctx

/-- A run without recovery. -/
def runPlain (rules : RuleTable) : Nat → Runner input
  | 0, _, _ => none
  | levels + 1, grammar, ctx => plainLevel rules (runPlain rules levels) grammar ctx

/-- Inside an attempt what would recover is its child. -/
theorem runLevel_eq_plainLevel (rules : RuleTable) (run : Runner input) (grammar : Grammar)
    {ctx : Context input} (h : ctx.inAttempt = true) :
    runLevel rules run grammar ctx = plainLevel rules run grammar ctx := by
  unfold plainLevel
  split
  · show Form.relax run _ _ ctx = _
    unfold Form.relax Form.orRecover
    rw [if_pos h]
  · show Form.relaxTo run _ _ _ ctx = _
    unfold Form.relaxTo Form.orRecover
    rw [if_pos h]
  · rfl

/-- Inside an attempt one level of a run looks at the runs below inside an attempt
only. -/
theorem runLevel_congr {run rerun : Runner input} (hextending : Extending run)
    (hsame : ∀ (grammar : Grammar) (ctx : Context input), ctx.inAttempt = true →
      run grammar ctx = rerun grammar ctx)
    (rules : RuleTable) (grammar : Grammar) {ctx : Context input} (h : ctx.inAttempt = true) :
    runLevel rules run grammar ctx = runLevel rules rerun grammar ctx := by
  -- a simulation goes one way, from an answer to the same answer, so it takes two
  have hto : (Likeness.speculating input).Simulates run rerun := by
    rintro grammar ctx _ ⟨rfl, hflag⟩ outcome after hrun
    exact ⟨outcome, after, (hsame grammar ctx hflag).symm.trans hrun, rfl, rfl,
      (hextending _ _ _ hrun).inAttempt.trans hflag⟩
  have hfro : (Likeness.speculating input).Simulates rerun run := by
    rintro grammar ctx _ ⟨rfl, hflag⟩ outcome after hrerun
    have hrun := (hsame grammar ctx hflag).trans hrerun
    exact ⟨outcome, after, hrun, rfl, rfl, (hextending _ _ _ hrun).inAttempt.trans hflag⟩
  apply Option.ext
  rintro ⟨outcome, after⟩
  constructor
  · intro hrun
    obtain ⟨_, _, hrerun, rfl, rfl, _⟩ :=
      Likeness.simulates_runLevel hto rules grammar ctx ctx ⟨rfl, h⟩ _ _ hrun
    exact hrerun
  · intro hrerun
    obtain ⟨_, _, hrun, rfl, rfl, _⟩ :=
      Likeness.simulates_runLevel hfro rules grammar ctx ctx ⟨rfl, h⟩ _ _ hrerun
    exact hrun

/-- Inside an attempt a run is one without recovery. -/
theorem runWithin_eq_runPlain (rules : RuleTable) (levels : Nat) (grammar : Grammar)
    (ctx : Context input) (h : ctx.inAttempt = true) :
    runWithin rules levels grammar ctx = runPlain rules levels grammar ctx := by
  induction levels generalizing grammar ctx with
  | zero => rfl
  | succ levels ih =>
    rw [runWithin_succ, runLevel_eq_plainLevel rules _ grammar h, runPlain]
    unfold plainLevel
    split
    · exact ih _ ctx h
    · exact ih _ ctx h
    · exact runLevel_congr (extends_runWithin rules levels) ih rules grammar h

/-- Inside an attempt a run reports nothing. -/
theorem run_not_reports {rules : RuleTable} {levels : Nat} {grammar : Grammar}
    {ctx : Context input} {reply : Outcome × Context input} (h : ctx.inAttempt = true)
    (hrun : runWithin rules levels grammar ctx = some reply) :
    ∃ log, reply.2.events.toList = ctx.events.toList ++ log
      ∧ ∀ diagnostic, .report diagnostic ∉ log := by
  obtain ⟨log, pieces, hevents, hlog⟩ := (extends_runWithin rules levels _ _ _ hrun).logged
  rw [h] at hlog
  exact ⟨log, hevents, fun diagnostic => hlog.not_reports diagnostic⟩

-- ==================================================== the statement

/-- A run closes each transaction that it opens while it is the innermost one, and
closes each marker; it does not go back, and leaves what was logged before as it
is. Failing to attempt or to heal restores the context, and so does a guard that
rejects. And inside an attempt there is no recovery and no report. -/
theorem run_disciplined (rules : RuleTable) (levels : Nat) (grammar : Grammar) (input : Input)
    (ctx after : Context input) (outcome : Outcome)
    (hrun : runWithin rules levels grammar ctx = some (outcome, after)) :
    ctx.SameBook after
      ∧ ctx.place ≤ after.place ∧ ctx.events.toList <+: after.events.toList
      ∧ (∀ child, grammar = .attempt child ∨ grammar = .heal child → outcome.success = false →
          after = { ctx with nextId := after.nextId })
      ∧ (∀ child message accepts step, grammar = .guard child message accepts →
          Evaluates rules child ctx step → step.1.success = true →
          accepts (input.textBetween ctx.place step.2.place) = false →
          outcome.success = false ∧ after = { ctx with nextId := after.nextId })
      ∧ (ctx.inAttempt = true → runPlain rules levels grammar ctx = some (outcome, after)
          ∧ ∃ log, after.events.toList = ctx.events.toList ++ log
            ∧ ∀ diagnostic, .report diagnostic ∉ log) := by
  have hextends := extends_runWithin rules levels _ _ _ hrun
  obtain ⟨below, hlevel⟩ := runLevel_of_runWithin hrun
  have hextending : Extending (runWithin rules below : Runner input) :=
    extends_runWithin rules below
  refine ⟨hextends.toSameBook, hextends.place_le, ?_, ?_, ?_, fun h => ?_⟩
  · obtain ⟨log, _, hevents, _⟩ := hextends.logged
    exact ⟨log, hevents.symm⟩
  · rintro child (rfl | rfl) hfailed
    · exact Form.attempt_restores hextending hlevel hfailed
    · exact Form.heal_restores hextending hlevel hfailed
  · rintro child message accepts step rfl hchild hmatched hrejects
    obtain ⟨levels, hstep⟩ := hchild
    obtain ⟨result, between, hbetween, hrestores⟩ := Form.guard_restores hextending hlevel
    -- the child is run in a transaction, which makes no difference to its success and place
    obtain ⟨hsame, hplace⟩ := run_unique hstep hbetween ⟨rfl, rfl, nofun⟩
    refine hrestores (hsame ▸ hmatched) ?_
    rw [hplace]
    exact hrejects
  · exact ⟨(runWithin_eq_runPlain rules levels grammar ctx h).symm.trans hrun,
      run_not_reports h hrun⟩

/-- An attempt at a name and a number that may be missing. -/
def attemptedName : Grammar :=
  .attempt (.seq [.token .lower, .relax "a number is missing" (.token .int)])

/-- Inside an attempt, what is missing behind a name is not recovered, and all is
taken back; and a name that is not allowed is taken back. -/
theorem run_disciplined_name :
    (∃ outcome after, runWithin (fun _ => none) 4 attemptedName
        ((Context.initial nameAndEquals).setInAttempt true) = some (outcome, after)
      ∧ outcome.success = false ∧ after.place = 0 ∧ after.events = #[] ∧ after.transactions = []
      ∧ runPlain (fun _ => none) 4 attemptedName
        ((Context.initial nameAndEquals).setInAttempt true) = some (outcome, after))
      ∧ ∃ outcome after, runWithin (fun _ => none) 4
        (.guard (.token .lower) "not allowed" fun _ => false)
        (Context.initial nameAndEquals) = some (outcome, after)
      ∧ outcome.success = false ∧ after.place = 0 ∧ after.events = #[] := by
  refine ⟨?_, ?_⟩
  · have hrun : (runWithin (fun _ => none) 4 attemptedName
        ((Context.initial nameAndEquals).setInAttempt true)).map (·.1.success) = some false := by
      decide +kernel
    obtain ⟨⟨outcome, after⟩, hreply, hfailed⟩ := Option.map_eq_some_iff.mp hrun
    obtain ⟨hbook, _, _, hrestores, _, hplain⟩ := run_disciplined (fun _ => none) 4 _ nameAndEquals
      _ after outcome hreply
    have hafter := hrestores _ (.inl rfl) hfailed
    exact ⟨outcome, after, hreply, hfailed, by rw [hafter]; rfl, by rw [hafter]; rfl,
      hbook.transactions, (hplain rfl).1⟩
  · have hrun : (runWithin (fun _ => none) 3 (.token .lower) (Context.initial nameAndEquals)).map
        (·.1.success) = some true := by
      decide +kernel
    obtain ⟨step, hstep, hmatched⟩ := Option.map_eq_some_iff.mp hrun
    have hguard : (runWithin (fun _ => none) 4 (.guard (.token .lower) "not allowed" fun _ => false)
        (Context.initial nameAndEquals)).isSome = true := by
      decide +kernel
    obtain ⟨⟨outcome, after⟩, hreply⟩ := Option.isSome_iff_exists.mp hguard
    obtain ⟨_, _, _, _, hrejects, _⟩ := run_disciplined (fun _ => none) 4 _ nameAndEquals
      _ after outcome hreply
    obtain ⟨hfailed, hafter⟩ := hrejects _ _ _ step rfl ⟨3, hstep⟩ hmatched rfl
    exact ⟨outcome, after, hreply, hfailed, by rw [hafter]; rfl, by rw [hafter]; rfl⟩

end Grammar

end Offside
