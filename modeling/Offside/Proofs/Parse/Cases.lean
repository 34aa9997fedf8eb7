import Offside.Proofs.Parse.Matched

/-!
Runs of some forms, taken apart.

Each lemma takes a run that has come to a reply and says how: which runs of the
children it was made of, and which of its branches was taken.
-/

namespace Offside

variable {input : Input} {rules : RuleTable} {levels : Nat} {ctx after : Context input}
  {outcome : Outcome}

namespace Grammar

/-- A run that answers has at least one level. -/
theorem runLevel_of_runWithin {grammar : Grammar} {reply : Outcome × Context input}
    (h : runWithin rules levels grammar ctx = some reply) :
    ∃ below, runLevel rules (runWithin rules below) grammar ctx = some reply := by
  cases levels with
  | zero => cases h
  | succ below =>
    rw [runWithin_succ] at h
    exact ⟨below, h⟩

/-- A token that stands where it is expected. -/
theorem run_token {kind : TokenKind}
    (h : runWithin rules levels (.token kind) ctx = some (outcome, after))
    (hkind : input.kindAt ctx.place = kind) (heof : kind ≠ .eof) :
    outcome.success = true ∧ after = ctx.advance := by
  have hend : ctx.atEnd = false := by
    have hinside := Input.lt_size_of_kindAt (hkind ▸ heof)
    simpa [Context.atEnd] using hinside
  have hmatch : ctx.isAt kind = true := beq_iff_eq.mpr hkind
  obtain ⟨below, h⟩ := runLevel_of_runWithin h
  change some (Form.single (.token kind) (ctx.isAt kind) ctx) = _ at h
  unfold Form.single at h
  rw [hend, hmatch] at h
  cases h
  exact ⟨rfl, rfl⟩

end Grammar

theorem Context.events_advance (h : ctx.place < input.size) :
    ctx.advance.events.toList = ctx.events.toList ++ [.token ctx.place] := by
  unfold advance atEnd
  rw [if_neg (by simpa using h)]
  exact Array.toList_push

namespace Form

variable {run : Runner input}

/-- The first part of a sequence, and the rest if it matches. -/
theorem seq_cases {sofar : Outcome} {part : Grammar} {rest : List Grammar}
    (h : seq run sofar (part :: rest) ctx = some (outcome, after)) :
    ∃ step between, run part ctx = some (step, between) ∧
      (step.success = true ∧ seq run (sofar.merge step) rest between = some (outcome, after)
        ∨ step.success = false ∧ outcome.success = false ∧ after = between) := by
  unfold seq at h
  obtain ⟨step, between, hpart, h⟩ := reply_bind h
  refine ⟨step, between, hpart, ?_⟩
  dsimp only at h
  rw [Outcome.success_merge] at h
  cases hsuccess : step.success with
  | true =>
    rw [if_pos hsuccess] at h
    exact .inl ⟨rfl, h⟩
  | false =>
    rw [if_neg (by rw [hsuccess]; exact Bool.false_ne_true)] at h
    cases h
    exact .inr ⟨rfl, by rw [Outcome.success_merge, hsuccess], rfl⟩

/-- The first part of a sequence, and the rest once it is known to match. -/
theorem seq_next {sofar : Outcome} {part : Grammar} {rest : List Grammar}
    (h : seq run sofar (part :: rest) ctx = some (outcome, after)) :
    ∃ step between, run part ctx = some (step, between) ∧
      (step.success = true → seq run (sofar.merge step) rest between = some (outcome, after)) := by
  obtain ⟨step, between, hpart, hcases⟩ := seq_cases h
  refine ⟨step, between, hpart, fun hmatched => ?_⟩
  rcases hcases with ⟨_, hrest⟩ | ⟨hfailed, _⟩
  · exact hrest
  · cases hmatched.symm.trans hfailed

/-- The first part of a sequence that matches, and the rest of it. -/
theorem seq_matched {sofar : Outcome} {part : Grammar} {rest : List Grammar}
    (h : seq run sofar (part :: rest) ctx = some (outcome, after))
    (hsuccess : outcome.success = true) :
    ∃ step between, run part ctx = some (step, between) ∧ step.success = true
      ∧ seq run (sofar.merge step) rest between = some (outcome, after) := by
  obtain ⟨step, between, hpart, ⟨hmatched, hrest⟩ | ⟨_, hfailed, _⟩⟩ := seq_cases h
  · exact ⟨step, between, hpart, hmatched, hrest⟩
  · cases hsuccess.symm.trans hfailed

/-- An alternative that is run at a place neither succeeds nor consumes a token. -/
def GivesUp (run : Runner input) (ctx : Context input) (alternative : Grammar) : Prop :=
  ∃ (nextId : Nat) (step : Outcome) (between : Context input),
    run alternative ({ ctx with nextId := nextId } : Context input).start.2 = some (step, between)
      ∧ step.success = false ∧ between.place ≤ ctx.place

section Alternatives

variable {alternative : Grammar} {rest : List Grammar} {sofar : Option Outcome} {step : Outcome}
  {between : Context input}

/-- The first alternative is taken, or the others are tried from where it was taken
back. -/
theorem choose_cons
    (h : choose run sofar (alternative :: rest) ctx = some (outcome, after)) :
    ∃ step between, run alternative ctx.start.2 = some (step, between) ∧
      ((step.success = true ∨ ctx.place < between.place)
          ∧ outcome = joined sofar step ∧ after = between.commit ctx.start.1
        ∨ (step.success = false ∧ between.place ≤ ctx.place)
          ∧ choose run (some (joined sofar step)) rest (between.rollback ctx.start.1)
            = some (outcome, after)) := by
  unfold choose at h
  dsimp only at h
  obtain ⟨step, between, hfirst, h⟩ := reply_bind h
  rw [Progress.isMade_between] at h
  refine ⟨step, between, hfirst, ?_⟩
  split at h
  case isTrue htaken =>
    cases h
    exact .inl ⟨by simpa using htaken, rfl, rfl⟩
  case isFalse hleft =>
    exact .inr ⟨by simpa using hleft, h⟩

/-- An alternative that matched or moved on is the choice. -/
theorem choose_of_taken (hrun : run alternative ctx.start.2 = some (step, between))
    (htaken : step.success = true ∨ ctx.place < between.place) :
    choose run sofar (alternative :: rest) ctx
      = some (joined sofar step, between.commit ctx.start.1) := by
  have htakes : (step.success || decide (ctx.place < between.place)) = true := by
    simpa using htaken
  unfold choose
  dsimp only
  rw [hrun]
  dsimp only
  rw [Progress.isMade_between, if_pos htakes]

/-- An alternative that failed at its start is taken back, and the others are tried. -/
theorem choose_of_left (hrun : run alternative ctx.start.2 = some (step, between))
    (hleft : step.success = false ∧ between.place ≤ ctx.place) :
    choose run sofar (alternative :: rest) ctx
      = choose run (some (joined sofar step)) rest (between.rollback ctx.start.1) := by
  have hleaves : (step.success || decide (ctx.place < between.place)) = false := by
    simpa using hleft
  conv_lhs => unfold choose
  dsimp only
  rw [hrun]
  dsimp only
  rw [Progress.isMade_between, hleaves, if_neg Bool.false_ne_true]

end Alternatives

/-- A choice is the first of its alternatives that does not give up. -/
theorem choose_cases (hrun : Extending run) (alternatives : List Grammar) :
    ∀ (sofar : Option Outcome) (ctx : Context input),
      (∀ earlier, sofar = some earlier → earlier.success = false) →
      choose run sofar alternatives ctx = some (outcome, after) →
      (∃ (before : List Grammar) (alternative : Grammar) (behind : List Grammar) (nextId : Nat)
          (step : Outcome) (between : Context input),
        alternatives = before ++ alternative :: behind
          ∧ (∀ other ∈ before, GivesUp run ctx other)
          ∧ run alternative ({ ctx with nextId := nextId } : Context input).start.2
            = some (step, between)
          ∧ (step.success = true ∨ ctx.place < between.place)
          ∧ outcome.success = step.success ∧ after.place = between.place
          ∧ after.events = between.events)
        ∨ (∀ other ∈ alternatives, GivesUp run ctx other) ∧ outcome.success = false
          ∧ ∃ nextId, after = { ctx with nextId := nextId } := by
  induction alternatives with
  | nil =>
    intro sofar ctx hsofar h
    cases h
    refine .inr ⟨nofun, ?_, after.nextId, rfl⟩
    cases sofar with
    | none => rfl
    | some earlier => exact hsofar earlier rfl
  | cons alternative rest ih =>
    intro sofar ctx hsofar h
    obtain ⟨step, between, hfirst, ⟨htaken, rfl, rfl⟩ | ⟨⟨hfailed, hstayed⟩, h⟩⟩ := choose_cons h
    · exact .inl ⟨[], alternative, rest, ctx.nextId, step, between, rfl, nofun, hfirst, htaken,
        success_joined sofar step, rfl, rfl⟩
    · have hgivesUp : GivesUp run ctx alternative :=
        ⟨ctx.nextId, step, between, hfirst, hfailed, hstayed⟩
      -- only the number of the next transaction tells that an alternative was tried
      have hrollback : between.rollback ctx.start.1 = { ctx with nextId := between.nextId } :=
        Context.rollback_eq (hrun _ _ _ hfirst)
      have hjoined : ∀ earlier, some (joined sofar step) = some earlier →
          earlier.success = false := by
        rintro _ ⟨⟩
        rw [success_joined, hfailed]
      rw [hrollback] at h
      rcases ih _ { ctx with nextId := between.nextId } hjoined h with
        ⟨before, taken, behind, nextId, result, last, hsplit, hbefore, htaken⟩ | ⟨hall, hlast⟩
      · refine .inl ⟨alternative :: before, taken, behind, nextId, result, last,
          by rw [hsplit]; rfl, ?_, htaken⟩
        exact List.forall_mem_cons.mpr ⟨hgivesUp, hbefore⟩
      · exact .inr ⟨List.forall_mem_cons.mpr ⟨hgivesUp, hall⟩, hlast⟩

/-- Taking back: the child matches, or the run fails. -/
theorem whole_cases {self child : Grammar}
    (h : whole run self child ctx = some (outcome, after)) :
    ∃ step between, run child ctx.start.2 = some (step, between) ∧
      (step.success = true ∧ outcome = step ∧ after = between.commit ctx.start.1
        ∨ step.success = false ∧ outcome.success = false
          ∧ after = between.rollback ctx.start.1) := by
  unfold whole at h
  dsimp only at h
  obtain ⟨step, between, hchild, h⟩ := reply_bind h
  refine ⟨step, between, hchild, ?_⟩
  cases hsuccess : step.success with
  | true =>
    rw [if_pos hsuccess] at h
    cases h
    exact .inl ⟨rfl, rfl, rfl⟩
  | false =>
    rw [if_neg (by rw [hsuccess]; exact Bool.false_ne_true)] at h
    cases h
    refine .inr ⟨rfl, ?_, rfl⟩
    split
    · rfl
    · exact hsuccess

/-- What is optional matches, or leaves no trace. -/
theorem optional_cases {child : Grammar}
    (h : optional run child ctx = some (outcome, after)) :
    ∃ step between, run child ctx.start.2 = some (step, between) ∧
      (step.success = true ∧ outcome = step ∧ after = between.commit ctx.start.1
        ∨ step.success = false ∧ (between.place ≤ ctx.place →
          outcome.success = true ∧ after = between.rollback ctx.start.1)) := by
  unfold optional at h
  dsimp only at h
  obtain ⟨step, between, hchild, h⟩ := reply_bind h
  refine ⟨step, between, hchild, ?_⟩
  cases hsuccess : step.success with
  | true =>
    rw [if_pos (by rw [hsuccess]; rfl)] at h
    cases h
    exact .inl ⟨rfl, rfl, rfl⟩
  | false =>
    refine .inr ⟨rfl, fun hplace => ?_⟩
    unfold Progress.between at h
    rw [if_neg (Nat.not_lt_of_le hplace), if_neg (by rw [hsuccess]; exact Bool.false_ne_true)] at h
    cases h
    exact ⟨rfl, rfl⟩

/-- A recovering form: its child matches, or recovery goes on from the start. -/
theorem orRecover_cases (hrun : Extending run) {child : Grammar}
    {recover : Context input → Reply input} (hrecovers : ctx.inAttempt = false)
    (h : orRecover run child recover ctx = some (outcome, after)) :
    (∃ between, run child ctx.start.2 = some (outcome, between) ∧ outcome.success = true
        ∧ after = between.commit ctx.start.1)
      ∨ ∃ (failure : Outcome) (between : Context input) (nextId : Nat),
        run child ctx.start.2 = some (failure, between) ∧ failure.success = false
          ∧ recover { ctx with nextId := nextId } = some (outcome, after) := by
  unfold orRecover at h
  rw [hrecovers] at h
  dsimp only at h
  split at h
  case isTrue hflag => cases hflag
  case isFalse =>
    obtain ⟨step, between, hchild, h⟩ := reply_bind h
    split at h
    case isTrue hsuccess =>
      cases h
      exact .inl ⟨between, hchild, hsuccess, rfl⟩
    case isFalse hfailed =>
      have hrollback : between.rollback ctx.start.1 = { ctx with nextId := between.nextId } :=
        Context.rollback_eq (hrun _ _ _ hchild)
      rw [hrollback] at h
      exact .inr ⟨step, between, between.nextId, hchild, Bool.eq_false_iff.mpr hfailed, h⟩

open Grammar in
/-- A relaxed form: its child matches, or it is reported missing where it would start. -/
theorem relax_cases {message : String} {child : Grammar} (hrecovers : ctx.inAttempt = false)
    (h : runWithin rules levels (.relax message child) ctx = some (outcome, after)) :
    ∃ (below : Nat) (step : Outcome) (between : Context input),
      runWithin rules below child ctx.start.2 = some (step, between) ∧
        (step.success = true ∧ outcome = step ∧ after = between.commit ctx.start.1
          ∨ step.success = false ∧ outcome.success = true ∧ after.place = ctx.place) := by
  obtain ⟨below, h⟩ := runLevel_of_runWithin h
  change relax _ _ _ _ = _ at h
  unfold relax at h
  rcases orRecover_cases (extends_runWithin rules below) hrecovers h with
    ⟨between, hchild, hsuccess, hafter⟩ | ⟨failure, between, nextId, hchild, hfailed, hreport⟩
  · exact ⟨below, outcome, between, hchild, .inl ⟨hsuccess, rfl, hafter⟩⟩
  · cases hreport
    exact ⟨below, failure, between, hchild, .inr ⟨hfailed, rfl, rfl⟩⟩

end Form

end Offside
