import Offside.Parse.Basic
import Offside.Proofs.Parse.Disciplined

/-!
What is left in the log of a run that consumes nothing.

A failure that consumed nothing lets the caller try something else, and so it should
leave no trace. The forms that open a transaction see to that themselves. A sequence, a
node, a fold and what recovers do not: they pass on what their parts have logged. Where a
part logs something without consuming, as the recovery of something missing does, and a
later part fails at once, the sequence fails at its start and the log has grown
(`sequence_leaves_trace`).

So it depends on the grammar. `Grammar.trace` reads off a grammar what the runs that
consume nothing may leave: there are none of them, or they leave nothing, or they may
leave something; for those that match and for those that fail. It looks at the rules of
the table as at grammars that always consume a token when they match, and leave nothing
when they fail at their start, which is to be checked of each of them (`Tidy`).

As with the log, there is one lemma for each form that runs children, under the
hypothesis that the traces of the children are bounded by what is read off them. All of
them rest on one fact, `rollback_eq`: what is taken back is gone from the log.
-/

namespace Offside

variable {input : Input} {rules : RuleTable}

-- ================================================= what may be left

/-- What the runs that consume nothing may leave in the log. -/
inductive Trace
  /-- There is no such run. -/
  | never
  /-- They leave nothing. -/
  | clean
  /-- They may leave anything. -/
  | any
  deriving DecidableEq

namespace Trace

/-- What one of two runs may leave. -/
def or : Trace → Trace → Trace
  | .any, _ | _, .any => .any
  | .clean, _ | _, .clean => .clean
  | .never, .never => .never

/-- What two runs in a row may leave. -/
def andThen : Trace → Trace → Trace
  | .never, _ | _, .never => .never
  | .any, _ | _, .any => .any
  | .clean, .clean => .clean

/-- What a run that logs a node may leave. -/
def inNode : Trace → Trace
  | .never => .never
  | .clean | .any => .any

/-- What a run from one context to another has left is bounded. -/
def Bounds (before after : Context input) : Trace → Prop
  | .never => before.place < after.place
  | .clean => after.place = before.place → after.events = before.events
  | .any => True

variable {before between after : Context input} {trace other : Trace}

theorem bounds_clean (h : after.events = before.events) : clean.Bounds before after := fun _ => h

/-- Where a token was consumed, any bound holds. -/
theorem bounds_of_lt (h : before.place < after.place) : trace.Bounds before after := by
  cases trace with
  | never => exact h
  | clean => exact fun hplace => absurd hplace (Nat.ne_of_gt h)
  | any => trivial

/-- A bound holds if more is allowed. -/
theorem Bounds.or_left (h : trace.Bounds before after) (other : Trace) :
    (trace.or other).Bounds before after := by
  cases trace with
  | never => exact bounds_of_lt h
  | clean =>
    cases other with
    | never | clean => exact h
    | any => trivial
  | any => trivial

/-- A bound holds if more is allowed, on the other side. -/
theorem Bounds.or_right (h : other.Bounds before after) (trace : Trace) :
    (trace.or other).Bounds before after := by
  cases other with
  | never => exact bounds_of_lt h
  | clean =>
    cases trace with
    | never | clean => exact h
    | any => trivial
  | any => cases trace <;> trivial

/-- Of two runs in a row, one that always consumes is enough. -/
theorem Bounds.andThen (first : trace.Bounds before between) (second : other.Bounds between after)
    (hfirst : before.place ≤ between.place) (hsecond : between.place ≤ after.place) :
    (trace.andThen other).Bounds before after := by
  cases trace with
  | never => exact bounds_of_lt (Nat.lt_of_lt_of_le first hsecond)
  | any =>
    cases other with
    | never => exact Nat.lt_of_le_of_lt hfirst second
    | clean | any => trivial
  | clean =>
    cases other with
    | never => exact Nat.lt_of_le_of_lt hfirst second
    | any => trivial
    | clean =>
      intro hplace
      have hbetween : between.place = before.place := by omega
      exact (second (by omega)).trans (first hbetween)

/-- A run is bounded by what it is bounded by in contexts with the same places and logs. -/
theorem Bounds.transfer {start last : Context input} (h : trace.Bounds start last)
    (hstart : start.place = before.place) (hlast : after.place = last.place)
    (hbefore : start.events = before.events) (hafter : after.events = last.events) :
    trace.Bounds before after := by
  cases trace with
  | never =>
    show before.place < after.place
    rw [← hstart, hlast]
    exact h
  | clean =>
    intro hplace
    rw [hafter, ← hbefore]
    exact h (by rw [← hlast, hplace, hstart])
  | any => trivial

theorem Bounds.place_lt_of_never (h : trace.Bounds before after) (hnever : trace = .never) :
    before.place < after.place := by
  rw [hnever] at h
  exact h

/-- A run under a marker that is given up. -/
theorem Bounds.abandon {ctx after : Context input} (h : trace.Bounds ctx.mark.2 after) :
    trace.Bounds ctx (after.abandon ctx.mark.1) := by
  cases trace with
  | never => exact h
  | any => trivial
  | clean =>
    intro hplace
    have hevents : after.events = ctx.events.push .blank := h hplace
    unfold Context.abandon
    dsimp only
    rw [if_pos (by rw [hevents, Array.size_push]; rfl), hevents, Array.pop_push]

/-- A run under a marker that is completed. -/
theorem Bounds.complete {ctx after : Context input} (h : trace.Bounds ctx.mark.2 after)
    (kind : NodeKind) : trace.inNode.Bounds ctx (after.complete ctx.mark.1 kind).2 := by
  cases trace with
  | never => exact h
  | clean | any => trivial

end Trace

namespace Grammar

mutual

/-- What the runs of the grammar that consume nothing may leave in the log, if they
match and if they fail, given that each rule consumes a token when it matches, and
leaves nothing when it fails at its start. -/
def trace : Grammar → (success : Bool) → Trace
  | .token _, success | .literal _, success | .reference .., success =>
    if success then .never else .clean
  | .succeed, success => if success then .clean else .never
  | .seq parts, success => seqTrace parts success
  | .choice alternatives, success => if success then anyTrace alternatives else .clean
  | .many child least, success =>
    if success then if least = 0 then .clean else .never
    else if least = 0 ∧ child.trace true = .never then .never else .clean
  | .optional child, success => if success then Trace.clean.or (child.trace true) else .never
  | .attempt child, success | .heal child, success | .guard child .., success =>
    if success then child.trace true else .clean
  | .lookahead _ child, success =>
    if success then child.trace true else Trace.clean.or (child.trace false)
  | .node _ child, success =>
    if success then (child.trace true).inNode else Trace.clean.or (child.trace false)
  | .labeled _ child, success => child.trace success
  | .relax _ child, success | .relaxTo _ child _, success =>
    if success then .any else child.trace false
  | .fold _ start _, success => start.trace success
  | .continuation _ start rest, success =>
    if success then (start.trace true).or ((start.trace true).andThen (rest.trace true)).inNode
    else start.trace false
  | .capture .., _ => .any

/-- The trace of a sequence of parts. -/
def seqTrace : List Grammar → (success : Bool) → Trace
  | [], success => if success then .clean else .never
  | part :: rest, success =>
    if success then (part.trace true).andThen (seqTrace rest true)
    else (part.trace false).or ((part.trace true).andThen (seqTrace rest false))

/-- What the matches of one of several grammars may leave. -/
def anyTrace : List Grammar → Trace
  | [] => .never
  | grammar :: rest => (grammar.trace true).or (anyTrace rest)

end

/-- What one of the grammars may leave, several may. -/
theorem bounds_of_mem {before after : Context input} {grammar : Grammar} {grammars : List Grammar}
    (h : (grammar.trace true).Bounds before after) (hmem : grammar ∈ grammars) :
    (anyTrace grammars).Bounds before after := by
  induction grammars with
  | nil => cases hmem
  | cons first rest ih =>
    unfold anyTrace
    rcases List.mem_cons.mp hmem with rfl | hmem
    · exact h.or_left _
    · exact (ih hmem).or_right _

end Grammar

/-- What a run leaves is bounded by what is read off the grammar. -/
def Tracing (run : Runner input) : Prop :=
  ∀ (grammar : Grammar) (ctx : Context input) (outcome : Outcome) (after : Context input),
    run grammar ctx = some (outcome, after) → (grammar.trace outcome.success).Bounds ctx after

namespace Form

open Context Trace

variable {run : Runner input} {ctx after : Context input} {outcome : Outcome}
  {self child : Grammar}

/-- What a child leaves in a transaction that is committed. -/
theorem bounds_commit {trace : Trace} {between : Context input}
    (h : trace.Bounds ctx.start.2 between) : trace.Bounds ctx (between.commit ctx.start.1) :=
  h.transfer rfl rfl rfl rfl

/-- Nothing is left of what is taken back. -/
theorem bounds_rollback (hextends : Extending run) {step : Outcome} {between : Context input}
    (h : run child ctx.start.2 = some (step, between)) :
    clean.Bounds ctx (between.rollback ctx.start.1) := by
  rw [rollback_eq (hextends _ _ _ h)]
  exact bounds_clean rfl

theorem lt_of_isMade {before last : Nat} (h : (Progress.between before last).isMade = true) :
    before < last := by
  rw [Progress.isMade_between] at h
  exact of_decide_eq_true h

/-- A match consumes a token, and a miss leaves nothing. -/
theorem bounds_single {isMatch : Bool}
    (h : some (single self isMatch ctx) = some (outcome, after)) :
    (if outcome.success then Trace.never else .clean).Bounds ctx after := by
  unfold single at h
  split at h
  case isTrue hmatch =>
    cases h
    exact place_lt_advance (by simpa using (Bool.and_eq_true_iff.mp hmatch).1)
  case isFalse =>
    cases h
    exact bounds_clean rfl

-- ============================================= sequence and choice

/-- Matches in front of a failure leave what they leave, as the sequence takes nothing back. -/
theorem bounds_seq (hrun : Tracing run) (hextends : Extending run) (parts : List Grammar) :
    ∀ (sofar : Outcome) (ctx : Context input), sofar.success = true →
      seq run sofar parts ctx = some (outcome, after) →
      (Grammar.seqTrace parts outcome.success).Bounds ctx after := by
  induction parts with
  | nil =>
    intro sofar ctx hsofar h
    cases h
    rw [hsofar]
    exact bounds_clean rfl
  | cons part rest ih =>
    intro sofar ctx hsofar h
    obtain ⟨step, between, hpart, hcases⟩ := seq_cases h
    have honward : ctx.place ≤ between.place := (hextends _ _ _ hpart).place_le
    have hfirst := hrun _ _ _ _ hpart
    unfold Grammar.seqTrace
    rcases hcases with ⟨hmatched, hrest⟩ | ⟨hfailed, hsuccess, rfl⟩
    · have hsecond := ih _ _ ((Outcome.success_merge _ _).trans hmatched) hrest
      rw [hmatched] at hfirst
      have hboth := hfirst.andThen hsecond honward (place_le_seq hextends rest hrest)
      cases hsuccess : outcome.success with
      | true =>
        rw [hsuccess] at hboth
        exact hboth
      | false =>
        rw [hsuccess] at hboth
        exact hboth.or_right _
    · rw [hsuccess]
      rw [hfailed] at hfirst
      exact hfirst.or_left _

/-- The alternative that is taken has been run in a transaction, and so has each one that was
left. -/
theorem bounds_choice (hrun : Tracing run) (hextends : Extending run)
    {alternatives : List Grammar}
    (h : choice run self alternatives ctx = some (outcome, after)) :
    (if outcome.success then Grammar.anyTrace alternatives else .clean).Bounds ctx after := by
  unfold choice at h
  dsimp only at h
  split at h
  case isTrue =>
    cases h
    exact bounds_clean rfl
  case isFalse =>
    rcases choose_cases hextends _ none ctx nofun h with
      ⟨before, alternative, behind, nextId, step, between, hsplit, _, htaken, htakes, hsuccess,
        hplace, hevents⟩ | ⟨_, hfailed, nextId, rfl⟩
    · have hstep := hrun _ _ _ _ htaken
      rw [hsuccess]
      cases hmatched : step.success with
      | true =>
        have hcandidate : alternative ∈ Grammar.candidates alternatives ctx.kind := by
          rw [hsplit]
          exact List.mem_append_right _ List.mem_cons_self
        rw [hmatched] at hstep
        exact Grammar.bounds_of_mem (hstep.transfer rfl hplace rfl hevents)
          (Grammar.mem_of_mem_candidates hcandidate)
      | false =>
        have hprogress := htakes.resolve_left (by rw [hmatched]; exact Bool.false_ne_true)
        exact bounds_of_lt (hplace ▸ hprogress)
    · rw [hfailed]
      exact bounds_clean rfl

-- ====================================================== repetition

/-- A repetition that gets no further leaves nothing. It matches then only if no more
matches are needed, and fails where none is needed only if its child has matched without
consuming. -/
theorem bounds_repeatFrom (hrun : Tracing run) (hextends : Extending run) {least count : Nat}
    {sofar : Outcome} (hsofar : sofar.success = true)
    (h : repeatFrom run self child least count sofar ctx = some (outcome, after)) :
    (if outcome.success then if least ≤ count then Trace.clean else .never
      else if least ≤ count ∧ child.trace true = .never then .never else .clean).Bounds
        ctx after := by
  unfold repeatFrom at h
  split at h
  case isTrue =>
    cases h
    by_cases hlt : count < least
    · rw [if_pos hlt, if_neg (by rw [Outcome.success_merge]; exact Bool.false_ne_true),
        if_neg fun hle => Nat.not_lt_of_le hle.1 hlt]
      exact bounds_clean rfl
    · rw [if_neg hlt, if_pos hsofar, if_pos (Nat.le_of_not_lt hlt)]
      exact bounds_clean rfl
  case isFalse hinside =>
    dsimp only at h
    obtain ⟨step, between, hstep, h⟩ := reply_bind h
    -- a step is run in a transaction, so that giving it up leaves nothing
    have hback := bounds_rollback hextends hstep
    have hchild := hrun _ _ _ _ hstep
    split at h
    case isTrue hmatched =>
      split at h
      case isTrue hprogress =>
        exact bounds_of_lt
          (Nat.lt_of_lt_of_le hprogress (place_le_repeatFrom hextends self child _ _ _ _ h))
      case isFalse hstuck =>
        cases h
        -- the step matched without a token, which a child that never does so rules out
        rw [hmatched] at hchild
        rw [if_neg (by rw [Outcome.success_merge]; exact Bool.false_ne_true),
          if_neg fun hnever => hstuck (hchild.place_lt_of_never hnever.2)]
        exact hback
    case isFalse =>
      split at h
      case isTrue hmade =>
        cases h
        exact bounds_of_lt (lt_of_isMade hmade)
      case isFalse =>
        cases h
        show (if decide (least ≤ count) = true then _ else _ : Trace).Bounds _ _
        by_cases hle : least ≤ count
        · rw [if_pos (decide_eq_true hle), if_pos hle]
          exact hback
        · rw [if_neg (by simpa using hle), if_neg fun hboth => hle hboth.1]
          exact hback

/-- The steps of a fold: they match nothing and leave what they found, or go on. -/
theorem foldFrom_stays (hextends : Extending run) {kind : NodeKind} {next : Grammar}
    {node : Marker ⊕ CompletedMarker} {sofar : Outcome} (hsofar : sofar.success = true)
    (h : foldFrom run kind next node sofar ctx = some (outcome, after)) :
    outcome.success = true ∧ (ctx.place < after.place
      ∨ after.place = ctx.place ∧ after.events = (abandonUnwrapped node ctx).events) := by
  fun_induction foldFrom run kind next node sofar ctx with
  | case1 node sofar ctx hend =>
    cases h
    exact ⟨hsofar, .inr ⟨place_abandonUnwrapped node ctx, rfl⟩⟩
  | case2 => cases h
  | case3 node sofar ctx hinside place transaction opened hstart step between hstep hmatched
      done wrapped hwrap ih =>
    have hplace : wrapped.place = between.place :=
      (place_of_wrap hwrap).trans (place_commit between _)
    have hprogress : ctx.place < between.place := hmatched.2
    obtain ⟨hsuccess, hlater⟩ := ih ((Outcome.success_merge _ _).trans hmatched.1) h
    exact ⟨hsuccess, .inl (by omega)⟩
  | case4 node sofar ctx hinside place transaction opened hstart step between hstep =>
    cases hstart
    have hback : between.rollback ctx.start.1 = { ctx with nextId := between.nextId } :=
      rollback_eq (hextends _ _ _ hstep)
    cases h
    refine ⟨success_absorb hsofar _ _, .inr ?_⟩
    show (abandonUnwrapped node (between.rollback ctx.start.1)).place = ctx.place
      ∧ (abandonUnwrapped node (between.rollback ctx.start.1)).events = _
    rw [hback]
    cases node with
    | inl marker => exact ⟨rfl, rfl⟩
    | inr done => exact ⟨rfl, rfl⟩

/-- The steps consume, or are taken back; so all that is left without a token is the start's. -/
theorem bounds_fold (hrun : Tracing run) (hextends : Extending run) {kind : NodeKind}
    {start next : Grammar} (h : fold run kind start next ctx = some (outcome, after)) :
    (start.trace outcome.success).Bounds ctx after := by
  unfold fold at h
  dsimp only at h
  obtain ⟨step, between, hstep, h⟩ := reply_bind h
  have honward : ctx.place ≤ between.place := (hextends _ _ _ hstep).place_le
  have habandon := (hrun _ _ _ _ hstep).abandon
  split at h
  case isTrue hmatched =>
    obtain ⟨hsuccess, hlt | ⟨hplace, hevents⟩⟩ := foldFrom_stays hextends hmatched h
    · exact bounds_of_lt (Nat.lt_of_le_of_lt honward hlt)
    · rw [hsuccess, ← hmatched]
      exact habandon.transfer rfl hplace rfl hevents
  case isFalse =>
    cases h
    exact habandon

/-- The start is left alone, or in a node with the rest. -/
theorem bounds_continuation (hrun : Tracing run) (hextends : Extending run) {kind : NodeKind}
    {start rest : Grammar} (h : continuation run kind start rest ctx = some (outcome, after)) :
    (if outcome.success then (start.trace true).or ((start.trace true).andThen
      (rest.trace true)).inNode else start.trace false).Bounds ctx after := by
  unfold continuation at h
  dsimp only at h
  obtain ⟨step, between, hstep, h⟩ := reply_bind h
  have honward : ctx.place ≤ between.place := (hextends _ _ _ hstep).place_le
  have hfirst := hrun _ _ _ _ hstep
  split at h
  case isFalse hfailed =>
    cases h
    rw [if_neg hfailed]
    rw [Bool.eq_false_iff.mpr hfailed] at hfirst
    exact hfirst.abandon
  case isTrue hmatched =>
    rw [hmatched] at hfirst
    obtain ⟨more, last, hmore, h⟩ := reply_bind h
    have hback := rollback_eq (hextends _ _ _ hmore)
    have hlater : between.place ≤ last.place := (hextends _ _ _ hmore).place_le
    have hsecond := bounds_commit (hrun _ _ _ _ hmore)
    split at h
    case isTrue hfollows =>
      cases h
      rw [Outcome.success_merge, if_pos hfollows]
      rw [hfollows] at hsecond
      exact ((hfirst.andThen hsecond honward hlater).complete kind).or_right _
    case isFalse =>
      cases h
      rw [if_pos (success_absorb hmatched _ _), hback]
      exact (hfirst.abandon.transfer rfl rfl rfl rfl).or_left _

-- ==================================================== taking back

/-- A child that moved on has consumed, and one that did not is taken back. -/
theorem bounds_optional (hrun : Tracing run) (hextends : Extending run)
    (h : optional run child ctx = some (outcome, after)) :
    (if outcome.success then Trace.clean.or (child.trace true) else .never).Bounds ctx after := by
  unfold optional at h
  dsimp only at h
  obtain ⟨step, between, hstep, h⟩ := reply_bind h
  have hchild := bounds_commit (hrun _ _ _ _ hstep)
  have hback := bounds_rollback hextends hstep
  split at h
  case isTrue htaken =>
    cases h
    cases hmatched : outcome.success with
    | true =>
      rw [hmatched] at hchild
      exact hchild.or_right _
    | false =>
      rw [hmatched] at htaken
      exact bounds_of_lt (lt_of_isMade htaken)
  case isFalse =>
    cases h
    exact hback.or_left _

/-- A failure is taken back as a whole. -/
theorem bounds_whole (hrun : Tracing run) (hextends : Extending run)
    (h : whole run self child ctx = some (outcome, after)) :
    (if outcome.success then child.trace true else .clean).Bounds ctx after := by
  obtain ⟨step, between, hstep, ⟨hmatched, rfl, rfl⟩ | ⟨_, hfailed, rfl⟩⟩ := whole_cases h
  · rw [if_pos hmatched, ← hmatched]
    exact bounds_commit (hrun _ _ _ _ hstep)
  · rw [hfailed]
    exact bounds_rollback hextends hstep

/-- A refusal in advance leaves nothing. -/
theorem bounds_heal (hrun : Tracing run) (hextends : Extending run)
    (h : heal run self child ctx = some (outcome, after)) :
    (if outcome.success then child.trace true else .clean).Bounds ctx after := by
  unfold heal at h
  split at h
  · exact bounds_whole hrun hextends h
  · cases h
    exact bounds_clean rfl

/-- An attempt leaves what the same run would without speculation. -/
theorem bounds_attempt (hrun : Tracing run) (hextends : Extending run)
    (h : attempt run self child ctx = some (outcome, after)) :
    (if outcome.success then child.trace true else .clean).Bounds ctx after := by
  rw [attempt_eq_heal] at h
  obtain ⟨⟨step, between⟩, hheal, hreply⟩ := Option.map_eq_some_iff.mp h
  have hbounds := bounds_heal hrun hextends hheal
  cases hreply
  exact hbounds.transfer rfl rfl rfl rfl

/-- A child that is rejected is taken back, and one that failed further on has consumed. -/
theorem bounds_guard (hrun : Tracing run) (hextends : Extending run) {message : String}
    {accepts : String → Bool}
    (h : guard run self child message accepts ctx = some (outcome, after)) :
    (if outcome.success then child.trace true else .clean).Bounds ctx after := by
  unfold guard at h
  dsimp only at h
  obtain ⟨step, between, hstep, h⟩ := reply_bind h
  have hchild := bounds_commit (hrun _ _ _ _ hstep)
  have hback := bounds_rollback hextends hstep
  split at h
  case isTrue hmatched =>
    split at h
    · cases h
      rw [if_pos hmatched, ← hmatched]
      exact hchild
    · cases h
      exact hback
  case isFalse hfailed =>
    split at h
    case isTrue hmade =>
      cases h
      exact bounds_of_lt (lt_of_isMade hmade)
    case isFalse =>
      cases h
      rw [if_neg hfailed]
      exact hback

-- ================================================= nodes and labels

/-- A node that matches is logged, with tokens inside or without. -/
theorem bounds_node (hrun : Tracing run) {kind : NodeKind}
    (h : node run kind child ctx = some (outcome, after)) :
    (if outcome.success then (child.trace true).inNode
      else Trace.clean.or (child.trace false)).Bounds ctx after := by
  unfold node at h
  split at h
  case isFalse =>
    cases h
    exact (bounds_clean rfl).or_left _
  case isTrue =>
    dsimp only at h
    obtain ⟨step, between, hstep, h⟩ := reply_bind h
    have hchild := hrun _ _ _ _ hstep
    split at h
    case isTrue hmatched =>
      cases h
      rw [hmatched] at hchild
      rw [if_pos hmatched]
      exact hchild.complete kind
    case isFalse hfailed =>
      cases h
      rw [Bool.eq_false_iff.mpr hfailed] at hchild
      rw [if_neg hfailed]
      exact hchild.abandon.or_right _

/-- A label changes the outcome and leaves the log alone. -/
theorem bounds_labeled (hrun : Tracing run)
    (h : labeled run self child ctx = some (outcome, after)) :
    (child.trace outcome.success).Bounds ctx after := by
  unfold labeled at h
  dsimp only at h
  obtain ⟨step, between, hreply, h⟩ := reply_bind h
  have hstep := hrun _ _ _ _ hreply
  split at h
  case isTrue hstart =>
    have hfailed : step.success = false := by simpa using (Bool.and_eq_true_iff.mp hstart).1
    rw [hfailed] at hstep
    cases h
    exact hstep
  case isFalse =>
    cases h
    exact hstep

/-- A condition that fails leaves nothing. -/
theorem bounds_lookahead (hrun : Tracing run) {holds : View → Bool}
    (h : lookahead run self child holds ctx = some (outcome, after)) :
    (if outcome.success then child.trace true
      else Trace.clean.or (child.trace false)).Bounds ctx after := by
  unfold lookahead at h
  split at h
  case isTrue =>
    have hstep := hrun _ _ _ _ h
    cases hsuccess : outcome.success with
    | true =>
      rw [hsuccess] at hstep
      exact hstep
    | false =>
      rw [hsuccess] at hstep
      exact hstep.or_right _
  case isFalse =>
    cases h
    exact (bounds_clean rfl).or_left _

/-- A rule consumes a token if it matches, and leaves nothing if it fails at its start. -/
theorem bounds_reference (hrun : Tracing run) {name : String} {body : Option Grammar}
    (hbody : ∀ grammar, body = some grammar →
      grammar.trace true = .never ∧ grammar.trace false ≠ .any)
    (h : reference run self name body ctx = some (outcome, after)) :
    (if outcome.success then Trace.never else .clean).Bounds ctx after := by
  unfold reference at h
  split at h
  case h_2 =>
    cases h
    exact bounds_clean rfl
  case h_1 grammar =>
    obtain ⟨hnever, htidy⟩ := hbody grammar rfl
    have hstep := hrun _ _ _ _ h
    cases hsuccess : outcome.success with
    | true =>
      rw [hsuccess, hnever] at hstep
      exact hstep
    | false =>
      rw [hsuccess] at hstep
      cases htrace : grammar.trace false with
      | never =>
        rw [htrace] at hstep
        exact bounds_of_lt hstep
      | clean =>
        rw [htrace] at hstep
        exact hstep
      | any => exact absurd htrace htidy

-- ========================================================= recovery

/-- What recovers fails only inside an attempt, as its child. -/
theorem bounds_orRecover (hrun : Tracing run) {recover : Context input → Reply input}
    (hrecover : ∀ ctx : Context input, recover ctx = some (outcome, after) →
      outcome.success = true)
    (h : orRecover run child recover ctx = some (outcome, after)) :
    (if outcome.success then Trace.any else child.trace false).Bounds ctx after := by
  cases hsuccess : outcome.success with
  | true => trivial
  | false =>
    unfold orRecover at h
    split at h
    case isTrue =>
      have hstep := hrun _ _ _ _ h
      rw [hsuccess] at hstep
      exact hstep
    case isFalse =>
      dsimp only at h
      obtain ⟨step, between, _, h⟩ := reply_bind h
      split at h
      case isTrue hmatched =>
        cases h
        rw [hsuccess] at hmatched
        cases hmatched
      case isFalse =>
        have hmatched := hrecover _ h
        rw [hsuccess] at hmatched
        cases hmatched

/-- A report on something missing is left without a token. -/
theorem bounds_relax (hrun : Tracing run) {message : String}
    (h : relax run message child ctx = some (outcome, after)) :
    (if outcome.success then Trace.any else child.trace false).Bounds ctx after := by
  refine bounds_orRecover hrun (fun ctx hrecover => ?_) h
  cases hrecover
  rfl

/-- A report may be all that is left, where there was nothing to skip. -/
theorem bounds_relaxTo (hrun : Tracing run) (hextends : Extending run) {message : String}
    {sync : Grammar} (h : relaxTo run message child sync ctx = some (outcome, after)) :
    (if outcome.success then Trace.any else child.trace false).Bounds ctx after :=
  bounds_orRecover hrun
    (fun _ hrecover => congrArg Outcome.success (skipMalformed_cases hextends hrecover).1) h

end Form

namespace Grammar

open Form

/-- The rules may be referred to: each consumes a token if it matches, and leaves nothing
if it fails at its start. -/
def Tidy (rules : RuleTable) : Prop :=
  ∀ rule body, rules rule = some body → body.trace true = .never ∧ body.trace false ≠ .any

/-- One level of a run leaves what is read off the grammar, if what is below does. -/
theorem bounds_runLevel {run : Runner input} (hrun : Tracing run) (hextends : Extending run)
    (htidy : Tidy rules) : Tracing (runLevel rules run) := by
  intro grammar ctx outcome after h
  cases grammar with
  | token | literal => exact bounds_single h
  | succeed =>
    cases h
    exact Trace.bounds_clean rfl
  | seq parts => exact bounds_seq hrun hextends parts _ _ rfl h
  | choice alternatives => exact bounds_choice hrun hextends h
  | many child least =>
    have hbounds := bounds_repeatFrom hrun hextends rfl h
    simp only [Nat.le_zero] at hbounds
    exact hbounds
  | optional child => exact bounds_optional hrun hextends h
  | attempt child => exact bounds_attempt hrun hextends h
  | heal child => exact bounds_heal hrun hextends h
  | guard child message accepts => exact bounds_guard hrun hextends h
  | node kind child => exact bounds_node hrun h
  | labeled label child =>
    unfold trace
    exact bounds_labeled hrun h
  | relax message child => exact bounds_relax hrun h
  | relaxTo message child sync => exact bounds_relaxTo hrun hextends h
  | fold kind start next =>
    unfold trace
    exact bounds_fold hrun hextends h
  | continuation kind start rest => exact bounds_continuation hrun hextends h
  | reference name rule => exact bounds_reference hrun (htidy rule) h
  | lookahead holds child => exact bounds_lookahead hrun h
  | capture name select => trivial

/-- If the rules are tidy, every run leaves what is read off its grammar. -/
theorem bounds_runWithin (htidy : Tidy rules) (levels : Nat) :
    Tracing (runWithin rules levels : Runner input) := by
  induction levels with
  | zero =>
    intro grammar ctx outcome after h
    cases h
  | succ levels ih =>
    intro grammar ctx outcome after h
    rw [runWithin_succ] at h
    exact bounds_runLevel ih (extends_runWithin rules levels) htidy grammar ctx outcome after h

end Grammar

-- ============================================ what may be left at all

mutual

/-- A log places the tokens that were consumed. -/
theorem Log.place_of_token {recovers : Bool} {first last place : Nat} {log : List Event}
    {pieces : List Piece} : Log input recovers first last log pieces → .token place ∈ log →
      first ≤ place ∧ place < last
  | .nil _, h | .blank _, h | .report _ _, h => by simp [Event.blank] at h
  | .token _, h => by
    obtain rfl : place = _ := by simpa using h
    exact ⟨Nat.le_refl _, Nat.lt_succ_self _⟩
  | .append earlier later, h => by
    rcases List.mem_append.mp h with h | h
    · have hplace := earlier.place_of_token h
      exact ⟨hplace.1, Nat.lt_of_lt_of_le hplace.2 later.place_le⟩
    · have hplace := later.place_of_token h
      exact ⟨Nat.le_trans earlier.place_le hplace.1, hplace.2⟩
  | .skipped _ _ honward _, h => by
    have hmem : Event.token place ∈ tokenEvents first last := by simpa using h
    obtain ⟨other, hother, heq⟩ := List.mem_map.mp hmem
    cases heq
    obtain ⟨hfirst, hlast⟩ := List.mem_range'_1.mp hother
    exact ⟨hfirst, by omega⟩
  | .node chain, h => chain.place_of_token (by simpa using h)

/-- The tokens of a chain are those between its places. -/
theorem Chain.place_of_token {recovers : Bool} {first last place : Nat} {front back : List Event}
    {kind : NodeKind} {piece : Piece} : Chain input recovers first last front kind back piece →
      .token place ∈ front ∨ .token place ∈ back → first ≤ place ∧ place < last
  | .node _ body, h => body.place_of_token (by simpa using h)
  | .wrap _ chain body, h => by
    have hchain := chain.place_le
    have hbody := body.place_le
    simp only [List.mem_append, List.mem_cons, List.not_mem_nil, or_false, reduceCtorEq,
      false_or] at h
    rcases h with h | h | h
    · have hplace := chain.place_of_token (.inl h)
      omega
    · have hplace := chain.place_of_token (.inr h)
      omega
    · have hplace := body.place_of_token h
      omega

end

namespace Grammar

/-- What a failure that consumed nothing leaves in the log: never a token, inside an
attempt no report either, and nothing at all if the rules are tidy and the grammar is
one that leaves nothing. -/
theorem failure_traces (rules : RuleTable) (levels : Nat) (grammar : Grammar) (input : Input)
    (ctx after : Context input) (outcome : Outcome)
    (hrun : grammar.runWithin rules levels ctx = some (outcome, after))
    (hfailed : outcome.success = false) (hplace : after.place = ctx.place) :
    (∃ log, after.events.toList = ctx.events.toList ++ log
        ∧ (∀ place, Event.token place ∉ log)
        ∧ (ctx.inAttempt = true → ∀ diagnostic, Event.report diagnostic ∉ log))
      ∧ (Tidy rules → grammar.trace false ≠ .any → after.events = ctx.events) := by
  constructor
  · obtain ⟨log, pieces, hevents, hlog⟩ := (extends_runWithin rules levels _ _ _ hrun).logged
    refine ⟨log, hevents, fun place hmem => ?_, fun hattempt diagnostic => ?_⟩
    · have hbetween : ctx.place ≤ place ∧ place < after.place := hlog.place_of_token hmem
      omega
    · rw [hattempt] at hlog
      exact hlog.not_reports diagnostic
  · intro htidy hclean
    have hbounds := bounds_runWithin htidy levels grammar ctx outcome after hrun
    rw [hfailed] at hbounds
    cases htrace : grammar.trace false with
    | never =>
      rw [htrace] at hbounds
      exact absurd hplace (Nat.ne_of_gt hbounds)
    | clean =>
      rw [htrace] at hbounds
      exact hbounds hplace
    | any => exact absurd htrace hclean

/-- A name alone. -/
def loneName : Input := .ofTokens "x" [.raw ⟨.lower, ⟨1, 1, 0⟩, ⟨1, 2, 1⟩⟩]

/-- A node around a number and an equals sign that finds a name. -/
theorem failure_traces_equation :
    ∃ outcome after, (Grammar.node .exprApp (.seq [.token .int, .token .equals])).runWithin
        (fun _ => none) 4 (Context.initial loneName) = some (outcome, after)
      ∧ outcome.success = false ∧ after.place = 0 ∧ after.events = #[] := by
  refine ⟨_, _, rfl, rfl, rfl, ?_⟩
  exact (failure_traces (fun _ => none) 4 (.node .exprApp (.seq [.token .int, .token .equals]))
    loneName _ _ _ rfl rfl rfl).2 nofun (by decide)

/-- A number that may be missing and an equals sign, where a name stands. -/
def relaxedEquation : Grammar :=
  .seq [.relax "missing number" (.token .int), .token .equals]

/-- A sequence that leaves a trace: the number is reported as missing, then the equals
sign fails where the sequence started, and the report stands. So a parse with it reports
both that the number is missing and that an equals sign was expected in its place. -/
theorem sequence_leaves_trace :
    ¬(∀ (levels : Nat) (grammar : Grammar) (input : Input) (ctx after : Context input)
        (outcome : Outcome), grammar.runWithin (fun _ => none) levels ctx = some (outcome, after) →
      outcome.success = false → after.place = ctx.place → after.events = ctx.events)
      ∧ (Parse.ofInput (fun _ => none) relaxedEquation loneName).diagnostics.map
          (fun diagnostic => (diagnostic.code, diagnostic.primarySpan))
        = [(.missingInput, some ⟨0, 0⟩), (.unexpectedToken, some ⟨0, 1⟩)] := by
  refine ⟨fun h => ?_, by decide +kernel⟩
  have hevents := congrArg Array.size
    (h 3 relaxedEquation loneName (Context.initial loneName) _ _ rfl rfl rfl)
  cases hevents

end Grammar

end Offside
