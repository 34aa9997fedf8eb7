import Offside.Parse.Run
import Offside.Proofs.Parse.Direct
import Offside.Proofs.Parse.Extends

/-!
Every run logs what its grammar denotes.

A run and the direct evaluation of a grammar agree in success and place, and the
run logs the pieces that the evaluation yields (`Recorded`). There is one lemma
for each form that runs children, under the hypothesis that the way to run a
child agrees with the way to evaluate it (`Recording`). `records_runWithin` puts
them together by induction on the levels.

So whatever the grammar and its rules, a run that gives an answer has only added
to the log, and has closed everything that it opened (`extends_runWithin`).
-/

namespace Offside

variable {input : Input}

/-- Running a grammar extends the context. -/
def Extending (run : Runner input) : Prop :=
  ∀ (grammar : Grammar) (ctx : Context input) (reply : Outcome × Context input),
    run grammar ctx = some reply → ctx.Extends reply.2

/-- What goes on from a reply has an answer only if there is a reply. -/
theorem reply_bind {α : Type} {reply : Reply input} {next : Outcome → Context input → Option α}
    {answer : α} :
    (match reply with
      | none => none
      | some (outcome, ctx) => next outcome ctx) = some answer →
    ∃ outcome ctx, reply = some (outcome, ctx) ∧ next outcome ctx = some answer := by
  intro h
  cases reply with
  | none => cases h
  | some reply => exact ⟨reply.1, reply.2, rfl, h⟩

-- ========================================================= outcomes

theorem Progress.isMade_between (before after : Nat) :
    (between before after).isMade = decide (before < after) := by
  unfold between
  split
  case isTrue h => exact (decide_eq_true h).symm
  case isFalse h => exact (decide_eq_false h).symm

/-- The later of two outcomes decides on the success of both. -/
theorem Outcome.success_merge (earlier later : Outcome) :
    (earlier.merge later).success = later.success := by
  unfold merge
  split
  · rfl
  · split
    · rfl
    · rfl

/-- The outcome so far has no say in whether a step succeeds. -/
theorem Form.success_joined (sofar : Option Outcome) (step : Outcome) :
    (joined sofar step).success = step.success := by
  cases sofar with
  | none => rfl
  | some earlier => exact Outcome.success_merge earlier step

/-- What is taken back does not make a match fail. -/
theorem Form.success_absorb {outcome : Outcome} (h : outcome.success = true) (step : Outcome)
    (progress : Progress) : (absorb outcome step progress).success = true := by
  unfold absorb
  split
  · exact Outcome.success_merge _ _
  · exact h

-- ========================================================== records

/-- The reply of a run agrees with a yield, and its log adds the pieces. -/
structure Recorded (before : Context input) (reply : Outcome × Context input) (yield : Yield) :
    Prop where
  success : reply.1.success = yield.success
  place : reply.2.place = yield.place
  adds : before.Adds reply.2 yield.pieces

/-- The run answers if the evaluation does, and the reply agrees with the yield. -/
abbrev Records (before : Context input) (reply : Reply input) (yield : Option Yield) : Prop :=
  Option.Rel (Recorded before) reply yield

/-- Running a grammar records what evaluating it yields. -/
def Recording (run : Runner input) (eval : Evaluator) : Prop :=
  ∀ (grammar : Grammar) (ctx : Context input), Records ctx (run grammar ctx) (eval grammar ctx.view)

namespace Context

theorem place_view (ctx : Context input) : ctx.view.place = ctx.place := rfl

theorem kind_view (ctx : Context input) : ctx.view.kind = ctx.kind := rfl

theorem atEnd_view (ctx : Context input) : ctx.view.atEnd = ctx.atEnd := rfl

theorem inAttempt_wrap (ctx : Context input) (node : Marker ⊕ CompletedMarker)
    (kind : NodeKind) : (ctx.wrap node kind).2.inAttempt = ctx.inAttempt := by
  cases node <;> rfl

/-- A context that is as speculative as it was looks as if its view had been moved. -/
theorem view_movedTo {ctx after : Context input} (h : after.inAttempt = ctx.inAttempt) :
    after.view = ctx.view.movedTo after.place := by
  unfold view View.movedTo
  rw [h]

/-- What was taken back looks as it did before. -/
theorem view_rollback {ctx after : Context input} {pieces : List Piece}
    (h : ctx.start.2.Adds after pieces) : (after.rollback ctx.start.1).view = ctx.view := by
  rw [rollback_eq h.extends]
  rfl

end Context

variable {run : Runner input} {eval : Evaluator} {ctx before between : Context input}

/-- Runs that record only add to the log, and close what they open. -/
theorem Recording.extending (hrun : Recording run eval) : Extending run := by
  intro grammar ctx reply h
  have hrecords : Records ctx (some reply) _ := h ▸ hrun grammar ctx
  generalize eval grammar ctx.view = yield at hrecords
  cases hrecords with
  | some hrecorded => exact hrecorded.adds.extends

/-- What goes on from a reply and from its yield. -/
theorem records_bind {α β : Type} {related : α → β → Prop} {reply : Reply input}
    {yield : Option Yield} {next : Outcome → Context input → Option α}
    {follow : Yield → Option β} :
    Records before reply yield →
    (∀ outcome after step, Recorded before (outcome, after) step →
      Option.Rel related (next outcome after) (follow step)) →
    Option.Rel related
      (match reply with
        | none => none
        | some (outcome, ctx) => next outcome ctx)
      (yield >>= follow) := by
  intro h hnext
  cases h with
  | none => exact .none
  | some h => exact hnext _ _ _ h

/-- Behind a record the run sees what the evaluation sees there. -/
theorem Recorded.view {outcome : Outcome} {step : Yield}
    (h : Recorded before (outcome, between) step) :
    between.view = before.view.movedTo step.place := by
  rw [← h.place]
  exact Context.view_movedTo h.adds.inAttempt

/-- A record behind what was added before. -/
theorem records_behind {pieces : List Piece} (h : before.Adds between pieces) {reply : Reply input}
    {yield : Option Yield} (hrecords : Records between reply yield) :
    Records before reply (yield.map (·.behind pieces)) := by
  cases hrecords with
  | none => exact .none
  | some hrecorded => exact .some ⟨hrecorded.success, hrecorded.place, h.trans hrecorded.adds⟩

/-- A record behind nothing. -/
theorem records_after (h : before.Adds between []) {reply : Reply input} {yield : Option Yield}
    (hrecords : Records between reply yield) : Records before reply yield := by
  cases hrecords with
  | none => exact .none
  | some hrecorded => exact .some ⟨hrecorded.success, hrecorded.place, h.trans hrecorded.adds⟩

/-- Nothing consumed and nothing logged. -/
theorem records_nothing {outcome : Outcome} {success : Bool} (hsuccess : outcome.success = success)
    (h : before.Adds between []) (hplace : between.place = before.place) :
    Records before (some (outcome, between)) (some (Direct.nothing success before.view)) :=
  .some ⟨hsuccess, hplace, h⟩

namespace Form

open Context

/-- A token is logged just if it is a piece of the yield. -/
theorem records_single (self : Grammar) (isMatch : Bool) (ctx : Context input) :
    Records ctx (some (single self isMatch ctx)) (some (Direct.single isMatch ctx.view)) := by
  unfold single Direct.single
  rw [show ctx.view.atEnd = ctx.atEnd from rfl]
  split
  case isTrue hinside =>
    have hend : ¬ctx.atEnd = true := by
      simpa using (Bool.and_eq_true_iff.mp hinside).1
    refine .some ⟨rfl, ?_, adds_advance hend⟩
    unfold advance
    rw [if_neg hend]
    rfl
  case isFalse => exact records_nothing rfl (.refl ctx) rfl

-- ============================================= sequence and choice

/-- The log of each part is added behind that of the parts before it. -/
theorem records_seq (hrun : Recording run eval) (parts : List Grammar) :
    ∀ (outcome : Outcome) (ctx : Context input), outcome.success = true →
      Records ctx (seq run outcome parts ctx) (Direct.seq eval parts ctx.view) := by
  induction parts with
  | nil => exact fun _ ctx houtcome => records_nothing houtcome (.refl ctx) rfl
  | cons part rest ih =>
    intro outcome ctx houtcome
    unfold seq Direct.seq
    refine records_bind (hrun part ctx) fun step after yield h => ?_
    dsimp only
    rw [Outcome.success_merge, ← h.success]
    split
    case isTrue hmatched =>
      rw [← h.view]
      exact records_behind h.adds (ih _ _ ((Outcome.success_merge _ _).trans hmatched))
    case isFalse => exact .some ⟨(Outcome.success_merge _ _).trans h.success, h.place, h.adds⟩

/-- An alternative that is left is taken back, so that the next one logs as if it were the first. -/
theorem records_choose (hrun : Recording run eval) (alternatives : List Grammar) :
    ∀ (sofar : Option Outcome) (ctx : Context input),
      (∀ earlier, sofar = some earlier → earlier.success = false) →
      Records ctx (choose run sofar alternatives ctx)
        (Direct.choose eval alternatives ctx.view) := by
  induction alternatives with
  | nil =>
    intro sofar ctx hsofar
    refine records_nothing ?_ (.refl ctx) rfl
    cases sofar with
    | none => rfl
    | some earlier => exact hsofar earlier rfl
  | cons alternative rest ih =>
    intro sofar ctx hsofar
    unfold choose Direct.choose
    refine records_bind (hrun alternative ctx.start.2) fun step after yield h => ?_
    rw [Progress.isMade_between, ← h.success, ← h.place, place_view]
    split
    case isTrue => exact .some ⟨(success_joined _ _).trans h.success, h.place, h.adds.commit⟩
    case isFalse hleft =>
      have hfailed : step.success = false :=
        (Bool.or_eq_false_iff.mp (Bool.eq_false_iff.mpr hleft)).1
      -- the others are tried in a context that differs in its next number only, and so
      -- looks the same
      rw [← view_rollback h.adds]
      refine records_after h.adds.rollback (ih _ _ ?_)
      rintro _ ⟨⟩
      rw [success_joined, hfailed]

/-- The run and the evaluation choose among the same candidates. -/
theorem records_choice (hrun : Recording run eval) (self : Grammar) (alternatives : List Grammar)
    (ctx : Context input) :
    Records ctx (choice run self alternatives ctx)
      (Direct.choose eval (Grammar.candidates alternatives ctx.kind) ctx.view) := by
  unfold choice
  dsimp only
  split
  case isTrue hempty =>
    rw [List.isEmpty_iff.mp (Bool.and_eq_true_iff.mp hempty).2]
    exact records_nothing rfl (.refl ctx) rfl
  case isFalse => exact records_choose hrun _ none ctx nofun

-- ====================================================== repetition

/-- The matches are logged in a row. One that does not move on is taken back with its log. -/
theorem records_repeatFrom (hrun : Recording run eval) (self child : Grammar) (least count : Nat)
    (outcome : Outcome) (ctx : Context input) (houtcome : outcome.success = true) :
    Records ctx (repeatFrom run self child least count outcome ctx)
      (Direct.repeatFrom eval child least count ctx.view) := by
  induction hleft : input.size - ctx.place using Nat.strongRecOn
    generalizing count outcome ctx with
  | ind left ih =>
    unfold repeatFrom Direct.repeatFrom
    rw [atEnd_view]
    split
    case isTrue =>
      refine records_nothing ?_ (.refl ctx) rfl
      split
      case isTrue hlt => exact (Outcome.success_merge _ _).trans (decide_eq_false (by omega)).symm
      case isFalse hle => exact houtcome.trans (decide_eq_true (by omega)).symm
    case isFalse hend =>
      have hinside := place_lt_size hend
      refine records_bind (hrun child ctx.start.2) fun step after yield h => ?_
      simp only [Progress.isMade_between, decide_eq_true_eq]
      rw [← h.success, ← h.place, place_view]
      dsimp only
      split
      case isTrue hmatched =>
        split
        case isTrue hprogress =>
          rw [← place_commit after ctx.start.1, ← view_movedTo h.adds.commit.inAttempt]
          refine records_behind h.adds.commit
            (ih _ ?_ _ _ _ ((Outcome.success_merge _ _).trans hmatched) rfl)
          show input.size - after.place < left
          omega
        case isFalse => exact records_nothing (Outcome.success_merge _ _) h.adds.rollback rfl
      case isFalse =>
        split
        case isTrue =>
          exact .some ⟨(Outcome.success_merge _ _).trans h.success, h.place, h.adds.commit⟩
        case isFalse => exact records_nothing rfl h.adds.rollback rfl

theorem place_abandonUnwrapped (node : Marker ⊕ CompletedMarker) (ctx : Context input) :
    (abandonUnwrapped node ctx).place = ctx.place := by
  cases node <;> rfl

/-- The end of a fold: a marker that is still open is given up, and a node that was
completed stands. -/
theorem adds_abandonUnwrapped {node : Marker ⊕ CompletedMarker} {pieces : List Piece}
    {after : Context input} (h : before.Building ctx node pieces) (last : ctx.Adds after []) :
    before.Adds (abandonUnwrapped node after) pieces := by
  rw [← List.append_nil pieces]
  cases node with
  | inl marker => exact (h.extend last).abandon
  | inr done => exact h.adds.trans last

/-- The steps of a fold: what is being built stays so up to the end. -/
theorem records_foldFrom (hrun : Recording run eval) (kind : NodeKind) (next : Grammar)
    (node : Marker ⊕ CompletedMarker) (pieces : List Piece) (outcome : Outcome)
    (ctx : Context input) (hbuilding : before.Building ctx node pieces)
    (houtcome : outcome.success = true) :
    Records before (foldFrom run kind next node outcome ctx)
      (Direct.foldFrom eval kind next pieces ctx.view) := by
  induction hleft : input.size - ctx.place using Nat.strongRecOn
    generalizing node pieces outcome ctx with
  | ind left ih =>
    unfold foldFrom Direct.foldFrom
    rw [atEnd_view]
    split
    case isTrue =>
      exact .some ⟨houtcome, place_abandonUnwrapped node ctx,
        adds_abandonUnwrapped hbuilding (.refl ctx)⟩
    case isFalse hend =>
      have hinside := place_lt_size hend
      refine records_bind (hrun next ctx.start.2) fun step after yield h => ?_
      rw [← h.success, ← h.place, place_view]
      dsimp only
      split
      case isTrue hprogress =>
        have hplace := place_wrap (after.commit ctx.start.1) node kind
        have hwrapped := hbuilding.wrap h.adds.commit kind
        have hattempt := inAttempt_wrap (after.commit ctx.start.1) node kind
        have hview := view_movedTo (hattempt.trans h.adds.commit.inAttempt)
        -- in the log the wrapper opens behind what it holds, in the pieces in front of it;
        -- `Building` accounts for that
        rw [hplace, place_commit] at hview
        rw [← hview]
        refine ih _ ?_ _ _ _ _ hwrapped ((Outcome.success_merge _ _).trans hprogress.1) rfl
        show input.size - ((after.commit ctx.start.1).wrap node kind).2.place < left
        rw [hplace, place_commit]
        have hlt : ctx.place < after.place := hprogress.2
        omega
      case isFalse =>
        refine .some ⟨success_absorb houtcome _ _, place_abandonUnwrapped node _, ?_⟩
        exact adds_abandonUnwrapped hbuilding h.adds.rollback

/-- The marker in front of the start stays open, and the steps build on it. -/
theorem records_fold (hrun : Recording run eval) (kind : NodeKind) (start next : Grammar)
    (ctx : Context input) :
    Records ctx (fold run kind start next ctx) (Direct.fold eval kind start next ctx.view) := by
  unfold fold Direct.fold
  refine records_bind (hrun start ctx.mark.2) fun outcome after first h => ?_
  have hbuilding := (building_mark ctx).extend h.adds
  rw [← h.success]
  split
  case isTrue hmatched =>
    rw [show ctx.view.movedTo first.place = after.view from h.view.symm]
    exact records_foldFrom hrun kind next _ _ _ _ hbuilding hmatched
  case isFalse => exact .some ⟨h.success, h.place, hbuilding.abandon⟩

/-- The node opens in front of the start and is completed behind the rest, or is given up and
leaves the start alone. -/
theorem records_continuation (hrun : Recording run eval) (kind : NodeKind) (start rest : Grammar)
    (ctx : Context input) :
    Records ctx (continuation run kind start rest ctx)
      (Direct.continuation eval kind start rest ctx.view) := by
  unfold continuation Direct.continuation
  refine records_bind (hrun start ctx.mark.2) fun outcome after first h => ?_
  rw [← h.success]
  split
  case isFalse => exact .some ⟨h.success, h.place, h.adds.abandon⟩
  case isTrue hmatched =>
    rw [show ctx.view.movedTo first.place = after.view from h.view.symm]
    refine records_bind (hrun rest after.start.2) fun more last yield hmore => ?_
    dsimp only
    rw [← hmore.success]
    split
    case isTrue hfollows =>
      exact .some ⟨(Outcome.success_merge _ _).trans hfollows, hmore.place,
        (h.adds.trans hmore.adds.commit).complete kind⟩
    case isFalse =>
      refine .some
        ⟨(success_absorb hmatched _ _).trans (hmatched.symm.trans h.success), h.place, ?_⟩
      have hrestored := (h.adds.trans hmore.adds.rollback).abandon
      rw [List.append_nil] at hrestored
      exact hrestored

-- ==================================================== taking back

/-- An attempt is healing with the speculative flag set. -/
theorem attempt_eq_heal (run : Runner input) (self child : Grammar) (ctx : Context input) :
    attempt run self child ctx = (heal run self child (ctx.setInAttempt true)).map
      fun (outcome, after) => (outcome, after.setInAttempt ctx.inAttempt) := by
  unfold attempt heal
  rw [show (ctx.setInAttempt true).kind = ctx.kind from rfl]
  split
  · dsimp only
    cases whole run self child (ctx.setInAttempt true) <;> rfl
  · rfl

/-- The child is logged if it matched or moved on, and else nothing is. -/
theorem records_optional (hrun : Recording run eval) (child : Grammar) (ctx : Context input) :
    Records ctx (optional run child ctx) (Direct.optional eval child ctx.view) := by
  unfold optional Direct.optional
  refine records_bind (hrun child ctx.start.2) fun outcome after step h => ?_
  rw [Progress.isMade_between, ← h.success, ← h.place, place_view]
  split
  case isTrue => exact .some ⟨h.success, h.place, h.adds.commit⟩
  case isFalse => exact records_nothing rfl h.adds.rollback rfl

/-- A failure is taken back, whatever it has consumed, and leaves nothing in the log. -/
theorem records_whole (hrun : Recording run eval) (self child : Grammar) (ctx : Context input) :
    Records ctx (whole run self child ctx) (Direct.whole eval child ctx.view) := by
  unfold whole Direct.whole
  refine records_bind (hrun child ctx.start.2) fun outcome after step h => ?_
  rw [← h.success]
  split
  case isTrue => exact .some ⟨h.success, h.place, h.adds.commit⟩
  case isFalse hfailed =>
    refine records_nothing ?_ h.adds.rollback rfl
    split
    · rfl
    · exact Bool.eq_false_iff.mpr hfailed

/-- Nothing is logged where the next token cannot start the child. -/
theorem records_heal (hrun : Recording run eval) (self child : Grammar) (ctx : Context input) :
    Records ctx (heal run self child ctx) (Direct.heal eval child ctx.view) := by
  unfold heal Direct.heal
  rw [kind_view]
  split
  case isTrue => exact records_whole hrun self child ctx
  case isFalse => exact records_nothing rfl (.refl ctx) rfl

/-- An attempt evaluates its child in a speculative view, and what it keeps is logged behind. -/
theorem records_attempt (hrun : Recording run eval) (self child : Grammar) (ctx : Context input) :
    Records ctx (attempt run self child ctx) (Direct.heal eval child ctx.view.speculative) := by
  rw [attempt_eq_heal]
  have hheal := records_heal hrun self child (ctx.setInAttempt true)
  rw [show (ctx.setInAttempt true).view = ctx.view.speculative from rfl] at hheal
  generalize heal run self child (ctx.setInAttempt true) = reply at hheal ⊢
  generalize Direct.heal eval child ctx.view.speculative = yield at hheal ⊢
  cases hheal with
  | none => exact .none
  | some h => exact .some ⟨h.success, h.place, h.adds.speculative⟩

/-- What is not accepted is taken back and leaves nothing in the log. -/
theorem records_guard (hrun : Recording run eval) (self child : Grammar) (message : String)
    (accepts : String → Bool) (ctx : Context input) :
    Records ctx (guard run self child message accepts ctx)
      (Direct.guard eval child accepts ctx.view) := by
  unfold guard Direct.guard
  refine records_bind (hrun child ctx.start.2) fun outcome after step h => ?_
  simp only [Progress.isMade_between, decide_eq_true_eq]
  rw [← h.success, ← h.place, place_view]
  dsimp only
  split
  case isTrue =>
    rw [show ctx.view.input = input from rfl]
    split
    case isTrue => exact .some ⟨h.success, h.place, h.adds.commit⟩
    case isFalse => exact records_nothing rfl h.adds.rollback rfl
  case isFalse hfailed =>
    split
    case isTrue => exact .some ⟨h.success, h.place, h.adds.commit⟩
    case isFalse => exact records_nothing (Bool.eq_false_iff.mpr hfailed) h.adds.rollback rfl

-- ================================================= nodes and labels

/-- The node is completed around the log of its child, or the marker is given up and the log
stays. -/
theorem records_node (hrun : Recording run eval) (kind : NodeKind) (child : Grammar)
    (ctx : Context input) :
    Records ctx (node run kind child ctx) (Direct.node eval kind child ctx.view) := by
  unfold node Direct.node
  rw [kind_view]
  split
  case isFalse => exact records_nothing rfl (.refl ctx) rfl
  case isTrue =>
    refine records_bind (hrun child ctx.mark.2) fun outcome after step h => ?_
    rw [← h.success]
    split
    case isTrue hmatched => exact .some ⟨hmatched, h.place, h.adds.complete kind⟩
    case isFalse => exact .some ⟨h.success, h.place, h.adds.abandon⟩

/-- A label changes what is said to be expected, which is not logged. -/
theorem records_labeled (hrun : Recording run eval) (self child : Grammar) (ctx : Context input) :
    Records ctx (labeled run self child ctx) (eval child ctx.view) := by
  have hrecords := hrun child ctx
  unfold labeled
  generalize run child ctx = reply at hrecords ⊢
  generalize eval child ctx.view = yield at hrecords ⊢
  cases hrecords with
  | none => exact .none
  | @some reply step h =>
    dsimp only
    split
    case isTrue hfailed =>
      have hsuccess : reply.1.success = false := by
        simpa using (Bool.and_eq_true_iff.mp hfailed).1
      exact .some ⟨hsuccess.symm.trans h.success, h.place, h.adds⟩
    case isFalse => exact .some ⟨h.success, h.place, h.adds⟩

/-- The condition sees the view. -/
theorem records_lookahead (hrun : Recording run eval) (self child : Grammar)
    (holds : View → Bool) (ctx : Context input) :
    Records ctx (lookahead run self child holds ctx)
      (Direct.lookahead eval child holds ctx.view) := by
  unfold lookahead Direct.lookahead
  split
  case isTrue => exact hrun child ctx
  case isFalse => exact records_nothing rfl (.refl ctx) rfl

/-- The text that selects the grammar is that of the next token. -/
theorem records_capture (hrun : Recording run eval) (self : Grammar) (select : String → Grammar)
    (ctx : Context input) :
    Records ctx (capture run self select ctx) (Direct.capture eval select ctx.view) := by
  unfold capture Direct.capture
  rw [atEnd_view]
  split
  case isTrue => exact records_nothing rfl (.refl ctx) rfl
  case isFalse => exact hrun (select ctx.text) ctx

/-- A rule is recorded by its body. -/
theorem records_reference (hrun : Recording run eval) (self : Grammar) (name : String)
    (body : Option Grammar) (ctx : Context input) :
    Records ctx (reference run self name body ctx) (Direct.reference eval body ctx.view) := by
  unfold reference Direct.reference
  split
  case h_1 body => exact hrun body ctx
  case h_2 => exact records_nothing rfl (.refl ctx) rfl

-- ========================================================= recovery

/-- Only outside an attempt does a form recover, and then from where its child
started. -/
theorem records_orRecover (hrun : Recording run eval) (child : Grammar)
    {recover : Context input → Reply input} {instead : View → Option Yield}
    (hrecover : ∀ ctx : Context input, ctx.inAttempt = false →
      Records ctx (recover ctx) (instead ctx.view)) (ctx : Context input) :
    Records ctx (orRecover run child recover ctx)
      (Direct.orRecover eval child instead ctx.view) := by
  unfold orRecover Direct.orRecover
  rw [show ctx.view.inAttempt = ctx.inAttempt from rfl]
  split
  case isTrue => exact hrun child ctx
  case isFalse hrecovers =>
    refine records_bind (hrun child ctx.start.2) fun outcome after step h => ?_
    rw [← h.success]
    split
    case isTrue => exact .some ⟨h.success, h.place, h.adds.commit⟩
    case isFalse =>
      rw [← view_rollback h.adds]
      refine records_after h.adds.rollback (hrecover _ ?_)
      rw [h.adds.rollback.inAttempt]
      exact Bool.eq_false_iff.mpr hrecovers

/-- A report is logged where something is missing, and nothing is consumed. -/
theorem records_relax (hrun : Recording run eval) (message : String) (child : Grammar)
    (ctx : Context input) :
    Records ctx (relax run message child ctx) (Direct.relax eval message child ctx.view) :=
  records_orRecover hrun child (fun _ hrecovers =>
    .some ⟨rfl, rfl, adds_report hrecovers (.missing message _)⟩) ctx

/-- Nothing is left of the trial of a synchronisation point. -/
theorem syncMatches_eq (hrun : Extending run) {sync : Grammar} {matched : Bool}
    {after : Context input} (h : syncMatches run sync ctx = some (matched, after)) :
    ∃ nextId, after = { ctx with nextId := nextId } := by
  unfold syncMatches at h
  dsimp only at h
  obtain ⟨outcome, last, htrial, h⟩ := reply_bind h
  cases h
  exact ⟨_, rollback_eq (hrun _ _ _ htrial).speculative⟩

/-- What is skipped on the way to a synchronisation point consists of whole tokens, whatever
trials are made in between. -/
theorem skips_skipTo (hrun : Extending run) (sync : Grammar) (ctx : Context input) :
    ∀ after : Context input, skipTo run sync ctx = some after → Skips ctx after := by
  fun_induction skipTo run sync ctx with
  | case1 ctx =>
    intro _ h
    cases h
    exact .withNextId ctx _
  | case2 ctx =>
    intro _ h
    cases h
    exact .withNextId ctx _
  | case3 =>
    intro _ h
    cases h
  | case4 ctx _ _ last hsync =>
    intro _ h
    cases h
    obtain ⟨nextId, rfl⟩ := syncMatches_eq hrun hsync
    exact .withNextId ctx nextId
  | case5 ctx _ _ last hsync place skipped hprogress ih =>
    intro after h
    obtain ⟨nextId, rfl⟩ := syncMatches_eq hrun hsync
    exact ((Skips.withNextId ctx nextId).trans (Skips.skipTokenTree _)).trans (ih after h)
  | case6 =>
    intro _ h
    cases h

/-- There is nothing to skip, or what is skipped goes into an error node with a
report. -/
theorem skipMalformed_cases (hrun : Extending run) {sync : Grammar} {message : String}
    {outcome : Outcome} {after : Context input}
    (h : skipMalformed run sync message ctx = some (outcome, after)) :
    outcome = .matched after.place ∧
      ((ctx.atEnd || ctx.isAt .layoutEnd) = true ∧ after = ctx.report (.skipped ctx.point message)
        ∨ ctx.place < input.size ∧ ctx.isAt .layoutEnd = false ∧ ctx.SameBook after ∧
          ∃ last, skipTo run sync ctx.mark.2.skipTokenTree.2 = some last
            ∧ Skips ctx.mark.2 last ∧ after.place = last.place
            ∧ after.events.toList = ctx.events.toList
              ++ (.start (some .error) none :: tokenEvents ctx.place last.place
                ++ [.finish, .report (skippedReport input ctx.place last.place message)])) := by
  unfold skipMalformed at h
  split at h
  case isTrue hnothing =>
    cases h
    exact ⟨rfl, .inl ⟨hnothing, rfl⟩⟩
  case isFalse hinside =>
    obtain ⟨hend, hstop⟩ := Bool.or_eq_false_iff.mp (Bool.eq_false_iff.mpr hinside)
    have hplace : ctx.place < input.size :=
      place_lt_size (by rw [hend]; exact Bool.false_ne_true)
    dsimp only at h
    split at h
    case h_1 => cases h
    case h_2 last hskip =>
      cases h
      have hskips := (Skips.skipTokenTree ctx.mark.2).trans (skips_skipTo hrun sync _ _ hskip)
      obtain ⟨hbook, hevents⟩ := hskips.reported message
      exact ⟨rfl, .inr ⟨hplace, hstop, hbook, last, hskip, hskips, rfl, hevents⟩⟩

/-- Blocks are skipped in the run as in the evaluation, place by place. -/
theorem place_skipBlocks (ctx : Context input) (depth : Nat) :
    (ctx.skipBlocks depth).place = Direct.skipBlocks input ctx.place depth := by
  fun_induction Context.skipBlocks ctx depth with
  | case1 ctx depth hend =>
    unfold Direct.skipBlocks
    rw [dif_pos (by simpa [atEnd] using hend)]
  | case2 ctx depth hinside hkind =>
    unfold Direct.skipBlocks
    rw [dif_neg (by simpa [atEnd] using hinside)]
    exact (if_pos hkind).symm
  | case3 ctx depth hinside inner hkind hdepth =>
    unfold Direct.skipBlocks
    rw [dif_neg (by simpa [atEnd] using hinside)]
    refine Eq.trans ?_ ((if_neg hkind).trans (if_pos hdepth)).symm
    unfold advance
    rw [if_neg hinside]
  | case4 ctx depth hinside inner hkind hdepth ih =>
    unfold Direct.skipBlocks
    rw [dif_neg (by simpa [atEnd] using hinside)]
    refine Eq.trans ?_ ((if_neg hkind).trans (if_neg hdepth)).symm
    rw [ih]
    unfold advance
    rw [if_neg hinside]
    rfl

/-- One token or one block is skipped, as it is without a context. -/
theorem place_skipTokenTree (ctx : Context input) :
    ctx.skipTokenTree.2.place = Direct.skipBlocks input ctx.place 0 := by
  rw [← place_skipBlocks]
  unfold skipTokenTree
  split
  case isTrue hend =>
    unfold skipBlocks
    rw [dif_pos hend]
  case isFalse => rfl

/-- The trial of a synchronisation point. -/
theorem records_syncMatches (hrun : Recording run eval) (sync : Grammar) (ctx : Context input) :
    Option.Rel
      (fun trial step => trial.1 = step.success ∧ ∃ nextId, trial.2 = { ctx with nextId := nextId })
      (syncMatches run sync ctx) (eval sync ctx.view.speculative) := by
  unfold syncMatches
  rw [← bind_pure (eval sync ctx.view.speculative)]
  refine records_bind (hrun sync (ctx.start.2.setInAttempt true)) fun outcome after step h => ?_
  exact .some ⟨h.success, _, rollback_eq h.adds.extends.speculative⟩

/-- At each place both try the synchronisation point, and the trial leaves nothing but a
number behind. -/
theorem records_skipTo (hrun : Recording run eval) (sync : Grammar) (ctx : Context input) :
    Option.Rel (fun after place => after.place = place) (skipTo run sync ctx)
      (Direct.skipTo eval sync ctx.view) := by
  induction hleft : input.size - ctx.place using Nat.strongRecOn generalizing ctx with
  | ind left ih =>
    unfold skipTo Direct.skipTo
    rw [atEnd_view, show ctx.view.isAt .layoutEnd = ctx.isAt .layoutEnd from rfl]
    split
    case isTrue => exact .some rfl
    case isFalse hend =>
      have hinside := place_lt_size hend
      split
      case isTrue => exact .some rfl
      case isFalse =>
        have htrial := records_syncMatches hrun sync ctx
        generalize syncMatches run sync ctx = trial at htrial ⊢
        generalize eval sync ctx.view.speculative = step at htrial ⊢
        cases htrial with
        | none => exact .none
        | @some trial step h =>
          obtain ⟨matched, after⟩ := trial
          obtain ⟨rfl, nextId, rfl⟩ := h
          simp only [Option.bind_eq_bind, Option.bind_some]
          cases hmatched : step.success with
          | true => exact .some rfl
          | false =>
            have hskipped := place_skipTokenTree ({ ctx with nextId := nextId } : Context input)
            have hflag :=
              (Skips.skipTokenTree ({ ctx with nextId := nextId } : Context input)).inAttempt
            dsimp only at hskipped hflag ⊢
            rw [if_neg Bool.false_ne_true, show ctx.view.input = input from rfl, place_view,
              hskipped]
            split
            case isFalse => exact .none
            case isTrue hprogress =>
              rw [← hskipped, ← view_movedTo hflag]
              refine ih _ ?_ _ rfl
              rw [hskipped]
              omega

/-- The tokens that are skipped are logged inside one error node, with the report behind it. -/
theorem records_skipMalformed (hrun : Recording run eval) (sync : Grammar) (message : String)
    (ctx : Context input) (hrecovers : ctx.inAttempt = false) :
    Records ctx (skipMalformed run sync message ctx)
      (Direct.skipMalformed eval sync message ctx.view) := by
  unfold skipMalformed Direct.skipMalformed
  rw [atEnd_view, show ctx.view.isAt .layoutEnd = ctx.isAt .layoutEnd from rfl]
  split
  case isTrue => exact .some ⟨rfl, rfl, adds_report hrecovers (.skipped message)⟩
  case isFalse hinside =>
    have hview := view_movedTo (Skips.skipTokenTree ctx.mark.2).inAttempt
    have hskipTo := records_skipTo hrun sync ctx.mark.2.skipTokenTree.2
    rw [hview, place_skipTokenTree] at hskipTo
    dsimp only
    change Option.Rel _ _ (Direct.skipTo eval sync
      (ctx.view.movedTo (Direct.skipBlocks ctx.view.input ctx.view.place 0))) at hskipTo
    generalize hskip : skipTo run sync ctx.mark.2.skipTokenTree.2 = skipped at hskipTo ⊢
    generalize Direct.skipTo eval sync (ctx.view.movedTo _) = place at hskipTo ⊢
    cases hskipTo with
    | none => exact .none
    | @some last place h =>
      subst h
      have hskips := (Skips.skipTokenTree ctx.mark.2).trans
        (skips_skipTo hrun.extending sync _ _ hskip)
      obtain ⟨hend, _⟩ := Bool.or_eq_false_iff.mp (Bool.eq_false_iff.mpr hinside)
      have hplace : ctx.place ≤ input.size :=
        Nat.le_of_lt (place_lt_size (by rw [hend]; exact Bool.false_ne_true))
      obtain ⟨hbook, hevents⟩ := hskips.reported message
      exact .some ⟨rfl, rfl, hbook, _, hevents, .skipped message (by rw [hrecovers]; rfl)
        hskips.onward (hskips.inside hplace)⟩

/-- Recovery is recorded where the child is taken back. -/
theorem records_relaxTo (hrun : Recording run eval) (message : String) (child sync : Grammar)
    (ctx : Context input) :
    Records ctx (relaxTo run message child sync ctx)
      (Direct.relaxTo eval message child sync ctx.view) :=
  records_orRecover hrun child (records_skipMalformed hrun sync message) ctx

end Form

-- ========================================================== the run

namespace Grammar

open Form

/-- One level of a run records what one level of the evaluation yields, if what is
below does. -/
theorem records_runLevel (hrun : Recording run eval) (rules : RuleTable) :
    Recording (runLevel rules run) (Direct.evalLevel eval rules) := by
  intro grammar ctx
  cases grammar with
  | token kind => exact records_single _ _ ctx
  | literal text => exact records_single _ _ ctx
  | seq parts => exact records_seq hrun parts _ ctx rfl
  | choice alternatives => exact records_choice hrun _ alternatives ctx
  | many child least => exact records_repeatFrom hrun _ child least 0 _ ctx rfl
  | optional child => exact records_optional hrun child ctx
  | attempt child => exact records_attempt hrun _ child ctx
  | heal child => exact records_heal hrun _ child ctx
  | guard child message accepts => exact records_guard hrun _ child message accepts ctx
  | node kind child => exact records_node hrun kind child ctx
  | labeled label child => exact records_labeled hrun _ child ctx
  | relax message child => exact records_relax hrun message child ctx
  | relaxTo message child sync => exact records_relaxTo hrun message child sync ctx
  | fold kind start next => exact records_fold hrun kind start next ctx
  | continuation kind start rest => exact records_continuation hrun kind start rest ctx
  | reference name rule => exact records_reference hrun _ name (rules rule) ctx
  | succeed => exact records_nothing rfl (.refl ctx) rfl
  | lookahead holds child => exact records_lookahead hrun _ child holds ctx
  | capture name select => exact records_capture hrun _ select ctx

/-- Whatever the grammar and its rules, a run records what the evaluation with as
many levels yields, and answers only if that does. -/
theorem records_runWithin (rules : RuleTable) (levels : Nat) :
    Recording (runWithin rules levels : Runner input) (Direct.evalWithin rules levels) := by
  induction levels with
  | zero => exact fun _ _ => .none
  | succ levels ih =>
    intro grammar ctx
    rw [runWithin_succ]
    exact records_runLevel ih rules grammar ctx

/-- Whatever the grammar and its rules, a run that gives an answer has only added to
the log, and has closed all that it opened. -/
theorem extends_runWithin (rules : RuleTable) (levels : Nat) :
    Extending (runWithin rules levels : Runner input) :=
  (records_runWithin rules levels).extending

end Grammar

end Offside
