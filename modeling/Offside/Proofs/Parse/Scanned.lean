import Offside.Proofs.Parse.Candid
import Offside.Proofs.Parse.Committed
import Offside.Proofs.Parse.Stopped

/-!
What a choice reports, and what it would report if it tried all alternatives.

A choice passes over the alternatives that the current token cannot start. Such an
alternative would have failed at once, so success, place and log are what they
would have been. But it would have said what it expects, and whoever passes over it
does not hear that. `Fewer` is what the outcome of a choice owes to that of the scan
of all alternatives: it is the same outcome where a token was consumed; elsewhere it
has the same message, and expects nothing that the scan does not.

Messages and expectations are those of candid alternatives, of which it is known
what they would have said. So what is said of them is under a proposition `told`.

# The induction

`choose_filter` goes through all alternatives and, side by side, through those that
are tried. An alternative that is tried does the same in both, in contexts that
share their log. One that is passed over leaves the one outcome with something more
and the other as it was.
-/

namespace Offside

open Form Context

variable {input : Input}

-- ================================================== one log

namespace Context

variable {ctx other after last : Context input}

/-- Contexts of one place, one flag and one log. -/
abbrev SharesLog (ctx other : Context input) : Prop := Shifted [] [] ctx other

theorem SharesLog.events_eq (h : SharesLog ctx other) : ctx.events = other.events := by
  obtain ⟨log, hctx, hother⟩ := h.events
  rw [← Array.toList_inj, hctx, hother]

theorem SharesLog.of_eq (hplace : ctx.place = other.place)
    (hattempt : ctx.inAttempt = other.inAttempt) (hevents : ctx.events = other.events) :
    SharesLog ctx other := by
  refine ⟨hplace, hattempt, ctx.events.toList, rfl, ?_⟩
  rw [hevents]
  rfl

theorem SharesLog.refl (ctx : Context input) : SharesLog ctx ctx := .of_eq rfl rfl rfl

theorem SharesLog.trans (h : SharesLog ctx other) (hlast : SharesLog other last) :
    SharesLog ctx last :=
  .of_eq (h.place.trans hlast.place) (h.inAttempt.trans hlast.inAttempt)
    (h.events_eq.trans hlast.events_eq)

end Context

-- ================================================== fewer expectations

/-- What the outcome of fewer alternatives owes to that of the scan of all of them, at
the place where they were tried. -/
structure Outcome.Fewer (told : Prop) (start : Nat) (scan result : Outcome) : Prop where
  success : result.success = scan.success
  place : result.place = scan.place
  /-- Where a token was consumed, nothing was passed over. -/
  beyond : start < scan.place → result = scan
  message : told → result.message = scan.message
  describes : told → ∀ text ∈ result.descriptions, text ∈ scan.descriptions

/-- The outcome of alternatives that gave up at a place. -/
structure Outcome.GaveUp (start : Nat) (outcome : Outcome) : Prop where
  place : outcome.place = start
  failed : outcome.success = false

namespace Outcome

variable {told : Prop} {start : Nat} {scan result step : Outcome}

theorem Fewer.refl (told : Prop) (start : Nat) (outcome : Outcome) :
    Fewer told start outcome outcome :=
  ⟨rfl, rfl, fun _ => rfl, fun _ => rfl, fun _ _ h => h⟩

theorem Fewer.of_told (h : Fewer told start scan result) (htold : told) :
    Fewer True start scan result :=
  ⟨h.success, h.place, h.beyond, fun _ => h.message htold, fun _ => h.describes htold⟩

/-- One more alternative that was tried by both. -/
theorem Fewer.merge (h : Fewer told start scan result) (hscan : scan.place = start)
    (hstep : start ≤ step.place) : Fewer told start (scan.merge step) (result.merge step) := by
  have hresult : result.place = start := h.place.trans hscan
  rcases Nat.lt_or_eq_of_le hstep with hlt | heq
  · rw [merge_of_lt (by omega), merge_of_lt (by omega)]
    exact .refl told start step
  · have hfirst : scan.place = step.place := hscan.trans heq
    have hsecond : result.place = step.place := hresult.trans heq
    refine ⟨?_, ?_, fun hbeyond => ?_, fun htold => ?_, fun htold text hmem => ?_⟩
    · rw [success_merge, success_merge]
    · rw [merge_of_eq hfirst, merge_of_eq hsecond]
    · rw [merge_of_eq hfirst] at hbeyond
      exact absurd heq (Nat.ne_of_lt hbeyond)
    · rw [merge_of_eq hfirst, merge_of_eq hsecond, h.message htold]
    · rw [mem_descriptions_merge hsecond] at hmem
      rw [mem_descriptions_merge hfirst]
      exact hmem.imp_left (h.describes htold text)

/-- One more alternative that was passed over. -/
theorem Fewer.pass (h : Fewer told start scan result) (hscan : scan.GaveUp start)
    (hstep : step.GaveUp start) (hquiet : told → step.message = none) :
    Fewer told start (scan.merge step) result := by
  have hplace : scan.place = step.place := hscan.place.trans hstep.place.symm
  refine ⟨?_, ?_, fun hbeyond => ?_, fun htold => ?_, fun htold text hmem => ?_⟩
  · rw [success_merge, hstep.failed, h.success, hscan.failed]
  · rw [merge_of_eq hplace]
    exact h.place.trans hplace
  · rw [merge_of_eq hplace] at hbeyond
    exact absurd hstep.place.symm (Nat.ne_of_lt hbeyond)
  · rw [merge_of_eq hplace, hquiet htold, h.message htold]
    cases scan.message with
    | none => rfl
    | some message => rfl
  · rw [mem_descriptions_merge hplace]
    exact .inl (h.describes htold text hmem)

/-- Two alternatives that were given up at one place are given up there together. -/
theorem GaveUp.merge (h : scan.GaveUp start) (hstep : step.GaveUp start) :
    (scan.merge step).GaveUp start := by
  have hplace : scan.place = step.place := h.place.trans hstep.place.symm
  refine ⟨?_, ?_⟩
  · rw [merge_of_eq hplace]
    exact hstep.place
  · rw [success_merge]
    exact hstep.failed

end Outcome

namespace Grammar

open Outcome

variable {rules : RuleTable} {levels : Nat} {ctx : Context input}

-- ================================================== passing over

/-- Wherever the alternative is run at a place, it gives up there; and it makes no report
of its own. -/
def PassedOver (rules : RuleTable) (levels : Nat) (told : Prop) (ctx : Context input)
    (alternative : Grammar) : Prop :=
  ∀ (start : Context input) (outcome : Outcome) (after : Context input),
    start.place = ctx.place → runWithin rules levels alternative start = some (outcome, after) →
      outcome.GaveUp ctx.place ∧ after.place = ctx.place ∧ (told → outcome.message = none)

/-- What the current token cannot start can be passed over. -/
theorem passedOver_of_canStart {told : Prop} {alternative : Grammar}
    (hheads : alternative.headsConsume = true) (hcandid : told → alternative.candid = true)
    (hstart : alternative.canStart ctx.kind = false) :
    PassedOver rules levels told ctx alternative := by
  intro start outcome after hplace hrun
  have hkind : start.kind = ctx.kind := by
    unfold Context.kind
    rw [hplace]
  have hnever : ¬(outcome.success = true ∨ start.place < after.place) := by
    intro htaken
    have hcan := canStart_of_taken hheads hrun htaken
    rw [hkind, hstart] at hcan
    cases hcan
  have hstays : after.place = start.place :=
    Nat.le_antisymm (Nat.le_of_not_lt fun hlt => hnever (.inr hlt))
      (extends_runWithin rules levels _ _ _ hrun).place_le
  have hstops := (stops_runWithin rules levels _ _ _ _ hrun).place
  refine ⟨⟨?_, Bool.eq_false_iff.mpr fun hsuccess => hnever (.inl hsuccess)⟩,
    hstays.trans hplace, fun htold => ?_⟩
  · rw [hstops, hstays, hplace]
  · have hadmits : alternative.first.admits start.kind = false := by
      rw [hkind]
      exact (Bool.or_eq_false_iff.mp hstart).2
    exact (declining_runWithin rules levels _ _ _ hrun (hcandid htold) hadmits).message

-- ================================================== one alternative

/-- An alternative that is taken back leaves the context as it was, but for the number of
the next transaction. -/
theorem sharesLog_rollback {alternative : Grammar} {outcome : Outcome} {between : Context input}
    (h : runWithin rules levels alternative ctx.start.2 = some (outcome, between)) :
    SharesLog (between.rollback ctx.start.1) ctx := by
  rw [rollback_eq (extends_runWithin rules levels _ _ _ h)]
  exact .of_eq rfl rfl rfl

/-- What an alternative that is left reports, it reports from where it was tried. -/
theorem gaveUp_of_left {alternative : Grammar} {step : Outcome} {between : Context input}
    (hrun : runWithin rules levels alternative ctx.start.2 = some (step, between))
    (hleft : step.success = false ∧ between.place ≤ ctx.place) :
    step.GaveUp ctx.place ∧ between.place = ctx.place := by
  have hstays : between.place = ctx.place :=
    Nat.le_antisymm hleft.2 (extends_runWithin rules levels _ _ _ hrun).place_le
  exact ⟨⟨(stops_runWithin rules levels _ _ _ _ hrun).place.trans hstays, hleft.1⟩, hstays⟩

-- ================================================== all alternatives

/-- All alternatives, and those that are tried. -/
theorem choose_filter {told : Prop} {tries : Grammar → Bool} {start : Nat}
    {alternatives : List Grammar} {outcome : Outcome} {after : Context input} :
    ∀ (sofar others : Option Outcome) (ctx other : Context input), ctx.place = start →
      (∀ alternative ∈ alternatives, tries alternative = false →
        PassedOver rules levels told ctx alternative) →
      SharesLog ctx other → (triedSoFar start sofar).GaveUp start →
      Fewer told start (triedSoFar start sofar) (triedSoFar start others) →
      choose (runWithin rules levels) sofar alternatives ctx = some (outcome, after) →
      ∃ result last, choose (runWithin rules levels) others (alternatives.filter tries) other
          = some (result, last)
        ∧ Fewer told start outcome result ∧ SharesLog after last := by
  induction alternatives with
  | nil =>
    rintro sofar others ctx other rfl _ hlog _ hfewer h
    cases h
    refine ⟨_, other, rfl, ?_, hlog⟩
    rw [← hlog.place]
    exact hfewer
  | cons alternative rest ih =>
    rintro sofar others ctx other rfl hpassed hlog hgaveUp hfewer h
    obtain ⟨hhead, hrest⟩ := List.forall_mem_cons.mp hpassed
    obtain ⟨step, between, hstep, hcases⟩ := choose_cons h
    have hle : ctx.place ≤ step.place := by
      rw [(stops_runWithin rules levels _ _ _ _ hstep).place]
      exact (extends_runWithin rules levels _ _ _ hstep).place_le
    have hjoined : joined sofar step = (triedSoFar ctx.place sofar).merge step :=
      joined_eq_merge hle
    cases htries : tries alternative with
    | false =>
      -- only the scan has one more outcome
      obtain ⟨hstepped, hstays, hquiet⟩ := hhead htries ctx.start.2 step between rfl hstep
      rw [choose_of_left hstep ⟨hstepped.failed, Nat.le_of_eq hstays⟩] at h
      have hpass := hfewer.pass hgaveUp hstepped hquiet
      have hleft := hgaveUp.merge hstepped
      rw [← hjoined] at hpass hleft
      rw [List.filter_cons_of_neg (by rw [htries]; exact Bool.false_ne_true)]
      exact ih (some (joined sofar step)) others (between.rollback ctx.start.1) other rfl hrest
        ((sharesLog_rollback hstep).trans hlog) hleft hpass h
    | true =>
      -- both have the same one
      have hmerged := hfewer.merge hgaveUp.place hle
      rw [← hjoined, ← joined_eq_merge hle] at hmerged
      obtain ⟨_, final, hfinal, rfl, hshared⟩ :=
        (Likeness.shifted input [] []).simulates_runWithin rules (Nat.le_refl levels) alternative
          _ _ ((Likeness.shifted input [] []).start hlog) _ _ hstep
      rw [List.filter_cons_of_pos htries]
      rcases hcases with ⟨htaken, rfl, rfl⟩ | ⟨hleft, hbehind⟩
      · rw [hlog.place, hshared.place] at htaken
        exact ⟨_, _, choose_of_taken hfinal htaken, hmerged,
          (Likeness.shifted input [] []).commit hlog hshared⟩
      · have hnext := hgaveUp.merge (gaveUp_of_left hstep hleft).1
        rw [← hjoined] at hnext
        have hagain := hleft
        rw [hlog.place, hshared.place] at hagain
        rw [choose_of_left hfinal hagain]
        exact ih (some (joined sofar step)) (some (joined others step))
          (between.rollback ctx.start.1) _ rfl hrest
          ((Likeness.shifted input [] []).rollback hlog hshared) hnext hmerged hbehind

/-- Trying all alternatives in order comes to a reply. -/
def Scans (rules : RuleTable) (alternatives : List Grammar) (ctx : Context input)
    (reply : Outcome × Context input) : Prop :=
  ∃ levels, choose (runWithin rules levels) none alternatives ctx = some reply

/-- All alternatives come to a reply here, and none of them succeeds or consumes a
token. -/
def Undecided (rules : RuleTable) (alternatives : List Grammar) (ctx : Context input) : Prop :=
  ∀ alternative ∈ alternatives, ∃ reply, Evaluates rules alternative ctx reply ∧ ¬Takes ctx reply

/-- What is run where the log is the same comes to the same outcome. -/
theorem outcome_eq_of_sharesLog {here : Context input} {alternative : Grammar} {step : Outcome}
    {between : Context input} {reply : Outcome × Context input} (hlog : SharesLog ctx here)
    (hrun : runWithin rules levels alternative ctx.start.2 = some (step, between))
    (hreply : Evaluates rules alternative here reply) :
    step = reply.1 ∧ between.place = reply.2.place := by
  obtain ⟨another, hanother, houtcome, hplace, _⟩ :=
    Evaluates.sameLog ⟨levels, hrun⟩ here hlog.place hlog.inAttempt hlog.events_eq
  obtain rfl := hreply.unique hanother
  exact ⟨houtcome.symm, hplace.symm⟩

/-- Trying alternatives that give up describes what each of them does. -/
theorem choose_describes {here : Context input} {alternatives : List Grammar} {outcome : Outcome}
    {after : Context input} (hall : Undecided rules alternatives here) :
    ∀ (sofar : Option Outcome) (ctx : Context input), SharesLog ctx here →
      (triedSoFar here.place sofar).GaveUp here.place →
      choose (runWithin rules levels) sofar alternatives ctx = some (outcome, after) →
      ∀ text, text ∈ outcome.descriptions
        ↔ text ∈ (triedSoFar here.place sofar).descriptions
          ∨ ∃ alternative ∈ alternatives, ∃ reply, Evaluates rules alternative here reply
            ∧ text ∈ reply.1.descriptions := by
  induction alternatives with
  | nil =>
    intro sofar ctx hlog _ h text
    cases h
    rw [hlog.place]
    simp [triedSoFar]
  | cons alternative rest ih =>
    intro sofar ctx hlog hgaveUp h text
    obtain ⟨⟨reply, hreply, hleft⟩, hrest⟩ := List.forall_mem_cons.mp hall
    obtain ⟨step, between, hstep, hcases⟩ := choose_cons h
    obtain ⟨rfl, hplace⟩ := outcome_eq_of_sharesLog hlog hstep hreply
    rcases hcases with ⟨htaken, _⟩ | ⟨hgone, hbehind⟩
    · rw [hlog.place, hplace] at htaken
      exact absurd htaken hleft
    · obtain ⟨hstepped, _⟩ := gaveUp_of_left hstep hgone
      rw [hlog.place] at hstepped
      -- the outcome so far and that of the alternative are at one place, so both descriptions are
      -- kept
      have hjoined : joined sofar reply.1 = (triedSoFar here.place sofar).merge reply.1 :=
        joined_eq_merge (Nat.le_of_eq hstepped.place.symm)
      have hmerged := hgaveUp.merge hstepped
      rw [← hjoined] at hmerged
      rw [ih hrest (some (joined sofar reply.1)) _ ((sharesLog_rollback hstep).trans hlog)
        hmerged hbehind text]
      change text ∈ (joined sofar reply.1).descriptions ∨ _ ↔ _
      rw [hjoined, mem_descriptions_merge (hgaveUp.place.trans hstepped.place.symm), or_assoc,
        List.exists_mem_cons_iff]
      have honce : text ∈ reply.1.descriptions
          ↔ ∃ other, Evaluates rules alternative here other ∧ text ∈ other.1.descriptions := by
        constructor
        · exact fun hmem => ⟨reply, hreply, hmem⟩
        · rintro ⟨other, hother, hmem⟩
          rw [hreply.unique hother]
          exact hmem
      rw [honce]

-- ======================================================== the choice

section Choices

variable {alternatives : List Grammar} {outcome result : Outcome} {after last : Context input}

/-- A choice reports itself, or tries its candidates. -/
theorem choice_cases {run : Runner input} {reply : Outcome × Context input}
    (h : Form.choice run (.choice alternatives) alternatives ctx = some reply) :
    dispatchThreshold ≤ alternatives.length ∧ candidates alternatives ctx.kind = []
        ∧ reply = (.failed ctx.place (.choice alternatives), ctx)
      ∨ choose run none (candidates alternatives ctx.kind) ctx = some reply
        ∧ (candidates alternatives ctx.kind = [] → alternatives = []) := by
  unfold Form.choice at h
  dsimp only at h
  split at h
  case isTrue hempty =>
    cases h
    obtain ⟨hwide, hnone⟩ := Bool.and_eq_true_iff.mp hempty
    exact .inl ⟨of_decide_eq_true hwide, List.isEmpty_iff.mp hnone, rfl⟩
  case isFalse htried =>
    refine .inr ⟨h, fun hnone => ?_⟩
    by_cases hwide : dispatchThreshold ≤ alternatives.length
    · exact absurd (by simp [hasDispatch, hwide, hnone]) htried
    · unfold candidates at hnone
      rwa [if_neg hwide] at hnone

/-- A choice that has room for all alternatives and tries none of them has none that the
current token can start. -/
theorem canStart_of_candidates_eq_nil (hroom : alternatives.length ≤ dispatchCapacity)
    (h : candidates alternatives ctx.kind = []) :
    ∀ alternative ∈ alternatives, alternative.canStart ctx.kind = false := by
  intro alternative hmem
  rw [Bool.eq_false_iff]
  intro hstart
  have hcandidate := mem_candidates hroom hmem hstart
  rw [h] at hcandidate
  cases hcandidate

/-- Where none of the alternatives can start, their scan reports what all of them
describe. -/
theorem scan_declined (hcandid : ∀ alternative ∈ alternatives, alternative.candid = true)
    (hnone : ∀ alternative ∈ alternatives, alternative.canStart ctx.kind = false)
    (h : choose (runWithin rules levels) none alternatives ctx = some (outcome, after)) :
    Declined (choiceDescriptions alternatives) false ctx (outcome, after) := by
  refine declined_choose (declining_runWithin rules levels) alternatives none [] ctx
    ((Declined.matched ctx).withSuccess false) h fun alternative hmem => ?_
  obtain ⟨hnullable, hadmits⟩ := Bool.or_eq_false_iff.mp (hnone alternative hmem)
  exact ⟨hnullable, hcandid alternative hmem, hadmits⟩

/-- Wherever the scan of the alternatives answers, the choice does, with fewer
expectations. -/
theorem choice_of_scan {told : Prop} (hroom : alternatives.length ≤ dispatchCapacity)
    (hheads : ∀ alternative ∈ alternatives, alternative.headsConsume = true)
    (hcandid : told → ∀ alternative ∈ alternatives, alternative.candid = true)
    (h : choose (runWithin rules levels) none alternatives ctx = some (outcome, after)) :
    ∃ result last, Form.choice (runWithin rules levels) (.choice alternatives) alternatives ctx
        = some (result, last)
      ∧ Fewer told ctx.place outcome result ∧ SharesLog after last := by
  obtain ⟨tries, hcandidates, hpassed⟩ := candidates_eq_filter hroom ctx.kind
  have hskips : ∀ alternative ∈ alternatives, tries alternative = false →
      PassedOver rules levels told ctx alternative :=
    fun alternative hmem hskipped => passedOver_of_canStart (hheads alternative hmem)
      (fun htold => hcandid htold alternative hmem) (hpassed alternative hskipped)
  obtain ⟨tried, final, htried, hfewer, hlog⟩ :=
    choose_filter none none ctx ctx rfl hskips (.refl ctx) ⟨rfl, rfl⟩ (.refl told ctx.place _) h
  rw [← hcandidates] at htried
  unfold Form.choice
  dsimp only
  split
  case isFalse => exact ⟨tried, final, htried, hfewer, hlog⟩
  case isTrue hempty =>
    -- the choice speaks for its alternatives, as they would for themselves
    have hnil := List.isEmpty_iff.mp (Bool.and_eq_true_iff.mp hempty).2
    rw [hnil] at htried
    cases htried
    refine ⟨_, ctx, rfl, ⟨hfewer.success, hfewer.place, fun hbeyond => ?_, hfewer.message,
      fun htold text hmem => ?_⟩, hlog⟩
    · rw [← hfewer.place] at hbeyond
      exact absurd hbeyond (Nat.lt_irrefl _)
    · have hdeclined := scan_declined (hcandid htold) (canStart_of_candidates_eq_nil hroom hnil) h
      rw [mem_descriptions_failed] at hmem
      exact (hdeclined.describes text).mpr hmem

-- ================================================== what is missing

/-- The scan of the alternatives consumes a token wherever the current one has a kind. -/
def Commits (rules : RuleTable) (alternatives : List Grammar) (kind : TokenKind) : Prop :=
  ∀ (input : Input) (ctx : Context input) (scan : Outcome × Context input), ctx.kind = kind →
    Scans rules alternatives ctx scan → ctx.place < scan.2.place

/-- At a kind, a table selects none of the alternatives, or all of them, or they commit to
one. -/
def Settled (rules : RuleTable) (alternatives : List Grammar) (kind : TokenKind) : Prop :=
  candidates alternatives kind = [] ∨ candidates alternatives kind = alternatives
    ∨ Commits rules alternatives kind

/-- Where the alternatives are settled, the choice expects all that their scan does. -/
theorem describes_of_settled (hroom : alternatives.length ≤ dispatchCapacity)
    (hcandid : ∀ alternative ∈ alternatives, alternative.candid = true)
    (hsettled : Settled rules alternatives ctx.kind)
    (hscan : choose (runWithin rules levels) none alternatives ctx = some (outcome, after))
    (hresult : Form.choice (runWithin rules levels) (.choice alternatives) alternatives ctx
      = some (result, last)) (hfewer : Fewer True ctx.place outcome result) :
    ∀ text ∈ outcome.descriptions, text ∈ result.descriptions := by
  have hsame : candidates alternatives ctx.kind = alternatives →
      choose (runWithin rules levels) none (candidates alternatives ctx.kind) ctx
        = some (result, last) → ∀ text ∈ outcome.descriptions, text ∈ result.descriptions := by
    intro hall htried
    rw [hall, hscan] at htried
    cases htried
    exact fun _ hmem => hmem
  rcases choice_cases hresult with ⟨_, hnone, hreply⟩ | ⟨htried, hempty⟩
  · cases hreply
    intro text hmem
    have hdeclined := scan_declined hcandid (canStart_of_candidates_eq_nil hroom hnone) hscan
    rw [mem_descriptions_failed]
    exact (hdeclined.describes text).mp hmem
  · rcases hsettled with hnone | hall | hcommits
    · exact hsame (hnone.trans (hempty hnone).symm) htried
    · exact hsame hall htried
    · have hbeyond : ctx.place < outcome.place := by
        rw [(stops_choose (stops_runWithin rules levels) (extends_runWithin rules levels)
          alternatives none ctx nofun hscan).place]
        exact hcommits _ ctx _ rfl ⟨levels, hscan⟩
      rw [hfewer.beyond hbeyond]
      exact fun _ hmem => hmem

/-- Where no alternative is taken, the choice expects what the scan does just if it has
none to try, or what describes the alternatives that it passes over is expected
anyway. -/
theorem descriptions_eq_scan_iff (hroom : alternatives.length ≤ dispatchCapacity)
    (hcandid : ∀ alternative ∈ alternatives, alternative.candid = true)
    (hundecided : Undecided rules alternatives ctx)
    (hscan : choose (runWithin rules levels) none alternatives ctx = some (outcome, after))
    (hresult : Form.choice (runWithin rules levels) (.choice alternatives) alternatives ctx
      = some (result, last)) (hfewer : Fewer True ctx.place outcome result) :
    result.descriptions = outcome.descriptions
      ↔ candidates alternatives ctx.kind = []
        ∨ ∀ alternative ∈ alternatives, alternative.canStart ctx.kind = false →
          ∀ text ∈ alternative.startDescriptions, text ∈ result.descriptions := by
  have hdescribes := choose_describes hundecided none ctx (.refl ctx) ⟨rfl, rfl⟩ hscan
  have hnothing : ∀ text, text ∉ (triedSoFar ctx.place none).descriptions := fun text => by
    rw [mem_descriptions]
    rintro ⟨_, hmem, _⟩
    cases hmem
  have hpassed : ∀ alternative ∈ alternatives, alternative.canStart ctx.kind = false →
      ∀ reply, Evaluates rules alternative ctx reply →
        ∀ text, text ∈ reply.1.descriptions ↔ text ∈ alternative.startDescriptions := by
    rintro alternative hmem hstart reply ⟨levels, hrun⟩
    exact (declining_runWithin rules levels _ _ _ hrun (hcandid alternative hmem)
      (Bool.or_eq_false_iff.mp hstart).2).describes
  constructor
  · intro hsame
    refine .inr fun alternative hmem hstart text htext => ?_
    obtain ⟨reply, hreply, _⟩ := hundecided alternative hmem
    rw [hsame, hdescribes]
    exact .inr ⟨alternative, hmem, reply, hreply,
      (hpassed alternative hmem hstart reply hreply text).mpr htext⟩
  · intro h
    rw [descriptions_eq_iff]
    refine fun text => ⟨hfewer.describes trivial text, fun hmem => ?_⟩
    rcases h with hnone | hheard
    · exact describes_of_settled hroom hcandid (.inl hnone) hscan hresult hfewer text hmem
    · obtain ⟨alternative, halternative, reply, hreply, htext⟩ :=
        ((hdescribes text).mp hmem).resolve_left (hnothing text)
      cases hstart : alternative.canStart ctx.kind with
      | false =>
        exact hheard alternative halternative hstart text
          ((hpassed alternative halternative hstart reply hreply text).mp htext)
      | true =>
        -- the alternative was tried, so the choice has heard of it
        have hcandidate := mem_candidates hroom halternative hstart
        rcases choice_cases hresult with ⟨_, hnone, _⟩ | ⟨htried, _⟩
        · rw [hnone] at hcandidate
          cases hcandidate
        · have hamong : Undecided rules (candidates alternatives ctx.kind) ctx :=
            fun other hother => hundecided other (mem_of_mem_candidates hother)
          rw [choose_describes hamong none ctx (.refl ctx) ⟨rfl, rfl⟩ htried]
          exact .inr ⟨alternative, hcandidate, reply, hreply, htext⟩

end Choices

end Grammar

end Offside
