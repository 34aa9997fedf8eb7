import Offside.Proofs.Parse.Described
import Offside.Proofs.Parse.Starts

/-!
What is reported where the current token cannot start a grammar.

A grammar describes what it can start with, and a choice that admits none of its
alternatives reports the descriptions of them all without a try. Had they been
tried, each of them would have reported for itself. `Declined` is what a run has to
do for the two to be the same: it stays where it is, succeeds just if the grammar
can match nothing, makes no report of its own, and expects what the grammar
describes.

# Grammars that are candid

Not all grammars do that. One that may be missing goes on as if it had matched, and
expects nothing; so does a repetition at the end of the tokens; and a guard makes a
report of its own on what matched nothing. `Grammar.candid` looks at the parts that
come first and says that there is none of these. It does not look at what is behind
a rule, a text or a captured grammar, since any token may start those.
-/

namespace Offside

namespace Grammar

mutual

/-- Whether the grammar reports just what it describes, where the current token cannot
start it. -/
def candid : Grammar → Bool
  | .token _ | .literal _ | .succeed | .reference .. | .capture .. | .relaxTo .. => true
  | .seq parts => seqCandid parts
  | .choice alternatives => choiceCandid alternatives
  | .many child least => least != 0 && (!child.isNullable && child.candid)
  | .optional child => child.candid
  | .attempt child | .heal child | .node _ child => !child.isNullable || child.candid
  | .guard child .. | .labeled _ child | .lookahead _ child | .fold _ child _
  | .continuation _ child _ => !child.isNullable && child.candid
  | .relax .. => false

/-- Whether the parts of a sequence do, up to and including the first that cannot match
nothing. -/
def seqCandid : List Grammar → Bool
  | [] => true
  | part :: rest => part.candid && (!part.isNullable || seqCandid rest)

/-- Whether all alternatives do, and none of them can match nothing. -/
def choiceCandid : List Grammar → Bool
  | [] => true
  | alternative :: rest =>
    (!alternative.isNullable && alternative.candid) && choiceCandid rest

end

theorem headCandid_iff {child : Grammar} :
    (!child.isNullable && child.candid) = true
      ↔ child.isNullable = false ∧ child.candid = true := by
  rw [Bool.and_eq_true_iff, Bool.not_eq_true']

/-- A choice is candid if each alternative is, and matches something. -/
theorem choiceCandid_iff {alternatives : List Grammar} :
    choiceCandid alternatives = true
      ↔ ∀ alternative ∈ alternatives, alternative.isNullable = false
        ∧ alternative.candid = true := by
  induction alternatives with
  | nil => simp [choiceCandid]
  | cons alternative rest ih => simp [choiceCandid, ih]

/-- A candid choice has no alternative that matches nothing. -/
theorem anyNullable_of_candid {alternatives : List Grammar}
    (h : choiceCandid alternatives = true) : anyNullable alternatives = false := by
  induction alternatives with
  | nil => rfl
  | cons alternative rest ih =>
    obtain ⟨hhead, hrest⟩ := Bool.and_eq_true_iff.mp h
    rw [anyNullable, (headCandid_iff.mp hhead).1, ih hrest]
    rfl

/-- What a choice does not admit no alternative does. -/
theorem firstOfChoice_admits {alternatives : List Grammar} {kind : TokenKind}
    (h : (firstOfChoice alternatives).admits kind = false) :
    ∀ alternative ∈ alternatives, alternative.first.admits kind = false := by
  induction alternatives with
  | nil => exact nofun
  | cons alternative rest ih =>
    rw [firstOfChoice, FirstSet.admits_union, Bool.or_eq_false_iff] at h
    exact List.forall_mem_cons.mpr ⟨h.1, ih h.2⟩

end Grammar

variable {input : Input}

-- ================================================== what is declined

/-- A run that has stayed where it was, with what it expects. -/
structure Declined (texts : List String) (nullable : Bool) (ctx : Context input)
    (reply : Outcome × Context input) : Prop where
  stays : reply.2.place = ctx.place
  stops : reply.1.place = ctx.place
  success : reply.1.success = nullable
  message : reply.1.message = none
  describes : ∀ text, text ∈ reply.1.descriptions ↔ text ∈ texts

/-- Runs of candid grammars that the current token cannot start. -/
def Declining (run : Runner input) : Prop :=
  ∀ (grammar : Grammar) (ctx : Context input) (reply : Outcome × Context input),
    run grammar ctx = some reply → grammar.candid = true →
      grammar.first.admits ctx.kind = false →
      Declined grammar.startDescriptions grammar.isNullable ctx reply

namespace Declined

variable {texts more : List String} {nullable : Bool} {ctx start after : Context input}
  {reply : Outcome × Context input} {outcome step : Outcome}

theorem failed (ctx : Context input) (grammar : Grammar) :
    Declined grammar.startDescriptions false ctx (.failed ctx.place grammar, ctx) :=
  ⟨rfl, rfl, rfl, rfl, fun _ => Outcome.mem_descriptions_failed⟩

theorem matched (ctx : Context input) : Declined [] true ctx (.matched ctx.place, ctx) :=
  ⟨rfl, rfl, rfl, rfl, fun _ => by simp [Outcome.mem_descriptions, Outcome.matched]⟩

/-- The success of an outcome is not part of what it expects. -/
theorem withSuccess (h : Declined texts nullable ctx (outcome, after)) (success : Bool) :
    Declined texts success ctx (outcome.withSuccess success, after) :=
  ⟨h.stays, h.stops, rfl, h.message, h.describes⟩

/-- Contexts count by their place only. -/
theorem transfer (h : Declined texts nullable start reply) (hstart : start.place = ctx.place)
    (hafter : after.place = reply.2.place) : Declined texts nullable ctx (reply.1, after) :=
  ⟨hafter.trans (h.stays.trans hstart), h.stops.trans hstart, h.success, h.message, h.describes⟩

/-- Of two runs in a row, the expectations of both count. -/
theorem merge {early : Bool} (h : Declined texts early ctx (outcome, start))
    (hstep : Declined more nullable start (step, after)) :
    Declined (texts ++ more) nullable ctx (outcome.merge step, after) := by
  have hplace : outcome.place = step.place := h.stops.trans (h.stays.symm.trans hstep.stops.symm)
  refine ⟨hstep.stays.trans h.stays, ?_, ?_, ?_, fun text => ?_⟩
  · exact (Outcome.place_merge_of_le (Nat.le_of_eq hplace)).trans (hstep.stops.trans h.stays)
  · exact (Outcome.success_merge outcome step).trans hstep.success
  · show (outcome.merge step).message = none
    rw [Outcome.merge_of_eq hplace, h.message, hstep.message]
    rfl
  · show text ∈ (outcome.merge step).descriptions ↔ _
    rw [Outcome.mem_descriptions_merge hplace, List.mem_append]
    exact or_congr (h.describes text) (hstep.describes text)

theorem kind_eq (h : Declined texts nullable ctx reply) : reply.2.kind = ctx.kind := by
  unfold Context.kind
  rw [h.stays]

end Declined

-- ============================================================ forms

namespace Form

open Context Grammar

variable {run : Runner input} {ctx : Context input} {reply : Outcome × Context input}

/-- A token that is not there is what is expected. -/
theorem declined_token (self : Grammar) {kind : TokenKind}
    (hfirst : (FirstSet.tokens (.single kind)).admits ctx.kind = false) :
    Declined self.startDescriptions false ctx (single self (ctx.isAt kind) ctx) := by
  have hother : ctx.isAt kind = false := by
    rw [Bool.eq_false_iff]
    intro hat
    rw [show ctx.kind = kind from eq_of_beq hat] at hfirst
    exact Bool.noConfusion (hfirst.symm.trans (TokenSet.contains_single kind))
  unfold single
  rw [hother, Bool.and_false, if_neg Bool.false_ne_true]
  exact .failed ctx self

/-- Parts that match nothing add their descriptions, and the first part that has to match
something fails. -/
theorem declined_seq (hrun : Declining run) (parts : List Grammar) :
    ∀ (sofar : Outcome) (texts : List String) (ctx : Context input),
      Declined texts true ctx (sofar, ctx) → seq run sofar parts ctx = some reply →
      seqCandid parts = true → (firstOfSeq parts).admits ctx.kind = false →
      Declined (texts ++ seqDescriptions parts) (allNullable parts) ctx reply := by
  induction parts with
  | nil =>
    intro sofar texts ctx hsofar h _ _
    cases h
    rw [seqDescriptions, List.append_nil]
    exact hsofar
  | cons part rest ih =>
    intro sofar texts ctx hsofar h hcandid hfirst
    obtain ⟨hpart, hrest⟩ := Bool.and_eq_true_iff.mp hcandid
    unfold seq at h
    obtain ⟨step, between, hstep, h⟩ := reply_bind h
    dsimp only at h
    unfold seqDescriptions allNullable
    unfold firstOfSeq at hfirst
    cases hnullable : part.isNullable with
    | false =>
      -- the part fails, and with it the sequence
      rw [hnullable, if_neg Bool.false_ne_true] at hfirst
      have hdeclined := hrun _ _ _ hstep hpart hfirst
      have hmerged := hsofar.merge hdeclined
      rw [if_neg (by rw [hmerged.success, hnullable]; exact Bool.false_ne_true)] at h
      cases h
      rw [hnullable] at hmerged
      exact hmerged
    | true =>
      -- the part matches nothing, and what follows it comes first
      rw [hnullable, if_pos rfl, FirstSet.admits_union, Bool.or_eq_false_iff] at hfirst
      have hdeclined := hrun _ _ _ hstep hpart hfirst.1
      have hmerged := hsofar.merge hdeclined
      rw [hnullable] at hmerged hrest
      rw [if_pos hmerged.success] at h
      have hbehind := ih (sofar.merge step) (texts ++ part.startDescriptions) between
        (hmerged.transfer hdeclined.stays.symm rfl) h hrest
        (by rw [hdeclined.kind_eq]; exact hfirst.2)
      rw [if_pos rfl, ← List.append_assoc]
      exact hbehind.transfer hdeclined.stays rfl

/-- The outcome of the alternatives tried so far, of which there may be none. -/
def triedSoFar (place : Nat) (sofar : Option Outcome) : Outcome :=
  sofar.getD ((Outcome.matched place).withSuccess false)

/-- Merging with nothing leaves a step as it is, where the step has not gone back. -/
theorem joined_eq_merge {place : Nat} {sofar : Option Outcome} {step : Outcome}
    (h : place ≤ step.place) : joined sofar step = (triedSoFar place sofar).merge step := by
  cases sofar with
  | some earlier => rfl
  | none =>
    show step = Outcome.merge ((Outcome.matched place).withSuccess false) step
    rcases Nat.lt_or_eq_of_le h with hlt | rfl
    · exact (Outcome.merge_of_lt hlt).symm
    · rw [Outcome.merge_of_eq (show ((Outcome.matched step.place).withSuccess false).place
        = step.place from rfl)]
      rfl

/-- Alternatives none of which the current token can start all decline. -/
theorem declined_choose (hrun : Declining run) (alternatives : List Grammar) :
    ∀ (sofar : Option Outcome) (texts : List String) (ctx : Context input),
      Declined texts false ctx (triedSoFar ctx.place sofar, ctx) →
      choose run sofar alternatives ctx = some reply →
      (∀ alternative ∈ alternatives, alternative.isNullable = false ∧ alternative.candid = true
        ∧ alternative.first.admits ctx.kind = false) →
      Declined (texts ++ choiceDescriptions alternatives) false ctx reply := by
  induction alternatives with
  | nil =>
    intro sofar texts ctx hsofar h _
    cases h
    rw [choiceDescriptions, List.append_nil]
    exact hsofar
  | cons alternative rest ih =>
    intro sofar texts ctx hsofar h hall
    obtain ⟨⟨hnullable, hcandid, hfirst⟩, hrest⟩ := List.forall_mem_cons.mp hall
    obtain ⟨step, between, hstep, _⟩ := choose_cons h
    have hdeclined : Declined alternative.startDescriptions false ctx (step, between) := by
      have hstarted := hrun _ _ _ hstep hcandid hfirst
      rw [hnullable] at hstarted
      exact hstarted.transfer rfl rfl
    rw [choose_of_left hstep ⟨hdeclined.success, Nat.le_of_eq hdeclined.stays⟩] at h
    have hjoined : joined sofar step = (triedSoFar ctx.place sofar).merge step :=
      joined_eq_merge (Nat.le_of_eq hdeclined.stops.symm)
    have hmerged := hsofar.merge hdeclined
    rw [← hjoined] at hmerged
    rw [choiceDescriptions, ← List.append_assoc]
    exact (ih (some (joined sofar step)) _ (between.rollback ctx.start.1)
      (hmerged.transfer rfl hdeclined.stays.symm) h hrest).transfer rfl rfl

/-- A choice that the current token cannot start tries nothing, or all. -/
theorem candidates_of_not_admits {alternatives : List Grammar} {kind : TokenKind}
    (hall : ∀ alternative ∈ alternatives, alternative.canStart kind = false) :
    dispatchThreshold ≤ alternatives.length ∧ candidates alternatives kind = []
      ∨ ¬dispatchThreshold ≤ alternatives.length ∧ candidates alternatives kind = alternatives := by
  unfold candidates
  split
  case isTrue hwide =>
    refine .inl ⟨hwide, List.filter_eq_nil_iff.mpr fun alternative hmem => ?_⟩
    rw [hall alternative (List.mem_of_mem_take hmem)]
    exact Bool.false_ne_true
  case isFalse hnarrow => exact .inr ⟨hnarrow, rfl⟩

/-- Whether the alternatives are passed over or tried, each of them says what it describes. -/
theorem declined_choice (hrun : Declining run) {alternatives : List Grammar}
    (h : choice run (.choice alternatives) alternatives ctx = some reply)
    (hcandid : choiceCandid alternatives = true)
    (hfirst : (firstOfChoice alternatives).admits ctx.kind = false) :
    Declined (choiceDescriptions alternatives) false ctx reply := by
  have hall : ∀ alternative ∈ alternatives, alternative.isNullable = false
      ∧ alternative.candid = true ∧ alternative.first.admits ctx.kind = false :=
    fun alternative hmem => ⟨(choiceCandid_iff.mp hcandid _ hmem).1,
      (choiceCandid_iff.mp hcandid _ hmem).2, firstOfChoice_admits hfirst _ hmem⟩
  have hnone : ∀ alternative ∈ alternatives, alternative.canStart ctx.kind = false := by
    intro alternative hmem
    obtain ⟨hnullable, _, hadmits⟩ := hall alternative hmem
    unfold canStart
    rw [hnullable, hadmits]
    rfl
  unfold choice at h
  dsimp only at h
  rcases candidates_of_not_admits hnone with ⟨hwide, hcandidates⟩ | ⟨hnarrow, hcandidates⟩
  · rw [hcandidates, if_pos (by simpa [hasDispatch] using hwide)] at h
    cases h
    exact .failed ctx (.choice alternatives)
  · rw [hcandidates, if_neg (by simp [hasDispatch, hnarrow])] at h
    exact declined_choose hrun alternatives none [] ctx ((Declined.matched ctx).withSuccess false)
      h hall

/-- A repetition that requires a match expects what its child does. -/
theorem declined_many (hrun : Declining run) {self child : Grammar} {least : Nat}
    (h : repeatFrom run self child least 0 (.matched ctx.place) ctx = some reply)
    (hleast : least ≠ 0) (hnullable : child.isNullable = false) (hcandid : child.candid = true)
    (hfirst : child.first.admits ctx.kind = false) :
    Declined child.startDescriptions false ctx reply := by
  unfold repeatFrom at h
  split at h
  case isTrue =>
    cases h
    rw [if_pos (Nat.pos_of_ne_zero hleast)]
    exact (Declined.matched ctx).merge (.failed ctx child)
  case isFalse =>
    dsimp only at h
    obtain ⟨step, between, hchild, h⟩ := reply_bind h
    have hdeclined : Declined child.startDescriptions false ctx (step, between) := by
      have hstarted := hrun _ _ _ hchild hcandid hfirst
      rw [hnullable] at hstarted
      exact hstarted.transfer rfl rfl
    rw [if_neg (by rw [hdeclined.success]; exact Bool.false_ne_true), Progress.isMade_between,
      hdeclined.stays, if_neg (by simp)] at h
    cases h
    rw [show decide (least ≤ 0) = false from decide_eq_false (by omega)]
    exact (((Declined.matched ctx).merge hdeclined).withSuccess false).transfer rfl
      hdeclined.stays.symm

/-- The start of a fold or of a continuation declines in front of an open marker, too. -/
theorem declined_headed (hrun : Declining run) {start : Grammar} {step : Outcome}
    {between : Context input} (hstart : run start ctx.mark.2 = some (step, between))
    (hnullable : start.isNullable = false) (hcandid : start.candid = true)
    (hfirst : start.first.admits ctx.kind = false) :
    Declined start.startDescriptions false ctx (step, between) := by
  have hmarked := hrun _ _ _ hstart hcandid hfirst
  rw [hnullable] at hmarked
  exact hmarked.transfer rfl rfl

/-- Without a start there is nothing to fold. -/
theorem declined_fold (hrun : Declining run) {kind : NodeKind} {start next : Grammar}
    (h : fold run kind start next ctx = some reply) (hnullable : start.isNullable = false)
    (hcandid : start.candid = true) (hfirst : start.first.admits ctx.kind = false) :
    Declined start.startDescriptions false ctx reply := by
  unfold fold at h
  dsimp only at h
  obtain ⟨step, between, hstart, h⟩ := reply_bind h
  have hdeclined := declined_headed hrun hstart hnullable hcandid hfirst
  rw [if_neg (by rw [hdeclined.success]; exact Bool.false_ne_true)] at h
  cases h
  exact hdeclined.transfer rfl rfl

/-- Without a start there is nothing to continue. -/
theorem declined_continuation (hrun : Declining run) {kind : NodeKind} {start rest : Grammar}
    (h : continuation run kind start rest ctx = some reply) (hnullable : start.isNullable = false)
    (hcandid : start.candid = true) (hfirst : start.first.admits ctx.kind = false) :
    Declined start.startDescriptions false ctx reply := by
  unfold continuation at h
  dsimp only at h
  obtain ⟨step, between, hstart, h⟩ := reply_bind h
  have hdeclined := declined_headed hrun hstart hnullable hcandid hfirst
  rw [if_neg (by rw [hdeclined.success]; exact Bool.false_ne_true)] at h
  cases h
  exact hdeclined.transfer rfl rfl

/-- An optional child that declines is left out, and stays expected. -/
theorem declined_optional (hrun : Declining run) {child : Grammar}
    (h : Form.optional run child ctx = some reply) (hcandid : child.candid = true)
    (hfirst : child.first.admits ctx.kind = false) :
    Declined child.startDescriptions true ctx reply := by
  unfold Form.optional at h
  dsimp only at h
  obtain ⟨step, between, hchild, h⟩ := reply_bind h
  have hdeclined := hrun _ _ _ hchild hcandid hfirst
  have hstays : between.place = ctx.place := hdeclined.stays
  rw [Progress.isMade_between, hstays, decide_eq_false (Nat.lt_irrefl _), Bool.or_false] at h
  split at h
  case isTrue hmatched =>
    cases h
    have hkept := hdeclined.withSuccess true
    rw [show step.withSuccess true = step from by rw [← hmatched]; rfl] at hkept
    exact hkept.transfer rfl rfl
  case isFalse =>
    cases h
    exact (hdeclined.withSuccess true).transfer rfl hstays.symm

/-- What is taken back had not moved on, so that its outcome is kept. -/
theorem declined_whole (hrun : Declining run) {self child : Grammar}
    (h : whole run self child ctx = some reply) (hcandid : child.candid = true)
    (hfirst : child.first.admits ctx.kind = false) :
    Declined child.startDescriptions child.isNullable ctx reply := by
  unfold whole at h
  dsimp only at h
  obtain ⟨step, between, hchild, h⟩ := reply_bind h
  have hdeclined := hrun _ _ _ hchild hcandid hfirst
  have hstays : between.place = ctx.place := hdeclined.stays
  split at h
  · cases h
    exact hdeclined.transfer rfl rfl
  · rw [Progress.isMade_between, hstays, if_neg (by simp)] at h
    cases h
    exact hdeclined.transfer rfl hstays.symm

/-- What looks at the current token first fails, or the child can match nothing. -/
theorem declined_canStart {self child : Grammar}
    (hself : self.startDescriptions = child.startDescriptions)
    (hcandid : (!child.isNullable || child.candid) = true)
    (hfirst : child.first.admits ctx.kind = false) :
    child.canStart ctx.kind = true ∧ child.candid = true
      ∨ child.canStart ctx.kind = false
        ∧ Declined child.startDescriptions child.isNullable ctx (.failed ctx.place self, ctx) := by
  unfold canStart
  rw [hfirst, Bool.or_false]
  cases hnullable : child.isNullable with
  | true =>
    rw [hnullable] at hcandid
    exact .inl ⟨rfl, hcandid⟩
  | false =>
    rw [← hself]
    exact .inr ⟨rfl, .failed ctx self⟩

/-- A refusal in advance expects what the child describes, and so does the child. -/
theorem declined_heal (hrun : Declining run) {self child : Grammar}
    (hself : self.startDescriptions = child.startDescriptions)
    (h : heal run self child ctx = some reply)
    (hcandid : (!child.isNullable || child.candid) = true)
    (hfirst : child.first.admits ctx.kind = false) :
    Declined child.startDescriptions child.isNullable ctx reply := by
  unfold heal at h
  rcases declined_canStart hself hcandid hfirst with ⟨hstart, hchild⟩ | ⟨hstart, hfailed⟩
  · rw [if_pos hstart] at h
    exact declined_whole hrun h hchild hfirst
  · rw [if_neg (by rw [hstart]; exact Bool.false_ne_true)] at h
    cases h
    exact hfailed

/-- Speculation changes nothing in what is expected. -/
theorem declined_attempt (hrun : Declining run) {self child : Grammar}
    (hself : self.startDescriptions = child.startDescriptions)
    (h : attempt run self child ctx = some reply)
    (hcandid : (!child.isNullable || child.candid) = true)
    (hfirst : child.first.admits ctx.kind = false) :
    Declined child.startDescriptions child.isNullable ctx reply := by
  rw [attempt_eq_heal] at h
  obtain ⟨healed, hheal, rfl⟩ := Option.map_eq_some_iff.mp h
  have hdeclined := declined_heal hrun hself hheal hcandid hfirst
  exact hdeclined.transfer rfl rfl

/-- Without a match the guard has nothing to reject. -/
theorem declined_guard (hrun : Declining run) {self child : Grammar} {message : String}
    {accepts : String → Bool} (h : Form.guard run self child message accepts ctx = some reply)
    (hnullable : child.isNullable = false) (hcandid : child.candid = true)
    (hfirst : child.first.admits ctx.kind = false) :
    Declined child.startDescriptions false ctx reply := by
  unfold Form.guard at h
  dsimp only at h
  obtain ⟨step, between, hchild, h⟩ := reply_bind h
  have hdeclined := hrun _ _ _ hchild hcandid hfirst
  rw [hnullable] at hdeclined
  have hstays : between.place = ctx.place := hdeclined.stays
  rw [if_neg (by rw [hdeclined.success]; exact Bool.false_ne_true), Progress.isMade_between,
    hstays, if_neg (by simp)] at h
  cases h
  exact hdeclined.transfer rfl hstays.symm

/-- The marker of the node is given up, and the child has said what it expects. -/
theorem declined_node (hrun : Declining run) {kind : NodeKind} {child : Grammar}
    (h : node run kind child ctx = some reply)
    (hcandid : (!child.isNullable || child.candid) = true)
    (hfirst : child.first.admits ctx.kind = false) :
    Declined child.startDescriptions child.isNullable ctx reply := by
  have hself : child.startDescriptions = child.startDescriptions := rfl
  unfold node at h
  rcases declined_canStart hself hcandid hfirst with ⟨hstart, hchild⟩ | ⟨hstart, hfailed⟩
  · rw [if_pos hstart] at h
    dsimp only at h
    obtain ⟨step, between, hrunChild, h⟩ := reply_bind h
    have hdeclined := hrun _ _ _ hrunChild hchild hfirst
    split at h
    · cases h
      exact hdeclined.transfer rfl rfl
    · cases h
      exact hdeclined.transfer rfl rfl
  · rw [if_neg (by rw [hstart]; exact Bool.false_ne_true)] at h
    cases h
    exact hfailed

/-- Under a label the label is what is expected. -/
theorem declined_labeled (hrun : Declining run) {label : String} {child : Grammar}
    (h : labeled run (.labeled label child) child ctx = some reply)
    (hnullable : child.isNullable = false) (hcandid : child.candid = true)
    (hfirst : child.first.admits ctx.kind = false) : Declined [label] false ctx reply := by
  unfold labeled at h
  dsimp only at h
  obtain ⟨step, between, hchild, h⟩ := reply_bind h
  have hdeclined := hrun _ _ _ hchild hcandid hfirst
  rw [hnullable] at hdeclined
  have hmessage : step.message = none := hdeclined.message
  have hstops : step.place = ctx.place := hdeclined.stops
  have hfails : step.success = false := hdeclined.success
  rw [if_pos (by rw [hfails, hstops]; exact beq_self_eq_true ctx.place), hmessage] at h
  cases h
  exact (Declined.failed ctx (.labeled label child)).transfer rfl hdeclined.stays

/-- Whether or not the condition holds, what is expected is what the child describes. -/
theorem declined_lookahead (hrun : Declining run) {holds : View → Bool} {child : Grammar}
    (h : lookahead run (.lookahead holds child) child holds ctx = some reply)
    (hnullable : child.isNullable = false) (hcandid : child.candid = true)
    (hfirst : child.first.admits ctx.kind = false) :
    Declined child.startDescriptions false ctx reply := by
  unfold lookahead at h
  split at h
  · have hdeclined := hrun _ _ _ h hcandid hfirst
    rw [hnullable] at hdeclined
    exact hdeclined
  · cases h
    exact .failed ctx (.lookahead holds child)

end Form

-- ========================================================== the run

namespace Grammar

open Form

/-- One level of a run declines what is candid and cannot start here, if what is below
does. -/
theorem declining_runLevel {run : Runner input} (hrun : Declining run) (rules : RuleTable) :
    Declining (runLevel rules run) := by
  intro grammar ctx reply h hcandid hfirst
  unfold candid at hcandid
  unfold Grammar.first at hfirst
  unfold startDescriptions isNullable
  cases grammar with
  | token kind =>
    cases h
    exact declined_token (.token kind) hfirst
  | seq parts => exact declined_seq hrun parts _ [] ctx (.matched ctx) h hcandid hfirst
  | choice alternatives =>
    dsimp only
    rw [anyNullable_of_candid hcandid]
    exact declined_choice hrun h hcandid hfirst
  | many child least =>
    obtain ⟨hleast, hchild⟩ := Bool.and_eq_true_iff.mp hcandid
    obtain ⟨hnullable, hcandid⟩ := headCandid_iff.mp hchild
    have hpositive : least ≠ 0 := by simpa using hleast
    dsimp only
    rw [hnullable, Bool.or_false, beq_eq_false_iff_ne.mpr hpositive]
    exact declined_many hrun h hpositive hnullable hcandid hfirst
  | optional child => exact declined_optional hrun h hcandid hfirst
  | attempt child =>
    have hself : (attempt child).startDescriptions = child.startDescriptions := rfl
    exact declined_attempt hrun hself h hcandid hfirst
  | heal child =>
    have hself : (heal child).startDescriptions = child.startDescriptions := rfl
    exact declined_heal hrun hself h hcandid hfirst
  | guard child message accepts =>
    obtain ⟨hnullable, hcandid⟩ := headCandid_iff.mp hcandid
    dsimp only
    rw [hnullable]
    exact declined_guard hrun h hnullable hcandid hfirst
  | node kind child => exact declined_node hrun h hcandid hfirst
  | labeled label child =>
    obtain ⟨hnullable, hcandid⟩ := headCandid_iff.mp hcandid
    dsimp only
    rw [hnullable]
    exact declined_labeled hrun h hnullable hcandid hfirst
  | relax message child => cases hcandid
  | fold kind start next =>
    obtain ⟨hnullable, hcandid⟩ := headCandid_iff.mp hcandid
    dsimp only
    rw [hnullable]
    exact declined_fold hrun h hnullable hcandid hfirst
  | continuation kind start rest =>
    obtain ⟨hnullable, hcandid⟩ := headCandid_iff.mp hcandid
    dsimp only
    rw [hnullable]
    exact declined_continuation hrun h hnullable hcandid hfirst
  | succeed =>
    cases h
    exact .matched ctx
  | lookahead holds child =>
    obtain ⟨hnullable, hcandid⟩ := headCandid_iff.mp hcandid
    dsimp only
    rw [hnullable]
    exact declined_lookahead hrun h hnullable hcandid hfirst
  -- any token may start what is left
  | literal | relaxTo | reference | capture => cases hfirst

/-- A run of a candid grammar that the current token cannot start stays where it is, and
reports what the grammar describes. -/
theorem declining_runWithin (rules : RuleTable) (levels : Nat) :
    Declining (runWithin rules levels : Runner input) := by
  induction levels with
  | zero =>
    intro grammar ctx reply h
    cases h
  | succ levels ih =>
    intro grammar ctx reply h
    rw [runWithin_succ] at h
    exact declining_runLevel ih rules grammar ctx reply h

end Grammar

end Offside
