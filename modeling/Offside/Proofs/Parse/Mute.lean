import Offside.Proofs.Parse.Matched

/-!
Runs that fail without a message of their own.

A failure is told by what was expected where it happened, unless its outcome has a
message. A guard has one for what it rejects, and so has each of the two faults
that a grammar can show when it is run: a repetition of what consumes nothing, and
a rule that is not in the table. `Grammar.isMute` checks that a grammar has no
guard, that what it repeats consumes a token, and that the rules that it refers to
are there. A run of such a grammar comes to an outcome without a message, whether
it succeeds or fails (`Grammar.mute_runWithin`).

As with the log and with matches, there is one lemma for each form that runs
children, under the hypothesis that the children that pass the check are mute.
-/

namespace Offside

variable {input : Input} {rules : RuleTable}

namespace Grammar

mutual

/-- Whether no run of the grammar comes to an outcome with a message. A grammar that
the text selects does not pass. -/
def isMute (rules : RuleTable) : Grammar → Bool
  | .token _ | .literal _ | .succeed => true
  | .seq parts | .choice parts => allMute rules parts
  | .many child _ => child.consumes && child.isMute rules
  | .fold _ start next | .continuation _ start next => start.isMute rules && next.isMute rules
  | .reference _ rule => (rules rule).isSome
  | .guard .. | .capture .. => false
  | .optional child | .attempt child | .heal child | .node _ child | .labeled _ child
  | .relax _ child | .relaxTo _ child _ | .lookahead _ child => child.isMute rules

/-- The check on several grammars. -/
def allMute (rules : RuleTable) : List Grammar → Bool
  | [] => true
  | grammar :: rest => grammar.isMute rules && allMute rules rest

end

/-- One of several grammars passes the check if all of them do. -/
theorem isMute_of_mem {grammar : Grammar} {grammars : List Grammar}
    (h : allMute rules grammars = true) (hmem : grammar ∈ grammars) :
    grammar.isMute rules = true := by
  induction grammars with
  | nil => cases hmem
  | cons first rest ih =>
    unfold allMute at h
    obtain ⟨hfirst, hrest⟩ := Bool.and_eq_true_iff.mp h
    rcases List.mem_cons.mp hmem with rfl | hmem
    · exact hfirst
    · exact ih hrest hmem

end Grammar

namespace Outcome

/-- Two outcomes without a message come to none. -/
theorem message_merge {earlier later : Outcome} (h : earlier.message = none)
    (hlater : later.message = none) : (earlier.merge later).message = none := by
  unfold merge
  split
  · exact h
  · split
    · exact hlater
    · show (earlier.message <|> later.message) = none
      rw [h, hlater]
      rfl

end Outcome

/-- Where a grammar that passes the check is run, the outcome has no message. -/
def Mute (rules : RuleTable) (run : Runner input) : Prop :=
  ∀ (grammar : Grammar) (ctx : Context input) (outcome : Outcome) (after : Context input),
    grammar.isMute rules = true → run grammar ctx = some (outcome, after) → outcome.message = none

namespace Form

open Context

variable {run : Runner input} {ctx after : Context input} {outcome : Outcome}
  {self child : Grammar}

/-- What a single token comes to has no message. -/
theorem mute_single {isMatch : Bool} (h : some (single self isMatch ctx) = some (outcome, after)) :
    outcome.message = none := by
  unfold single at h
  split at h
  · cases h
    rfl
  · cases h
    rfl

-- ============================================= sequence and choice

/-- Each part is mute, and merging adds no message. -/
theorem mute_seq (hrun : Mute rules run) (parts : List Grammar) :
    ∀ (sofar : Outcome) (ctx : Context input), sofar.message = none →
      Grammar.allMute rules parts = true → seq run sofar parts ctx = some (outcome, after) →
      outcome.message = none := by
  induction parts with
  | nil =>
    intro sofar ctx hsofar _ h
    cases h
    exact hsofar
  | cons part rest ih =>
    intro sofar ctx hsofar hparts h
    unfold Grammar.allMute at hparts
    obtain ⟨hpart, hrest⟩ := Bool.and_eq_true_iff.mp hparts
    unfold seq at h
    obtain ⟨step, between, hstep, h⟩ := reply_bind h
    have hmerged := Outcome.message_merge hsofar (hrun _ _ _ _ hpart hstep)
    dsimp only at h
    split at h
    · exact ih _ _ hmerged hrest h
    · cases h
      exact hmerged

/-- The first alternative has no outcome to be merged with. -/
theorem message_joined {sofar : Option Outcome} {step : Outcome}
    (hsofar : ∀ earlier, sofar = some earlier → earlier.message = none)
    (hstep : step.message = none) : (joined sofar step).message = none := by
  cases sofar with
  | none => exact hstep
  | some earlier => exact Outcome.message_merge (hsofar earlier rfl) hstep

/-- Those that were given up had no message, and the one that is taken has none. -/
theorem mute_choose (hrun : Mute rules run) (alternatives : List Grammar) :
    ∀ (sofar : Option Outcome) (ctx : Context input),
      (∀ earlier, sofar = some earlier → earlier.message = none) →
      (∀ alternative ∈ alternatives, alternative.isMute rules = true) →
      choose run sofar alternatives ctx = some (outcome, after) → outcome.message = none := by
  induction alternatives with
  | nil =>
    intro sofar ctx hsofar _ h
    cases h
    cases sofar with
    | none => rfl
    | some earlier => exact hsofar earlier rfl
  | cons alternative rest ih =>
    intro sofar ctx hsofar hmute h
    unfold choose at h
    dsimp only at h
    obtain ⟨step, between, hstep, h⟩ := reply_bind h
    have hjoined := message_joined hsofar (hrun _ _ _ _ (hmute _ List.mem_cons_self) hstep)
    split at h
    · cases h
      exact hjoined
    · refine ih _ _ ?_ (fun other hmem => hmute other (List.mem_cons_of_mem _ hmem)) h
      rintro _ ⟨⟩
      exact hjoined

/-- The candidates are some of the alternatives, which all pass the check. -/
theorem mute_choice (hrun : Mute rules run) {alternatives : List Grammar}
    (h : choice run self alternatives ctx = some (outcome, after))
    (hmute : Grammar.allMute rules alternatives = true) : outcome.message = none := by
  unfold choice at h
  dsimp only at h
  split at h
  · cases h
    rfl
  · exact mute_choose hrun _ none _ (fun _ h => nomatch h)
      (fun _ hmem => Grammar.isMute_of_mem hmute (Grammar.mem_of_mem_candidates hmem)) h

-- ====================================================== repetition

/-- A repetition of what consumes a token is never stuck. -/
theorem mute_repeatFrom (hrun : Mute rules run) (hchild : child.isMute rules = true)
    (hprogresses : ∀ (ctx : Context input) (outcome : Outcome) (after : Context input),
      run child ctx = some (outcome, after) → outcome.success = true → ctx.place < after.place)
    (least count : Nat) (sofar : Outcome) (ctx : Context input) (hsofar : sofar.message = none)
    (h : repeatFrom run self child least count sofar ctx = some (outcome, after)) :
    outcome.message = none := by
  fun_induction repeatFrom run self child least count sofar ctx with
  | case1 count sofar ctx hend =>
    split at h
    · cases h
      exact Outcome.message_merge hsofar rfl
    · cases h
      exact hsofar
  | case2 => cases h
  | case3 count sofar ctx hinside place transaction opened hopen step between hstep hmatched
      hprogress ih =>
    exact ih (Outcome.message_merge hsofar (hrun _ _ _ _ hchild hstep)) h
  | case4 count sofar ctx hinside place transaction opened hopen step between hstep hmatched
      hstuck =>
    -- here the message would be made: the child matches and stays where it is
    cases hopen
    exact absurd (hprogresses _ _ _ hstep hmatched) hstuck
  | case5 count sofar ctx hinside place transaction opened hopen step between hstep
  | case6 count sofar ctx hinside place transaction opened hopen step between hstep =>
    cases h
    exact Outcome.message_merge hsofar (hrun _ _ _ _ hchild hstep)

theorem message_absorb {step : Outcome} {progress : Progress} (h : outcome.message = none)
    (hstep : step.message = none) : (absorb outcome step progress).message = none := by
  unfold absorb
  split
  · exact Outcome.message_merge h hstep
  · exact h

/-- The steps are mute, and a fold has no fault of its own. -/
theorem mute_foldFrom (hrun : Mute rules run) (kind : NodeKind) {next : Grammar}
    (hnext : next.isMute rules = true) (node : Marker ⊕ CompletedMarker) (sofar : Outcome)
    (ctx : Context input) (hsofar : sofar.message = none)
    (h : foldFrom run kind next node sofar ctx = some (outcome, after)) :
    outcome.message = none := by
  fun_induction foldFrom run kind next node sofar ctx with
  | case1 =>
    cases h
    exact hsofar
  | case2 => cases h
  | case3 node sofar ctx hinside place transaction opened hstart step between hstep hmatched
      done wrapped hwrap ih =>
    exact ih (Outcome.message_merge hsofar (hrun _ _ _ _ hnext hstep)) h
  | case4 node sofar ctx hinside place transaction opened hstart step between hstep =>
    cases h
    exact message_absorb hsofar (hrun _ _ _ _ hnext hstep)

/-- The start is mute, and so are the steps. -/
theorem mute_fold (hrun : Mute rules run) {kind : NodeKind} {start next : Grammar}
    (h : fold run kind start next ctx = some (outcome, after))
    (hstart : start.isMute rules = true) (hnext : next.isMute rules = true) :
    outcome.message = none := by
  unfold fold at h
  dsimp only at h
  obtain ⟨step, between, hfirst, h⟩ := reply_bind h
  have hstep := hrun _ _ _ _ hstart hfirst
  split at h
  · exact mute_foldFrom hrun kind hnext _ _ _ hstep h
  · cases h
    exact hstep

/-- The start is mute, and so is the rest. -/
theorem mute_continuation (hrun : Mute rules run) {kind : NodeKind} {start rest : Grammar}
    (h : continuation run kind start rest ctx = some (outcome, after))
    (hstart : start.isMute rules = true) (hrest : rest.isMute rules = true) :
    outcome.message = none := by
  unfold continuation at h
  dsimp only at h
  obtain ⟨step, between, hfirst, h⟩ := reply_bind h
  have hstep := hrun _ _ _ _ hstart hfirst
  split at h
  case isFalse =>
    cases h
    exact hstep
  case isTrue =>
    obtain ⟨more, last, hsecond, h⟩ := reply_bind h
    have hmore := hrun _ _ _ _ hrest hsecond
    split at h
    · cases h
      exact Outcome.message_merge hstep hmore
    · cases h
      exact message_absorb hstep hmore

-- ==================================================== taking back

/-- What is left out has no message. -/
theorem mute_optional (hrun : Mute rules run)
    (h : optional run child ctx = some (outcome, after))
    (hchild : child.isMute rules = true) : outcome.message = none := by
  unfold optional at h
  dsimp only at h
  obtain ⟨step, between, hreply, h⟩ := reply_bind h
  have hstep : step.message = none := hrun _ _ _ _ hchild hreply
  split at h
  · cases h
    exact hstep
  · cases h
    exact hstep

/-- What is taken back as a whole fails with what is expected of it. -/
theorem mute_whole (hrun : Mute rules run)
    (h : whole run self child ctx = some (outcome, after))
    (hchild : child.isMute rules = true) : outcome.message = none := by
  unfold whole at h
  dsimp only at h
  obtain ⟨step, between, hstep, h⟩ := reply_bind h
  split at h
  · cases h
    exact hrun _ _ _ _ hchild hstep
  · cases h
    split
    · rfl
    · exact hrun _ _ _ _ hchild hstep

/-- A refusal in advance has no message. -/
theorem mute_heal (hrun : Mute rules run)
    (h : heal run self child ctx = some (outcome, after))
    (hchild : child.isMute rules = true) : outcome.message = none := by
  unfold heal at h
  split at h
  · exact mute_whole hrun h hchild
  · cases h
    rfl

/-- An attempt comes to what the same run would without speculation. -/
theorem mute_attempt (hrun : Mute rules run)
    (h : attempt run self child ctx = some (outcome, after))
    (hchild : child.isMute rules = true) : outcome.message = none := by
  rw [attempt_eq_heal] at h
  obtain ⟨⟨step, between⟩, hheal, hreply⟩ := Option.map_eq_some_iff.mp h
  cases hreply
  exact mute_heal hrun hheal hchild

-- ================================================= nodes and labels

/-- A node that is not opened has no message, and else its outcome is the child's. -/
theorem mute_node (hrun : Mute rules run) {kind : NodeKind}
    (h : node run kind child ctx = some (outcome, after))
    (hchild : child.isMute rules = true) : outcome.message = none := by
  unfold node at h
  split at h
  case isFalse =>
    cases h
    rfl
  case isTrue =>
    dsimp only at h
    obtain ⟨step, between, hstep, h⟩ := reply_bind h
    split at h
    · cases h
      exact hrun _ _ _ _ hchild hstep
    · cases h
      exact hrun _ _ _ _ hchild hstep

/-- A label keeps the message of its child, which has none. -/
theorem mute_labeled (hrun : Mute rules run)
    (h : labeled run self child ctx = some (outcome, after))
    (hchild : child.isMute rules = true) : outcome.message = none := by
  unfold labeled at h
  dsimp only at h
  obtain ⟨step, between, hreply, h⟩ := reply_bind h
  have hstep : step.message = none := hrun _ _ _ _ hchild hreply
  split at h
  · cases h
    exact hstep
  · cases h
    exact hstep

/-- A condition that fails has no message. -/
theorem mute_lookahead (hrun : Mute rules run) {holds : View → Bool}
    (h : lookahead run self child holds ctx = some (outcome, after))
    (hchild : child.isMute rules = true) : outcome.message = none := by
  unfold lookahead at h
  split at h
  · exact hrun _ _ _ _ hchild h
  · cases h
    rfl

/-- A rule that is in the table. -/
theorem mute_reference (hrun : Mute rules run)
    (hrules : ∀ rule body, rules rule = some body → body.isMute rules = true) {name : String}
    {rule : Nat} (h : reference run self name (rules rule) ctx = some (outcome, after))
    (hknown : (rules rule).isSome = true) : outcome.message = none := by
  unfold reference at h
  split at h
  case h_1 body hbody => exact hrun _ _ _ _ (hrules rule body hbody) h
  case h_2 hnone =>
    rw [hnone] at hknown
    cases hknown

-- ========================================================= recovery

/-- What recovers is mute if its recovery is; the failure of its child is dropped. -/
theorem mute_orRecover (hrun : Mute rules run) {recover : Context input → Reply input}
    (h : orRecover run child recover ctx = some (outcome, after))
    (hchild : child.isMute rules = true)
    (hrecover : ∀ ctx : Context input, recover ctx = some (outcome, after) →
      outcome.message = none) : outcome.message = none := by
  unfold orRecover at h
  split at h
  case isTrue => exact hrun _ _ _ _ hchild h
  case isFalse =>
    dsimp only at h
    obtain ⟨step, between, hstep, h⟩ := reply_bind h
    split at h
    · cases h
      exact hrun _ _ _ _ hchild hstep
    · exact hrecover _ h

/-- A report on something missing is no message of the outcome. -/
theorem mute_relax (hrun : Mute rules run) {message : String}
    (h : relax run message child ctx = some (outcome, after))
    (hchild : child.isMute rules = true) : outcome.message = none := by
  refine mute_orRecover hrun h hchild fun ctx hrecover => ?_
  cases hrecover
  rfl

/-- Recovery that skips succeeds without a message. -/
theorem mute_skipMalformed {sync : Grammar} {message : String}
    (h : skipMalformed run sync message ctx = some (outcome, after)) : outcome.message = none := by
  unfold skipMalformed at h
  split at h
  · cases h
    rfl
  · dsimp only at h
    split at h
    · cases h
    · cases h
      rfl

theorem mute_relaxTo (hrun : Mute rules run) {sync : Grammar} {message : String}
    (h : relaxTo run message child sync ctx = some (outcome, after))
    (hchild : child.isMute rules = true) : outcome.message = none :=
  mute_orRecover hrun h hchild fun _ => mute_skipMalformed

end Form

namespace Grammar

open Form

/-- One level of a run is mute if what is below is mute and matches. -/
theorem mute_runLevel {run : Runner input} (hrun : Mute rules run) (hmatching : Matching rules run)
    (hlaid : input.Laid) (hconsumes : ∀ rule body, rules rule = some body → body.consumes = true)
    (hrules : ∀ rule body, rules rule = some body → body.isMute rules = true) :
    Mute rules (runLevel rules run) := by
  intro grammar ctx outcome after hmute h
  cases grammar with
  | token | literal => exact mute_single h
  | succeed =>
    cases h
    rfl
  | seq parts => exact mute_seq hrun parts _ _ rfl hmute h
  | choice alternatives => exact mute_choice hrun h hmute
  | many child least =>
    unfold isMute at hmute
    obtain ⟨hchild, hmute⟩ := Bool.and_eq_true_iff.mp hmute
    exact mute_repeatFrom hrun hmute (fun ctx step between hstep hmatched =>
      (hmatching _ _ _ _ hstep hmatched).place_lt hlaid hconsumes hchild) least 0 _ _ rfl h
  | optional child => exact mute_optional hrun h hmute
  | attempt child => exact mute_attempt hrun h hmute
  | heal child => exact mute_heal hrun h hmute
  | node kind child => exact mute_node hrun h hmute
  | labeled label child => exact mute_labeled hrun h hmute
  | relax message child => exact mute_relax hrun h hmute
  | relaxTo message child sync => exact mute_relaxTo hrun h hmute
  | fold kind start next =>
    obtain ⟨hstart, hnext⟩ := Bool.and_eq_true_iff.mp hmute
    exact mute_fold hrun h hstart hnext
  | continuation kind start rest =>
    obtain ⟨hstart, hrest⟩ := Bool.and_eq_true_iff.mp hmute
    exact mute_continuation hrun h hstart hrest
  | reference name rule => exact mute_reference hrun hrules h hmute
  | lookahead holds child => exact mute_lookahead hrun h hmute
  | guard | capture => cases hmute

/-- If the rules pass the check, the runs of all grammars that pass it are mute. -/
theorem mute_runWithin (hlaid : input.Laid)
    (hconsumes : ∀ rule body, rules rule = some body → body.consumes = true)
    (hrules : ∀ rule body, rules rule = some body → body.isMute rules = true) (levels : Nat) :
    Mute rules (runWithin rules levels : Runner input) := by
  induction levels with
  | zero =>
    intro grammar ctx outcome after _ h
    cases h
  | succ levels ih =>
    intro grammar ctx outcome after hmute h
    rw [runWithin_succ] at h
    exact mute_runLevel ih (matches_runWithin rules levels) hlaid hconsumes hrules
      grammar ctx outcome after hmute h

end Grammar

end Offside
