import Offside.Proofs.Parse.Reported

/-!
An outcome tells where its run stopped.

Two things move while a grammar is run. The context goes forward with the tokens that
are consumed and back with what is taken back, and the place of the outcome is merged,
the furthest one wins, from the outcomes of what was tried. They come to the same place
all the same: whatever a form takes back, it also drops from its outcome, unless it
stands where the form goes back to. `Outcome.StopsAt` says that an outcome is at a place,
and that a message it has is one of a guard or of a fault of the grammar. Every run that
gives an answer stops at the place of its context (`Grammar.stops_runWithin`).

As with the log, there is one lemma for each form that runs children, under the
hypothesis that the runs of the children stop where their contexts are. That these only
go forward is known from the log (`Extending`); it is what makes the later one of two
places in a row the furthest.

So the report on an entry that failed is on the token where parsing stopped, and the
report on what is left over names what the outcome expected there (`stopped_at_cursor`).
-/

namespace Offside

variable {input : Input} {rules : RuleTable}

-- ========================================================= outcomes

/-- The outcome is at a place, and a message it has is not one that recovery makes. -/
structure Outcome.StopsAt (outcome : Outcome) (place : Nat) : Prop where
  place : outcome.place = place
  code : ∀ message, outcome.message = some message →
    message.code = .notAllowedHere ∨ message.code = .grammarFault

namespace Outcome

variable {outcome earlier later : Outcome} {first last : Nat}

theorem stopsAt_matched (place : Nat) : (matched place).StopsAt place := ⟨rfl, nofun⟩

theorem stopsAt_failed (place : Nat) (grammar : Grammar) : (failed place grammar).StopsAt place :=
  ⟨rfl, nofun⟩

/-- A message of a guard or of a fault of the grammar stands where the run stopped. -/
theorem stopsAt_rejected (place : Nat) (grammar : Option Grammar) {code : ErrorCode}
    (hcode : code = .notAllowedHere ∨ code = .grammarFault) (text : String) :
    (rejected place grammar code text).StopsAt place := by
  refine ⟨rfl, ?_⟩
  rintro _ ⟨⟩
  exact hcode

theorem StopsAt.withSuccess (h : outcome.StopsAt last) (success : Bool) :
    (outcome.withSuccess success).StopsAt last := ⟨h.place, h.code⟩

/-- Of two outcomes in a row, the later one stands. -/
theorem StopsAt.merge (h : earlier.StopsAt first) (hlater : later.StopsAt last)
    (hle : first ≤ last) : (earlier.merge later).StopsAt last := by
  have hplace := h.place
  have hlast := hlater.place
  unfold Outcome.merge
  split
  case isTrue => omega
  case isFalse =>
    split
    case isTrue => exact hlater
    case isFalse =>
      refine ⟨show earlier.place = last by omega, fun message hmessage => ?_⟩
      change (earlier.message <|> later.message) = some message at hmessage
      cases hfirst : earlier.message with
      | none =>
        rw [hfirst] at hmessage
        exact hlater.code message hmessage
      | some first =>
        rw [hfirst] at hmessage
        cases hmessage
        exact h.code _ hfirst

end Outcome

/-- A run stops where its context is afterwards. -/
def Stopping (run : Runner input) : Prop :=
  ∀ (grammar : Grammar) (ctx : Context input) (outcome : Outcome) (after : Context input),
    run grammar ctx = some (outcome, after) → outcome.StopsAt after.place

/-- No progress from one place to a later one: the places are the same. -/
theorem Progress.eq_of_not_isMade {before after : Nat} (hle : before ≤ after)
    (h : ¬(between before after).isMade = true) : after = before := by
  rw [isMade_between, decide_eq_true_eq] at h
  exact Nat.le_antisymm (Nat.le_of_not_lt h) hle

namespace Form

open Context Outcome

variable {run : Runner input} {ctx after : Context input} {outcome : Outcome}
  {self child : Grammar}

/-- A token that matches is passed, and one that does not is not. -/
theorem stops_single {isMatch : Bool} (h : some (single self isMatch ctx) = some (outcome, after)) :
    outcome.StopsAt after.place := by
  unfold single at h
  split at h
  · cases h
    exact stopsAt_matched _
  · cases h
    exact stopsAt_failed _ self

-- ============================================= sequence and choice

/-- Each part stops where its context is, and the parts go forward. -/
theorem stops_seq (hrun : Stopping run) (hextends : Extending run) (parts : List Grammar) :
    ∀ (sofar : Outcome) (ctx : Context input), sofar.StopsAt ctx.place →
      seq run sofar parts ctx = some (outcome, after) → outcome.StopsAt after.place := by
  induction parts with
  | nil =>
    intro sofar ctx hsofar h
    cases h
    exact hsofar
  | cons part rest ih =>
    intro sofar ctx hsofar h
    unfold seq at h
    obtain ⟨step, between, hstep, h⟩ := reply_bind h
    have hmerged := hsofar.merge (hrun _ _ _ _ hstep) (hextends _ _ _ hstep).place_le
    dsimp only at h
    split at h
    · exact ih _ _ hmerged h
    · cases h
      exact hmerged

/-- The outcome of an alternative stands, or the one so far, where both are at one place. -/
theorem stopsAt_joined {sofar : Option Outcome} {step : Outcome} {first last : Nat}
    (hsofar : ∀ earlier, sofar = some earlier → earlier.StopsAt first)
    (hstep : step.StopsAt last) (hle : first ≤ last) : (joined sofar step).StopsAt last := by
  cases sofar with
  | none => exact hstep
  | some earlier => exact (hsofar earlier rfl).merge hstep hle

/-- The alternatives that were given up were given up at the start of the choice. -/
theorem stops_choose (hrun : Stopping run) (hextends : Extending run)
    (alternatives : List Grammar) :
    ∀ (sofar : Option Outcome) (ctx : Context input),
      (∀ earlier, sofar = some earlier → earlier.StopsAt ctx.place) →
      choose run sofar alternatives ctx = some (outcome, after) →
      outcome.StopsAt after.place := by
  induction alternatives with
  | nil =>
    intro sofar ctx hsofar h
    cases h
    cases sofar with
    | none => exact (stopsAt_matched _).withSuccess false
    | some earlier => exact hsofar earlier rfl
  | cons alternative rest ih =>
    intro sofar ctx hsofar h
    unfold choose at h
    dsimp only at h
    obtain ⟨step, between, hstep, h⟩ := reply_bind h
    have hle : ctx.place ≤ between.place := (hextends _ _ _ hstep).place_le
    have hjoined := stopsAt_joined hsofar (hrun _ _ _ _ hstep) hle
    split at h
    case isTrue =>
      cases h
      exact hjoined
    case isFalse hleft =>
      have hstayed := Progress.eq_of_not_isMade hle
        (Bool.eq_false_iff.mp (Bool.or_eq_false_iff.mp (Bool.eq_false_iff.mpr hleft)).2)
      refine ih _ _ ?_ h
      rintro _ ⟨⟩
      exact hstayed ▸ hjoined

/-- There is no candidate and no progress, or one of the candidates stops. -/
theorem stops_choice (hrun : Stopping run) (hextends : Extending run)
    {alternatives : List Grammar}
    (h : choice run self alternatives ctx = some (outcome, after)) :
    outcome.StopsAt after.place := by
  unfold choice at h
  dsimp only at h
  split at h
  · cases h
    exact stopsAt_failed _ self
  · exact stops_choose hrun hextends _ none _ nofun h

-- ====================================================== repetition

/-- A step that fails at its start is taken back to where the repetition stands already. -/
theorem stops_repeatFrom (hrun : Stopping run) (hextends : Extending run) (least count : Nat)
    (sofar : Outcome) (ctx : Context input) (hsofar : sofar.StopsAt ctx.place)
    (h : repeatFrom run self child least count sofar ctx = some (outcome, after)) :
    outcome.StopsAt after.place := by
  fun_induction repeatFrom run self child least count sofar ctx with
  | case1 count sofar ctx hend =>
    cases h
    split
    · exact hsofar.merge (stopsAt_failed _ child) (Nat.le_refl _)
    · exact hsofar
  | case2 => cases h
  | case3 count sofar ctx hinside place transaction opened hopen step between hstep hmatched
      hprogress ih =>
    have hmerged := hsofar.merge (hrun _ _ _ _ hstep) (Nat.le_of_lt hprogress)
    exact ih hmerged h
  | case4 count sofar ctx hinside place transaction opened hopen step between hstep hmatched
      hstuck =>
    cases hopen
    cases h
    exact hsofar.merge (stopsAt_rejected _ _ (.inr rfl) _) (Nat.le_refl _)
  | case5 count sofar ctx hinside place transaction opened hopen step between hstep hfailed
      hmade =>
    cases hopen
    have hmerged := hsofar.merge (hrun _ _ _ _ hstep) (hextends _ _ _ hstep).place_le
    cases h
    exact hmerged
  | case6 count sofar ctx hinside place transaction opened hopen step between hstep hfailed
      hnone =>
    -- the step is taken back, and what it expected is kept: it stands at its start
    cases hopen
    have hle : ctx.place ≤ between.place := (hextends _ _ _ hstep).place_le
    have hstopped := hrun _ _ _ _ hstep
    rw [Progress.eq_of_not_isMade hle hnone] at hstopped
    cases h
    exact (hsofar.merge hstopped (Nat.le_refl _)).withSuccess _

/-- What is absorbed from a step that is taken back stands at its start. -/
theorem stopsAt_absorb {step : Outcome} {before last : Nat} (h : outcome.StopsAt before)
    (hstep : step.StopsAt last) (hle : before ≤ last) :
    (absorb outcome step (Progress.between before last)).StopsAt before := by
  unfold absorb
  split
  case isTrue hnone =>
    have hstayed := Progress.eq_of_not_isMade hle
      (by simpa using (Bool.and_eq_true_iff.mp hnone).1)
    rw [hstayed] at hstep
    exact h.merge (hstep.withSuccess true) (Nat.le_refl _)
  case isFalse => exact h

/-- Wrapping does not move the context, and a step that fails is taken back and absorbed. -/
theorem stops_foldFrom (hrun : Stopping run) (hextends : Extending run) (kind : NodeKind)
    {next : Grammar} (node : Marker ⊕ CompletedMarker) (sofar : Outcome) (ctx : Context input)
    (hsofar : sofar.StopsAt ctx.place)
    (h : foldFrom run kind next node sofar ctx = some (outcome, after)) :
    outcome.StopsAt after.place := by
  fun_induction foldFrom run kind next node sofar ctx with
  | case1 node sofar ctx hend =>
    cases h
    rw [place_abandonUnwrapped]
    exact hsofar
  | case2 => cases h
  | case3 node sofar ctx hinside place transaction opened hstart step between hstep hmatched
      done wrapped hwrap ih =>
    have hplace : wrapped.place = between.place :=
      (place_of_wrap hwrap).trans (place_commit between _)
    refine ih ?_ h
    rw [hplace]
    exact hsofar.merge (hrun _ _ _ _ hstep) (Nat.le_of_lt hmatched.2)
  | case4 node sofar ctx hinside place transaction opened hstart step between hstep =>
    cases hstart
    cases h
    rw [place_abandonUnwrapped]
    exact stopsAt_absorb hsofar (hrun _ _ _ _ hstep) (hextends _ _ _ hstep).place_le

/-- The start has stopped before the steps go on. -/
theorem stops_fold (hrun : Stopping run) (hextends : Extending run) {kind : NodeKind}
    {start next : Grammar} (h : fold run kind start next ctx = some (outcome, after)) :
    outcome.StopsAt after.place := by
  unfold fold at h
  dsimp only at h
  obtain ⟨step, between, hstep, h⟩ := reply_bind h
  have hstart := hrun _ _ _ _ hstep
  split at h
  · exact stops_foldFrom hrun hextends kind _ _ _ hstart h
  · cases h
    exact hstart

/-- The rest goes on from where the start has stopped, or is taken back to it. -/
theorem stops_continuation (hrun : Stopping run) (hextends : Extending run) {kind : NodeKind}
    {start rest : Grammar} (h : continuation run kind start rest ctx = some (outcome, after)) :
    outcome.StopsAt after.place := by
  unfold continuation at h
  dsimp only at h
  obtain ⟨step, between, hstep, h⟩ := reply_bind h
  have hfirst := hrun _ _ _ _ hstep
  split at h
  case isFalse =>
    cases h
    exact hfirst
  case isTrue =>
    obtain ⟨more, last, hmore, h⟩ := reply_bind h
    have hle : between.place ≤ last.place := (hextends _ _ _ hmore).place_le
    have hrest := hrun _ _ _ _ hmore
    split at h
    · cases h
      exact hfirst.merge hrest hle
    · cases h
      exact stopsAt_absorb hfirst hrest hle

-- ==================================================== taking back

/-- A failed run that is taken back, and that had not got further, stops at its start. -/
theorem stopsAt_taken_back (hrun : Stopping run) (hextends : Extending run) {step : Outcome}
    {between : Context input} (hstep : run child ctx.start.2 = some (step, between))
    (hnone : ¬(Progress.between ctx.place between.place).isMade = true) :
    step.StopsAt ctx.place :=
  Progress.eq_of_not_isMade (hextends _ _ _ hstep).place_le hnone ▸ hrun _ _ _ _ hstep

/-- A child that failed further on stands where it failed, and one that is taken back has
stopped at its start. -/
theorem stops_optional (hrun : Stopping run) (hextends : Extending run)
    (h : optional run child ctx = some (outcome, after)) : outcome.StopsAt after.place := by
  unfold optional at h
  dsimp only at h
  obtain ⟨step, between, hreply, h⟩ := reply_bind h
  have hstep := hrun _ _ _ _ hreply
  split at h
  case isTrue =>
    cases h
    exact hstep
  case isFalse hleft =>
    have hnone := Bool.eq_false_iff.mp
      (Bool.or_eq_false_iff.mp (Bool.eq_false_iff.mpr hleft)).2
    have hstart := stopsAt_taken_back hrun hextends hreply hnone
    cases h
    exact hstart.withSuccess true

/-- What got further and failed is taken back, and so is its outcome, for one that failed at
the start. -/
theorem stops_whole (hrun : Stopping run) (hextends : Extending run)
    (h : whole run self child ctx = some (outcome, after)) : outcome.StopsAt after.place := by
  unfold whole at h
  dsimp only at h
  obtain ⟨step, between, hreply, h⟩ := reply_bind h
  have hstep := hrun _ _ _ _ hreply
  have hback := stopsAt_taken_back hrun hextends hreply
  split at h
  · cases h
    exact hstep
  · cases h
    split
    case isTrue => exact stopsAt_failed _ self
    case isFalse hnone => exact hback hnone

/-- A token that does not start the child is where the run stops. -/
theorem stops_heal (hrun : Stopping run) (hextends : Extending run)
    (h : heal run self child ctx = some (outcome, after)) : outcome.StopsAt after.place := by
  unfold heal at h
  split at h
  · exact stops_whole hrun hextends h
  · cases h
    exact stopsAt_failed _ self

/-- An attempt stops where the same run would without speculation. -/
theorem stops_attempt (hrun : Stopping run) (hextends : Extending run)
    (h : attempt run self child ctx = some (outcome, after)) : outcome.StopsAt after.place := by
  rw [attempt_eq_heal] at h
  obtain ⟨⟨step, between⟩, hheal, hreply⟩ := Option.map_eq_some_iff.mp h
  have hstopped := stops_heal hrun hextends hheal
  cases hreply
  exact hstopped

/-- A child that is not accepted is taken back, and the message stands at its start. -/
theorem stops_guard (hrun : Stopping run) (hextends : Extending run) {message : String}
    {accepts : String → Bool}
    (h : guard run self child message accepts ctx = some (outcome, after)) :
    outcome.StopsAt after.place := by
  unfold guard at h
  dsimp only at h
  obtain ⟨step, between, hreply, h⟩ := reply_bind h
  have hstep := hrun _ _ _ _ hreply
  have hback := stopsAt_taken_back hrun hextends hreply
  split at h
  case isTrue =>
    split at h
    · cases h
      exact hstep
    · cases h
      exact stopsAt_rejected _ _ (.inl rfl) message
  case isFalse =>
    split at h
    case isTrue =>
      cases h
      exact hstep
    case isFalse hnone =>
      cases h
      exact hback hnone

-- ================================================= nodes and labels

/-- A node, completed or given up, does not move the context. -/
theorem stops_node (hrun : Stopping run) {kind : NodeKind}
    (h : node run kind child ctx = some (outcome, after)) : outcome.StopsAt after.place := by
  unfold node at h
  split at h
  case isFalse =>
    cases h
    exact stopsAt_failed _ child
  case isTrue =>
    dsimp only at h
    obtain ⟨step, between, hreply, h⟩ := reply_bind h
    have hstep := hrun _ _ _ _ hreply
    split at h
    · cases h
      exact hstep
    · cases h
      exact hstep

/-- The label takes the place of what was expected where the child failed at its start,
and then the run has stopped there. -/
theorem stops_labeled (hrun : Stopping run)
    (h : labeled run self child ctx = some (outcome, after)) :
    outcome.StopsAt after.place := by
  unfold labeled at h
  dsimp only at h
  obtain ⟨step, between, hreply, h⟩ := reply_bind h
  have hstep := hrun _ _ _ _ hreply
  split at h
  case isTrue hstart =>
    cases h
    have hplace : step.place = ctx.place := eq_of_beq (Bool.and_eq_true_iff.mp hstart).2
    exact ⟨hplace.symm.trans hstep.place, hstep.code⟩
  case isFalse =>
    cases h
    exact hstep

/-- A condition that fails stops the run in front of the token. -/
theorem stops_lookahead (hrun : Stopping run) {holds : View → Bool}
    (h : lookahead run self child holds ctx = some (outcome, after)) :
    outcome.StopsAt after.place := by
  unfold lookahead at h
  split at h
  · exact hrun _ _ _ _ h
  · cases h
    exact stopsAt_failed _ self

/-- With no text to select by, the run stops where it is. -/
theorem stops_capture (hrun : Stopping run) {select : String → Grammar}
    (h : capture run self select ctx = some (outcome, after)) : outcome.StopsAt after.place := by
  unfold capture at h
  split at h
  · cases h
    exact stopsAt_failed _ self
  · exact hrun _ _ _ _ h

/-- A rule that is missing is a fault of the grammar, and stops the run where it is. -/
theorem stops_reference (hrun : Stopping run) {name : String} {body : Option Grammar}
    (h : reference run self name body ctx = some (outcome, after)) :
    outcome.StopsAt after.place := by
  unfold reference at h
  split at h
  · exact hrun _ _ _ _ h
  · cases h
    exact stopsAt_rejected _ _ (.inr rfl) _

-- ========================================================= recovery

/-- Where the child stays, it has stopped; else the recovery has. -/
theorem stops_orRecover (hrun : Stopping run) {recover : Context input → Reply input}
    (h : orRecover run child recover ctx = some (outcome, after))
    (hrecover : ∀ ctx : Context input, recover ctx = some (outcome, after) →
      outcome.StopsAt after.place) : outcome.StopsAt after.place := by
  unfold orRecover at h
  split at h
  case isTrue => exact hrun _ _ _ _ h
  case isFalse =>
    dsimp only at h
    obtain ⟨step, between, hreply, h⟩ := reply_bind h
    have hstep := hrun _ _ _ _ hreply
    split at h
    · cases h
      exact hstep
    · exact hrecover _ h

/-- What is missing is reported where it should be, and nothing is consumed. -/
theorem stops_relax (hrun : Stopping run) {message : String}
    (h : relax run message child ctx = some (outcome, after)) : outcome.StopsAt after.place := by
  refine stops_orRecover hrun h fun ctx hrecover => ?_
  cases hrecover
  exact stopsAt_matched _

/-- Recovery succeeds where its skipping has come to an end. -/
theorem stops_skipMalformed {sync : Grammar} {message : String}
    (h : skipMalformed run sync message ctx = some (outcome, after)) :
    outcome.StopsAt after.place := by
  unfold skipMalformed at h
  split at h
  · cases h
    exact stopsAt_matched _
  · dsimp only at h
    split at h
    · cases h
    · cases h
      exact stopsAt_matched _

/-- Recovery goes on from the start of the child, and succeeds where it ends. -/
theorem stops_relaxTo (hrun : Stopping run) {sync : Grammar} {message : String}
    (h : relaxTo run message child sync ctx = some (outcome, after)) :
    outcome.StopsAt after.place :=
  stops_orRecover hrun h fun _ => stops_skipMalformed

end Form

namespace Grammar

open Form

/-- One level of a run stops where its context is, if what is below does. -/
theorem stops_runLevel {run : Runner input} (hrun : Stopping run) (hextends : Extending run) :
    Stopping (runLevel rules run) := by
  intro grammar ctx outcome after h
  cases grammar with
  | token | literal => exact stops_single h
  | succeed =>
    cases h
    exact Outcome.stopsAt_matched _
  | seq parts => exact stops_seq hrun hextends parts _ _ (Outcome.stopsAt_matched _) h
  | choice alternatives => exact stops_choice hrun hextends h
  | many child least =>
    exact stops_repeatFrom hrun hextends least 0 _ _ (Outcome.stopsAt_matched _) h
  | optional child => exact stops_optional hrun hextends h
  | attempt child => exact stops_attempt hrun hextends h
  | heal child => exact stops_heal hrun hextends h
  | guard child message accepts => exact stops_guard hrun hextends h
  | node kind child => exact stops_node hrun h
  | labeled label child => exact stops_labeled hrun h
  | relax message child => exact stops_relax hrun h
  | relaxTo message child sync => exact stops_relaxTo hrun h
  | fold kind start next => exact stops_fold hrun hextends h
  | continuation kind start rest => exact stops_continuation hrun hextends h
  | reference name rule => exact stops_reference hrun h
  | lookahead holds child => exact stops_lookahead hrun h
  | capture name select => exact stops_capture hrun h

/-- Every run stops where its context is. -/
theorem stops_runWithin (rules : RuleTable) (levels : Nat) :
    Stopping (runWithin rules levels : Runner input) := by
  induction levels with
  | zero =>
    intro grammar ctx outcome after h
    cases h
  | succ levels ih =>
    intro grammar ctx outcome after h
    rw [runWithin_succ] at h
    exact stops_runLevel ih (extends_runWithin rules levels) grammar ctx outcome after h

end Grammar

-- ========================================================= a parse

namespace Parse

/-- The report on an entry that failed has one label. -/
theorem labels_failureDiagnostic (outcome : Outcome) : ∃ text,
    (failureDiagnostic input outcome).labels = [⟨input.spanAt outcome.place, text, true⟩] := by
  unfold failureDiagnostic
  dsimp only
  split
  · split
    · exact ⟨_, rfl⟩
    · exact ⟨_, rfl⟩
  · exact ⟨_, rfl⟩

/-- The code of the report on an entry that stopped somewhere. -/
theorem code_of_stopsAt {outcome : Outcome} {place : Nat} (h : outcome.StopsAt place) :
    (failureDiagnostic input outcome).code = .unexpectedToken
      ∨ (failureDiagnostic input outcome).code = .notAllowedHere
      ∨ (failureDiagnostic input outcome).code = .grammarFault := by
  rw [code_failureDiagnostic]
  cases hmessage : outcome.message with
  | none => exact .inl rfl
  | some message => exact .inr (h.code message hmessage)

/-- The report on what is left over where the outcome stopped names what the outcome
expected there. -/
theorem leftoverDiagnostic_of_stopsAt {outcome : Outcome} {place : Nat}
    (h : outcome.StopsAt place) :
    leftoverDiagnostic input outcome place
      = .unexpected (input.spanAt place)
          (sortedOnce (outcome.descriptions ++ [TokenKind.eof.describe]))
          (describeAt input place) := by
  unfold leftoverDiagnostic
  rw [if_pos h.place]

/-- The entry of a parse stops where its context is, also one that nests without end. -/
theorem stops_runEntry (rules : RuleTable) (entry : Grammar) (input : Input) :
    (runEntry rules entry (Context.initial input).mark.2).1.StopsAt
      (runEntry rules entry (Context.initial input).mark.2).2.place := by
  unfold runEntry
  cases hrun : entry.run rules (Context.initial input).mark.2 with
  | none => exact Outcome.stopsAt_rejected 0 _ (.inr rfl) _
  | some reply => exact Grammar.stops_runWithin rules _ _ _ _ _ hrun

/-- What the parse itself reports of an entry that stopped at the place of its context:
the failure, or what is left over. -/
theorem allReports_closingPieces {outcome : Outcome} {place : Nat} (h : outcome.StopsAt place) :
    Piece.allReports (closingPieces input outcome place)
      = if outcome.success = false then [failureDiagnostic input outcome]
        else if input.size ≤ place then []
        else [.unexpected (input.spanAt place)
          (sortedOnce (outcome.descriptions ++ [TokenKind.eof.describe]))
          (describeAt input place)] := by
  unfold closingPieces
  rw [allReports_append, leftoverDiagnostic_of_stopsAt h]
  by_cases hend : input.size ≤ place
  · cases outcome.success <;> simp [hend, Piece.allReports, Piece.reports]
  · cases outcome.success <;> simp [hend, Piece.allReports, Piece.reports, allReports_tokenPieces]

/-- A run stops where its context is, whatever the grammar, its rules, the context and
the number of levels, and however it comes to its outcome. So a parse reports what
recovery did, and behind that one thing of its entry: if the entry failed, a report with
its one label on the first significant token that was not consumed, or on the end of the
text if there is none; if it succeeded and left input over, a report on that token with
all that the outcome itself expected there. -/
theorem stopped_at_cursor (rules : RuleTable) :
    (∀ (input : Input) (levels : Nat) (grammar : Grammar) (ctx after : Context input)
        (outcome : Outcome), grammar.runWithin rules levels ctx = some (outcome, after) →
      outcome.place = after.place)
    ∧ ∀ (input : Input) (entry : Grammar) (outcome : Outcome) (after : Context input),
      runEntry rules entry (Context.initial input).mark.2 = (outcome, after) →
      outcome.place = after.place ∧ ∃ recovered : List Diagnostic,
        (∀ diagnostic ∈ recovered,
          diagnostic.code = .missingInput ∨ diagnostic.code = .skippedInput)
        ∧ (outcome.success = false →
          (ofInput rules entry input).diagnostics
              = recovered ++ [failureDiagnostic input outcome]
            ∧ (∃ text, (failureDiagnostic input outcome).labels
              = [⟨input.spanAt after.place, text, true⟩])
            ∧ ((failureDiagnostic input outcome).code = .unexpectedToken
              ∨ (failureDiagnostic input outcome).code = .notAllowedHere
              ∨ (failureDiagnostic input outcome).code = .grammarFault))
        ∧ (outcome.success = true → (ofInput rules entry input).diagnostics
          = recovered ++ if input.size ≤ after.place then []
            else [.unexpected (input.spanAt after.place)
              (sortedOnce (outcome.descriptions ++ [TokenKind.eof.describe]))
              (describeAt input after.place)]) := by
  refine ⟨fun input levels grammar ctx after outcome h =>
    (Grammar.stops_runWithin rules levels grammar ctx outcome after h).place, ?_⟩
  intro input entry outcome after hentry
  have hstops := stops_runEntry rules entry input
  obtain ⟨pieces, hadds⟩ := adds_runEntry rules entry (Context.initial input).mark.2
  have hdiagnostics := diagnostics_ofReply hadds
  rw [hentry] at hstops hadds hdiagnostics
  rw [allReports_closingPieces hstops] at hdiagnostics
  -- what the run itself has reported comes first, and all of it is from recovery
  obtain ⟨log, _, hlog⟩ := hadds.logged
  refine ⟨hstops.place, Piece.allReports pieces,
    fun diagnostic hmem => (hlog.recovers diagnostic hmem).code, ?_, ?_⟩
  · intro hfailed
    obtain ⟨text, hlabels⟩ := @labels_failureDiagnostic input outcome
    rw [if_pos hfailed] at hdiagnostics
    rw [hstops.place] at hlabels
    refine ⟨?_, ⟨text, hlabels⟩, code_of_stopsAt hstops⟩
    unfold ofInput
    rw [hentry, hdiagnostics]
  · intro hmatched
    rw [hmatched, if_neg Bool.noConfusion] at hdiagnostics
    unfold ofInput
    rw [hentry, hdiagnostics]

/-- A binding that misses its equals sign stops at the name that stands in its place. -/
theorem stopped_at_cursor_binding :
    let input : Input := .ofTokens "x y z"
      [.raw ⟨.lower, ⟨1, 1, 0⟩, ⟨1, 2, 1⟩⟩, .raw ⟨.lower, ⟨1, 3, 2⟩, ⟨1, 4, 3⟩⟩,
        .raw ⟨.lower, ⟨1, 5, 4⟩, ⟨1, 6, 5⟩⟩]
    let binding : Grammar := .seq [.token .lower, .token .equals]
    (∃ outcome after, binding.runWithin (fun _ => none) 2 (Context.initial input).mark.2
        = some (outcome, after) ∧ outcome.place = after.place)
      ∧ ∃ outcome after, runEntry (fun _ => none) binding (Context.initial input).mark.2
        = (outcome, after)
      ∧ outcome.success = false ∧ outcome.place = after.place ∧ after.place = 1
      ∧ ∃ recovered failure text,
        (ofInput (fun _ => none) binding input).diagnostics = recovered ++ [failure]
          ∧ failure.labels = [⟨⟨2, 3⟩, text, true⟩] := by
  intro input binding
  have hrun : ∃ outcome after, binding.runWithin (fun _ => none) 2 (Context.initial input).mark.2
      = some (outcome, after) := ⟨_, _, rfl⟩
  have hfailed : (runEntry (fun _ => none) binding (Context.initial input).mark.2).1.success
      = false := by decide +kernel
  have hplace : (runEntry (fun _ => none) binding (Context.initial input).mark.2).2.place = 1 := by
    decide +kernel
  obtain ⟨outcome, after, hreply⟩ := hrun
  refine ⟨⟨outcome, after, hreply, (stopped_at_cursor fun _ => none).1 _ _ _ _ _ _ hreply⟩, ?_⟩
  generalize hentry : runEntry (fun _ => none) binding (Context.initial input).mark.2 = reply
    at hfailed hplace
  obtain ⟨hstopped, recovered, _, hfailure, _⟩ :=
    (stopped_at_cursor fun _ => none).2 input binding reply.1 reply.2 hentry
  obtain ⟨hdiagnostics, ⟨text, hlabels⟩, _⟩ := hfailure hfailed
  rw [hplace] at hlabels
  exact ⟨reply.1, reply.2, rfl, hfailed, hstopped, hplace, recovered, _, text, hdiagnostics,
    hlabels⟩

end Parse

end Offside
