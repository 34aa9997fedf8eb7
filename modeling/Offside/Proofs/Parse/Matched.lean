import Offside.Proofs.Grammar.Matches
import Offside.Proofs.Parse.Alike
import Offside.Proofs.Parse.Logged
import Offside.Proofs.Parse.Skipped

/-!
Every successful run is a match.

As with the log, there is one lemma for each form that runs children, under the
hypothesis that a child that succeeds matches the stretch that it leaves behind
(`Matching`), and `matches_runWithin` puts them together by induction on the
levels. What is taken back leaves the place where it was, and what is skipped is
made of whole trees.
-/

namespace Offside

variable {input : Input} {rules : RuleTable}

/-- Where a run succeeds, the grammar matches from the place before to the place
after. -/
def Matching (rules : RuleTable) (run : Runner input) : Prop :=
  ∀ (grammar : Grammar) (ctx : Context input) (outcome : Outcome) (after : Context input),
    run grammar ctx = some (outcome, after) → outcome.success = true →
      Matches rules input grammar ctx.place after.place

namespace Form

open Context

variable {run : Runner input} {ctx after : Context input} {outcome : Outcome}

/-- A single match consumes the token of the place. -/
theorem matched_single {self : Grammar} {isMatch : Bool}
    (h : some (single self isMatch ctx) = some (outcome, after))
    (hsuccess : outcome.success = true) :
    ctx.place < input.size ∧ isMatch = true ∧ after.place = ctx.place + 1 := by
  unfold single at h
  split at h
  case isTrue hinside =>
    cases h
    obtain ⟨hend, hmatch⟩ := Bool.and_eq_true_iff.mp hinside
    have hlt : ctx.place < input.size := place_lt_size (by simpa using hend)
    exact ⟨hlt, hmatch, place_advance hlt⟩
  case isFalse =>
    cases h
    cases hsuccess

-- ============================================= sequence and choice

/-- The stretches of the parts follow each other. -/
theorem matches_seq (hrun : Matching rules run) (parts : List Grammar) :
    ∀ (sofar : Outcome) (ctx : Context input), seq run sofar parts ctx = some (outcome, after) →
      outcome.success = true → Matches rules input (.seq parts) ctx.place after.place := by
  induction parts with
  | nil =>
    intro sofar ctx h _
    cases h
    exact .seqNil _
  | cons part rest ih =>
    intro sofar ctx h hsuccess
    unfold seq at h
    obtain ⟨step, between, hpart, h⟩ := reply_bind h
    dsimp only at h
    split at h
    case isTrue hstep =>
      rw [Outcome.success_merge] at hstep
      exact .seqCons (hrun _ _ _ _ hpart hstep :) (ih _ _ h hsuccess)
    case isFalse hstep =>
      cases h
      exact absurd hsuccess hstep

/-- A choice succeeds through one of its alternatives, which started where the
choice did. -/
theorem matches_choose (hrun : Matching rules run) (alternatives : List Grammar) :
    ∀ (sofar : Option Outcome) (ctx : Context input),
      (∀ earlier, sofar = some earlier → earlier.success = false) →
      choose run sofar alternatives ctx = some (outcome, after) → outcome.success = true →
      ∃ alternative ∈ alternatives, Matches rules input alternative ctx.place after.place := by
  induction alternatives with
  | nil =>
    intro sofar ctx hsofar h hsuccess
    cases h
    cases sofar with
    | none => cases hsuccess
    | some earlier =>
      have hfailed : earlier.success = true := hsuccess
      rw [hsofar earlier rfl] at hfailed
      cases hfailed
  | cons alternative rest ih =>
    intro sofar ctx hsofar h hsuccess
    unfold choose at h
    dsimp only at h
    obtain ⟨step, between, hfirst, h⟩ := reply_bind h
    split at h
    case isTrue =>
      cases h
      rw [success_joined] at hsuccess
      exact ⟨alternative, List.mem_cons_self, (hrun _ _ _ _ hfirst hsuccess :)⟩
    case isFalse hstep =>
      have hfailed : step.success = false := by
        cases hflag : step.success with
        | false => rfl
        | true => exact absurd (by rw [hflag]; rfl) hstep
      obtain ⟨other, hmem, hother⟩ :=
        ih _ _ (by rintro _ ⟨⟩; rw [success_joined, hfailed]) h hsuccess
      exact ⟨other, List.mem_cons_of_mem _ hmem, hother⟩

/-- The candidate that succeeds is one of the alternatives. -/
theorem matches_choice (hrun : Matching rules run) {self : Grammar} {alternatives : List Grammar}
    (h : choice run self alternatives ctx = some (outcome, after))
    (hsuccess : outcome.success = true) :
    Matches rules input (.choice alternatives) ctx.place after.place := by
  unfold choice at h
  dsimp only at h
  split at h
  case isTrue =>
    cases h
    cases hsuccess
  case isFalse =>
    obtain ⟨alternative, hmem, halternative⟩ :=
      matches_choose hrun _ none _ (fun _ h => nomatch h) h hsuccess
    exact .choice (Grammar.mem_of_mem_candidates hmem) halternative

-- ====================================================== repetition

/-- Each match that goes on consumes, and with as many as required the repetition may end. -/
theorem matches_repeatFrom (hrun : Matching rules run) (self child : Grammar) (least count : Nat)
    (sofar : Outcome) (ctx : Context input)
    (h : repeatFrom run self child least count sofar ctx = some (outcome, after))
    (hsuccess : outcome.success = true) :
    Matches rules input (.many child (least - count)) ctx.place after.place := by
  have hstay : ∀ place : Nat, least ≤ count →
      Matches rules input (.many child (least - count)) place place := by
    intro place hcount
    rw [Nat.sub_eq_zero_of_le hcount]
    exact .manyNil child place
  fun_induction repeatFrom run self child least count sofar ctx with
  | case1 count sofar ctx hend =>
    split at h
    case isTrue =>
      cases h
      rw [Outcome.success_merge] at hsuccess
      cases hsuccess
    case isFalse hcount =>
      cases h
      exact hstay _ (Nat.le_of_not_lt hcount)
  | case2 => cases h
  | case3 count sofar ctx hinside place transaction opened hopen step between hstep hmatched
      hprogress ih =>
    cases hopen
    refine .manyCons hprogress (hrun _ _ _ _ hstep hmatched :) ?_
    rw [← Nat.sub_add_eq]
    refine ih h fun place hcount => ?_
    rw [Nat.sub_eq_zero_of_le hcount]
    exact .manyNil child place
  | case4 count sofar ctx hinside place transaction opened hopen step between hstep =>
    cases h
    rw [Outcome.success_merge] at hsuccess
    cases hsuccess
  | case5 count sofar ctx hinside place transaction opened hopen step between hstep hfailed =>
    cases h
    rw [Outcome.success_merge] at hsuccess
    exact absurd hsuccess hfailed
  | case6 count sofar ctx hinside place transaction opened hopen step between hstep =>
    cases hopen
    cases h
    exact hstay _ (of_decide_eq_true hsuccess)

/-- A fold goes on as a repetition does that requires nothing. -/
theorem matches_foldFrom (hrun : Matching rules run) (kind : NodeKind) (next : Grammar)
    (node : Marker ⊕ CompletedMarker) (sofar : Outcome) (ctx : Context input)
    (h : foldFrom run kind next node sofar ctx = some (outcome, after)) :
    Matches rules input (.many next 0) ctx.place after.place := by
  fun_induction foldFrom run kind next node sofar ctx with
  | case1 =>
    cases h
    rw [place_abandonUnwrapped]
    exact .manyNil next _
  | case2 => cases h
  | case3 node sofar ctx hinside place transaction opened hstart step between hstep hmatched
      done wrapped hwrap ih =>
    cases hstart
    have hplace : wrapped.place = between.place :=
      (place_of_wrap hwrap).trans (place_commit between _)
    refine .manyCons hmatched.2 (hrun _ _ _ _ hstep hmatched.1 :) ?_
    rw [← hplace]
    exact ih h
  | case4 node sofar ctx hinside place transaction opened hstart step between hstep =>
    cases hstart
    cases h
    rw [place_abandonUnwrapped]
    exact .manyNil next _

/-- The start matches, and then the steps as a repetition. -/
theorem matches_fold (hrun : Matching rules run) {kind : NodeKind} {start next : Grammar}
    (h : fold run kind start next ctx = some (outcome, after)) (hsuccess : outcome.success = true) :
    Matches rules input (.fold kind start next) ctx.place after.place := by
  unfold fold at h
  dsimp only at h
  obtain ⟨step, between, hstart, h⟩ := reply_bind h
  split at h
  case isTrue hmatched =>
    exact .fold (hrun _ _ _ _ hstart hmatched :) (matches_foldFrom hrun _ _ _ _ _ h)
  case isFalse hfailed =>
    cases h
    exact absurd hsuccess hfailed

/-- The start matches alone, or with the rest behind it. -/
theorem matches_continuation (hrun : Matching rules run) {kind : NodeKind} {start rest : Grammar}
    (h : continuation run kind start rest ctx = some (outcome, after))
    (hsuccess : outcome.success = true) :
    Matches rules input (.continuation kind start rest) ctx.place after.place := by
  unfold continuation at h
  dsimp only at h
  obtain ⟨step, between, hstart, h⟩ := reply_bind h
  split at h
  case isFalse hfailed =>
    cases h
    exact absurd hsuccess hfailed
  case isTrue hmatched =>
    have hfirst := hrun _ _ _ _ hstart hmatched
    obtain ⟨more, last, hrest, h⟩ := reply_bind h
    split at h
    case isTrue hmore =>
      cases h
      exact .continuation hfirst (.optional (hrun _ _ _ _ hrest hmore :))
    case isFalse =>
      cases h
      exact .continuation hfirst (.optionalNil rest _)

-- ==================================================== taking back

/-- The child matches, or nothing does. -/
theorem matches_optional (hrun : Matching rules run) {child : Grammar}
    (h : optional run child ctx = some (outcome, after)) (hsuccess : outcome.success = true) :
    Matches rules input (.optional child) ctx.place after.place := by
  unfold optional at h
  dsimp only at h
  obtain ⟨step, between, hchild, h⟩ := reply_bind h
  split at h
  · cases h
    exact .optional (hrun _ _ _ _ hchild hsuccess :)
  · cases h
    exact .optionalNil child _

/-- A success of what is taken back otherwise is the child's. -/
theorem matches_whole (hrun : Matching rules run) {self child : Grammar}
    (h : whole run self child ctx = some (outcome, after)) (hsuccess : outcome.success = true) :
    Matches rules input child ctx.place after.place := by
  unfold whole at h
  dsimp only at h
  obtain ⟨step, between, hchild, h⟩ := reply_bind h
  split at h
  case isTrue hmatched =>
    cases h
    exact (hrun _ _ _ _ hchild hmatched :)
  case isFalse hfailed =>
    cases h
    split at hsuccess
    · cases hsuccess
    · exact absurd hsuccess hfailed

/-- A success of a healed child is one of the child. -/
theorem matches_heal (hrun : Matching rules run) {self child : Grammar}
    (h : heal run self child ctx = some (outcome, after)) (hsuccess : outcome.success = true) :
    Matches rules input (.heal child) ctx.place after.place := by
  unfold heal at h
  split at h
  · exact .heal (matches_whole hrun h hsuccess)
  · cases h
    cases hsuccess

/-- Speculation changes nothing in what matches. -/
theorem matches_attempt (hrun : Matching rules run) {self child : Grammar}
    (h : attempt run self child ctx = some (outcome, after)) (hsuccess : outcome.success = true) :
    Matches rules input (.attempt child) ctx.place after.place := by
  unfold attempt at h
  split at h
  case isTrue =>
    dsimp only at h
    obtain ⟨step, between, hchild, h⟩ := reply_bind h
    cases h
    exact .attempt (matches_whole hrun hchild hsuccess :)
  case isFalse =>
    cases h
    cases hsuccess

/-- What the guard accepts has matched. -/
theorem matches_guard (hrun : Matching rules run) {self child : Grammar} {message : String}
    {accepts : String → Bool}
    (h : guard run self child message accepts ctx = some (outcome, after))
    (hsuccess : outcome.success = true) :
    Matches rules input (.guard child message accepts) ctx.place after.place := by
  unfold guard at h
  dsimp only at h
  obtain ⟨step, between, hchild, h⟩ := reply_bind h
  split at h
  case isTrue hmatched =>
    split at h
    · cases h
      exact .guard (hrun _ _ _ _ hchild hmatched :)
    · cases h
      cases hsuccess
  case isFalse hfailed =>
    split at h
    · cases h
      exact absurd hsuccess hfailed
    · cases h
      exact absurd hsuccess hfailed

-- ================================================= nodes and labels

/-- A node matches what its child does. -/
theorem matches_node (hrun : Matching rules run) {kind : NodeKind} {child : Grammar}
    (h : node run kind child ctx = some (outcome, after)) (hsuccess : outcome.success = true) :
    Matches rules input (.node kind child) ctx.place after.place := by
  unfold node at h
  split at h
  case isTrue =>
    dsimp only at h
    obtain ⟨step, between, hchild, h⟩ := reply_bind h
    split at h
    case isTrue hmatched =>
      cases h
      exact .node (hrun _ _ _ _ hchild hmatched :)
    case isFalse hfailed =>
      cases h
      exact absurd hsuccess hfailed
  case isFalse =>
    cases h
    cases hsuccess

/-- A label matches what its child does. -/
theorem matches_labeled (hrun : Matching rules run) {self child : Grammar} {label : String}
    (h : labeled run self child ctx = some (outcome, after)) (hsuccess : outcome.success = true) :
    Matches rules input (.labeled label child) ctx.place after.place := by
  unfold labeled at h
  dsimp only at h
  obtain ⟨step, between, hchild, h⟩ := reply_bind h
  split at h
  · cases h
    cases hsuccess
  · cases h
    exact .labeled (hrun _ _ _ _ hchild hsuccess :)

/-- The condition held where the child starts. -/
theorem matches_lookahead (hrun : Matching rules run) {self child : Grammar} {holds : View → Bool}
    (h : lookahead run self child holds ctx = some (outcome, after))
    (hsuccess : outcome.success = true) :
    Matches rules input (.lookahead holds child) ctx.place after.place := by
  unfold lookahead at h
  split at h
  case isTrue hholds => exact .lookahead hholds (hrun _ _ _ _ h hsuccess :)
  case isFalse =>
    cases h
    cases hsuccess

/-- The text that selected the grammar is that of the token. -/
theorem matches_capture (hrun : Matching rules run) {self : Grammar} {name : String}
    {select : String → Grammar} (h : capture run self select ctx = some (outcome, after))
    (hsuccess : outcome.success = true) :
    Matches rules input (.capture name select) ctx.place after.place := by
  unfold capture at h
  split at h
  · cases h
    cases hsuccess
  · exact .capture (hrun _ _ _ _ h hsuccess :)

/-- The body of the rule has matched. -/
theorem matches_reference (hrun : Matching rules run) {self : Grammar} {name : String} {rule : Nat}
    (h : reference run self name (rules rule) ctx = some (outcome, after))
    (hsuccess : outcome.success = true) :
    Matches rules input (.reference name rule) ctx.place after.place := by
  unfold reference at h
  split at h
  case h_1 body hrule => exact .reference hrule (hrun _ _ _ _ h hsuccess :)
  case h_2 =>
    cases h
    cases hsuccess

-- ========================================================= recovery

/-- A form that recovers succeeds through its child or from where it started. -/
theorem matches_orRecover (hrun : Matching rules run) {child : Grammar}
    {recover : Context input → Reply input}
    (h : orRecover run child recover ctx = some (outcome, after))
    (hsuccess : outcome.success = true) :
    Matches rules input child ctx.place after.place
      ∨ ∃ start : Context input, start.place = ctx.place
        ∧ recover start = some (outcome, after) := by
  unfold orRecover at h
  split at h
  case isTrue => exact .inl (hrun _ _ _ _ h hsuccess :)
  case isFalse =>
    dsimp only at h
    obtain ⟨step, between, hchild, h⟩ := reply_bind h
    split at h
    case isTrue hmatched =>
      cases h
      exact .inl (hrun _ _ _ _ hchild hmatched :)
    case isFalse => exact .inr ⟨between.rollback ctx.start.1, rfl, h⟩

/-- The child matches, or what is missing is made up for with no token. -/
theorem matches_relax (hrun : Matching rules run) {message : String} {child : Grammar}
    (h : relax run message child ctx = some (outcome, after)) (hsuccess : outcome.success = true) :
    Matches rules input (.relax message child) ctx.place after.place := by
  rcases matches_orRecover hrun h hsuccess with hchild | ⟨start, hplace, hrecover⟩
  · exact .relax hchild
  · cases hrecover
    rw [place_report, hplace]
    exact .relaxNil message child _

/-- What is skipped is made of whole trees: the first one, and those up to where skipping stops. -/
theorem trees_skipMalformed {sync : Grammar} {message : String} (hlaid : input.Laid)
    (h : skipMalformed run sync message ctx = some (outcome, after)) :
    input.Trees anyRoot ctx.place after.place := by
  unfold skipMalformed at h
  split at h
  case isTrue =>
    cases h
    exact .nil _ _
  case isFalse hinside =>
    obtain ⟨hend, hstop⟩ := Bool.or_eq_false_iff.mp (Bool.eq_false_iff.mpr hinside)
    have hkind : ctx.mark.2.kind ≠ .layoutEnd := by
      intro heq
      have hstop : (ctx.mark.2.kind == .layoutEnd) = false := hstop
      rw [heq] at hstop
      cases hstop
    dsimp only at h
    split at h
    case h_1 => cases h
    case h_2 last hskip =>
      cases h
      have hlt : ctx.mark.2.place < input.size := by
        refine place_lt_size fun hended => ?_
        rw [show ctx.mark.2.atEnd = ctx.atEnd from rfl, hend] at hended
        cases hended
      have hfirst : input.Trees anyRoot ctx.mark.2.place ctx.mark.2.skipTokenTree.2.place :=
        (trees_skipTokenTree hlaid hlt hkind rfl).1
      exact hfirst.append (trees_skipTo hlaid (fun _ _ _ => rfl) _ _ hskip).1

/-- The child matches, or whole trees are skipped in its place. -/
theorem matches_relaxTo (hrun : Matching rules run) {message : String} {child sync : Grammar}
    (h : relaxTo run message child sync ctx = some (outcome, after))
    (hsuccess : outcome.success = true) :
    Matches rules input (.relaxTo message child sync) ctx.place after.place := by
  rcases matches_orRecover hrun h hsuccess with hchild | ⟨start, hplace, hrecover⟩
  · exact .relaxTo hchild
  · rw [← hplace]
    exact .skipped fun hlaid => trees_skipMalformed hlaid hrecover

end Form

namespace Grammar

open Form

/-- One level of a run matches if what is below does. -/
theorem matches_runLevel {run : Runner input} (hrun : Matching rules run) :
    Matching rules (runLevel rules run) := by
  intro grammar ctx outcome after h hsuccess
  cases grammar with
  | token kind =>
    obtain ⟨hinside, hkind, hplace⟩ := matched_single h hsuccess
    rw [hplace]
    exact .token hinside (eq_of_beq hkind)
  | literal text =>
    obtain ⟨hinside, htext, hplace⟩ := matched_single h hsuccess
    rw [hplace]
    exact .literal hinside (eq_of_beq htext)
  | seq parts => exact matches_seq hrun parts _ _ h hsuccess
  | choice alternatives => exact matches_choice hrun h hsuccess
  | many child least => exact matches_repeatFrom hrun _ child least 0 _ _ h hsuccess
  | optional child => exact matches_optional hrun h hsuccess
  | attempt child => exact matches_attempt hrun h hsuccess
  | heal child => exact matches_heal hrun h hsuccess
  | guard child message accepts => exact matches_guard hrun h hsuccess
  | node kind child => exact matches_node hrun h hsuccess
  | labeled label child => exact matches_labeled hrun h hsuccess
  | relax message child => exact matches_relax hrun h hsuccess
  | relaxTo message child sync => exact matches_relaxTo hrun h hsuccess
  | fold kind start next => exact matches_fold hrun h hsuccess
  | continuation kind start rest => exact matches_continuation hrun h hsuccess
  | reference name rule => exact matches_reference hrun h hsuccess
  | succeed =>
    cases h
    exact .succeed _
  | lookahead holds child => exact matches_lookahead hrun h hsuccess
  | capture name select => exact matches_capture hrun h hsuccess

/-- Whatever the grammar and its rules, a run that succeeds has matched what it
consumed. -/
theorem matches_runWithin (rules : RuleTable) (levels : Nat) :
    Matching rules (runWithin rules levels : Runner input) := by
  induction levels with
  | zero =>
    intro grammar ctx outcome after h
    cases h
  | succ levels ih =>
    intro grammar ctx outcome after h
    rw [runWithin_succ] at h
    exact matches_runLevel ih grammar ctx outcome after h

end Grammar

end Offside
