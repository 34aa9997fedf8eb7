import Offside.Proofs.Grammar.Laid
import Offside.Proofs.Parse.Direct

/-!
Error nodes come with the report that explains them.

A grammar that makes no error node of its own yields error nodes in one place
only: where recovery skips malformed input. There the node holds the skipped
tokens, at least one, and the report on them stands right behind it. Evaluation
takes back what fails as a whole, so whatever it keeps has both or neither
(`Explained`). There is one lemma for each form that evaluates children, under
the hypothesis that the children are explained (`Explains`), and
`explains_evalWithin` puts them together by induction on the levels.
-/

namespace Offside

-- ==================================================== the nodes of a grammar

namespace Grammar

mutual

/-- No node of the kind is made by the grammar, whatever a capture selects. Rules that
it refers to are not looked at, and neither is what a recovery only looks for. -/
def MakesNo (kind : NodeKind) : Grammar → Prop
  | .token _ | .literal _ | .reference .. | .succeed => True
  | .seq parts | .choice parts => AllMakeNo kind parts
  | .many child _ | .optional child | .attempt child | .heal child | .guard child ..
  | .labeled _ child | .relax _ child | .relaxTo _ child _ | .lookahead _ child =>
    child.MakesNo kind
  | .node made child => made ≠ kind ∧ child.MakesNo kind
  | .fold made start next | .continuation made start next =>
    made ≠ kind ∧ start.MakesNo kind ∧ next.MakesNo kind
  | .capture _ select => ∀ text, (select text).MakesNo kind

/-- No node of the kind is made by any of the grammars. -/
def AllMakeNo (kind : NodeKind) : List Grammar → Prop
  | [] => True
  | grammar :: rest => grammar.MakesNo kind ∧ AllMakeNo kind rest

end

/-- One of several grammars makes no node of the kind if none of them does. -/
theorem makesNo_of_mem {kind : NodeKind} {grammar : Grammar} {grammars : List Grammar}
    (h : AllMakeNo kind grammars) (hmem : grammar ∈ grammars) : grammar.MakesNo kind := by
  induction grammars with
  | nil => cases hmem
  | cons first rest ih =>
    rcases List.mem_cons.mp hmem with rfl | hmem
    · exact h.1
    · exact ih h.2 hmem

mutual

/-- The same as a check. A grammar that the text selects does not pass. -/
def avoids (kind : NodeKind) : Grammar → Bool
  | .token _ | .literal _ | .reference .. | .succeed => true
  | .seq parts | .choice parts => allAvoid kind parts
  | .many child _ | .optional child | .attempt child | .heal child | .guard child ..
  | .labeled _ child | .relax _ child | .relaxTo _ child _ | .lookahead _ child =>
    child.avoids kind
  | .node made child => made != kind && child.avoids kind
  | .fold made start next | .continuation made start next =>
    made != kind && start.avoids kind && next.avoids kind
  | .capture .. => false

/-- The check on several grammars. -/
def allAvoid (kind : NodeKind) : List Grammar → Bool
  | [] => true
  | grammar :: rest => grammar.avoids kind && allAvoid kind rest

end

mutual

/-- What the check passes makes no such node. A capture has no answer to the check, since what
it selects is not known. -/
theorem makesNo_of_avoids {kind : NodeKind} : ∀ {grammar : Grammar},
    grammar.avoids kind = true → grammar.MakesNo kind
  | .token _, _ | .literal _, _ | .reference .., _ | .succeed, _ => trivial
  | .seq _, h | .choice _, h => allMakeNo_of_allAvoid h
  | .many child _, h | .optional child, h | .attempt child, h | .heal child, h
  | .guard child .., h | .labeled _ child, h | .relax _ child, h | .relaxTo _ child _, h
  | .lookahead _ child, h => @makesNo_of_avoids kind child h
  | .node _ _, h => by
    have hboth := Bool.and_eq_true_iff.mp h
    exact ⟨bne_iff_ne.mp hboth.1, makesNo_of_avoids hboth.2⟩
  | .fold _ _ _, h | .continuation _ _ _, h => by
    have hboth := Bool.and_eq_true_iff.mp h
    have hstart := Bool.and_eq_true_iff.mp hboth.1
    exact ⟨bne_iff_ne.mp hstart.1, makesNo_of_avoids hstart.2, makesNo_of_avoids hboth.2⟩
  | .capture .., h => nomatch h

theorem allMakeNo_of_allAvoid {kind : NodeKind} : ∀ {grammars : List Grammar},
    allAvoid kind grammars = true → AllMakeNo kind grammars
  | [], _ => trivial
  | _ :: _, h => by
    have hboth := Bool.and_eq_true_iff.mp h
    exact ⟨makesNo_of_avoids hboth.1, allMakeNo_of_allAvoid hboth.2⟩

end

end Grammar

-- ========================================================== explained pieces

/-- Pieces in which every error node holds skipped tokens and nothing else, with the
report on them right behind it. -/
inductive Explained (input : Input) : List Piece → Prop
  | nil : Explained input []
  | token (place : Nat) {rest : List Piece} (later : Explained input rest) :
      Explained input (.token place :: rest)
  | report (diagnostic : Diagnostic) {rest : List Piece} (later : Explained input rest) :
      Explained input (.report diagnostic :: rest)
  | node {kind : NodeKind} {pieces rest : List Piece} (hkind : kind ≠ .error)
      (inner : Explained input pieces) (later : Explained input rest) :
      Explained input (.node kind pieces :: rest)
  | skipped {first last : Nat} (message : String) {rest : List Piece} (nonempty : first < last)
      (inside : last ≤ input.size) (later : Explained input rest) :
      Explained input (.node .error (tokenPieces first last)
        :: .report (skippedReport input first last message) :: rest)

variable {input : Input}

/-- Explained pieces in a row are explained, as every error node has its report right behind it. -/
theorem Explained.append {pieces others : List Piece} (earlier : Explained input pieces)
    (later : Explained input others) : Explained input (pieces ++ others) := by
  induction earlier with
  | nil => exact later
  | token place _ ih => exact .token place ih
  | report diagnostic _ ih => exact .report diagnostic ih
  | node hkind inner _ _ ih => exact .node hkind inner ih
  | skipped message nonempty inside _ ih => exact .skipped message nonempty inside ih

/-- A node around explained pieces. -/
theorem Explained.single {kind : NodeKind} {pieces : List Piece} (hkind : kind ≠ .error)
    (inner : Explained input pieces) : Explained input [.node kind pieces] :=
  .node hkind inner .nil

namespace Direct

open Grammar

/-- Whatever evaluation yields is explained, if the grammar makes no error node. -/
def Explains (eval : Evaluator) : Prop :=
  ∀ (grammar : Grammar) (view : View) (yield : Yield), grammar.MakesNo .error →
    view.input.Laid → eval grammar view = some yield → Explained view.input yield.pieces

variable {eval : Evaluator} {view : View} {yield : Yield} {kind : NodeKind}
  {child start next sync : Grammar} {message : String}

theorem explained_single (isMatch : Bool) (view : View) :
    Explained view.input (single isMatch view).pieces := by
  unfold single
  split
  · exact .token _ .nil
  · exact .nil

/-- The parts that were matched stand in a row, and so do their reports. -/
theorem explained_seq (heval : Explains eval) {parts : List Grammar}
    (hparts : AllMakeNo .error parts) : ∀ (view : View) {yield : Yield}, view.input.Laid →
      seq eval parts view = some yield → Explained view.input yield.pieces := by
  induction parts with
  | nil =>
    intro view yield _ h
    cases h
    exact .nil
  | cons part rest ih =>
    intro view yield hlaid h
    obtain ⟨step, hstep, h⟩ := Option.bind_eq_some_iff.mp h
    have hpart := heval part view step hparts.1 hlaid hstep
    split at h
    · obtain ⟨later, hlater, rfl⟩ := Option.map_eq_some_iff.mp h
      exact hpart.append (ih hparts.2 (view.movedTo step.place) hlaid hlater)
    · cases h
      exact hpart

/-- Only one alternative leaves any pieces, and it makes no error node. -/
theorem explained_choose (heval : Explains eval) {alternatives : List Grammar}
    (hmakes : ∀ alternative ∈ alternatives, alternative.MakesNo .error) (hlaid : view.input.Laid)
    (h : choose eval alternatives view = some yield) : Explained view.input yield.pieces := by
  induction alternatives with
  | nil =>
    cases h
    exact .nil
  | cons alternative rest ih =>
    obtain ⟨step, hstep, h⟩ := Option.bind_eq_some_iff.mp h
    have hpieces := heval alternative view step (hmakes _ List.mem_cons_self) hlaid hstep
    split at h
    · cases h
      exact hpieces
    · exact ih (fun other hmem => hmakes other (List.mem_cons_of_mem _ hmem)) h

/-- The matches stand in a row. A step that does not move on is taken back with its pieces. -/
theorem explained_repeatFrom (heval : Explains eval) (hchild : child.MakesNo .error)
    (least count : Nat) (view : View) : ∀ {yield : Yield}, view.input.Laid →
      repeatFrom eval child least count view = some yield →
      Explained view.input yield.pieces := by
  fun_induction repeatFrom eval child least count view with
  | case1 =>
    intro yield _ h
    cases h
    exact .nil
  | case2 count view hend ih =>
    intro yield hlaid h
    obtain ⟨step, hstep, h⟩ := Option.bind_eq_some_iff.mp h
    have hpieces := heval child view step hchild hlaid hstep
    split at h
    · split at h
      case isTrue hprogress =>
        obtain ⟨later, hlater, rfl⟩ := Option.map_eq_some_iff.mp h
        exact hpieces.append (ih step hprogress hlaid hlater)
      case isFalse =>
        cases h
        exact .nil
    · split at h
      · cases h
        exact hpieces
      · cases h
        exact .nil

/-- The steps wrap what was built so far into one node more, which is no error node. -/
theorem explained_foldFrom (heval : Explains eval) (hkind : kind ≠ .error)
    (hnext : next.MakesNo .error) (sofar : List Piece) (view : View) : ∀ {yield : Yield},
      view.input.Laid → Explained view.input sofar →
      foldFrom eval kind next sofar view = some yield → Explained view.input yield.pieces := by
  fun_induction foldFrom eval kind next sofar view with
  | case1 =>
    intro yield _ hsofar h
    cases h
    exact hsofar
  | case2 sofar view hend ih =>
    intro yield hlaid hsofar h
    obtain ⟨step, hstep, h⟩ := Option.bind_eq_some_iff.mp h
    split at h
    case isTrue hprogress =>
      have hwrapped := hsofar.append (heval next view step hnext hlaid hstep)
      exact ih step hprogress hlaid (.single hkind hwrapped) h
    case isFalse =>
      cases h
      exact hsofar

/-- The start stands alone or is wrapped by the steps. -/
theorem explained_fold (heval : Explains eval) (hkind : kind ≠ .error)
    (hstart : start.MakesNo .error) (hnext : next.MakesNo .error) (hlaid : view.input.Laid)
    (h : fold eval kind start next view = some yield) : Explained view.input yield.pieces := by
  obtain ⟨first, hfirst, h⟩ := Option.bind_eq_some_iff.mp h
  have hpieces := heval start view first hstart hlaid hfirst
  split at h
  · exact explained_foldFrom heval hkind hnext first.pieces (view.movedTo first.place) hlaid
      hpieces h
  · cases h
    exact hpieces

/-- The start stands alone or in one node with the rest. -/
theorem explained_continuation (heval : Explains eval) (hkind : kind ≠ .error)
    (hstart : start.MakesNo .error) (hnext : next.MakesNo .error) (hlaid : view.input.Laid)
    (h : continuation eval kind start next view = some yield) :
    Explained view.input yield.pieces := by
  obtain ⟨first, hfirst, h⟩ := Option.bind_eq_some_iff.mp h
  have hpieces := heval start view first hstart hlaid hfirst
  split at h
  · obtain ⟨more, hmore, h⟩ := Option.bind_eq_some_iff.mp h
    have hrest := heval next (view.movedTo first.place) more hnext hlaid hmore
    split at h
    · cases h
      exact .single hkind (hpieces.append hrest)
    · cases h
      exact hpieces
  · cases h
    exact hpieces

/-- The child stays if it matched or moved on, and else nothing does. -/
theorem explained_optional (heval : Explains eval) (hchild : child.MakesNo .error)
    (hlaid : view.input.Laid) (h : optional eval child view = some yield) :
    Explained view.input yield.pieces := by
  obtain ⟨step, hstep, h⟩ := Option.bind_eq_some_iff.mp h
  have hpieces := heval child view step hchild hlaid hstep
  split at h
  · cases h
    exact hpieces
  · cases h
    exact .nil

/-- The child stays as a whole or not at all. -/
theorem explained_heal (heval : Explains eval) (hchild : child.MakesNo .error) (view : View)
    (hlaid : view.input.Laid) {yield : Yield} (h : heal eval child view = some yield) :
    Explained view.input yield.pieces := by
  unfold heal at h
  split at h
  · obtain ⟨step, hstep, h⟩ := Option.bind_eq_some_iff.mp h
    have hpieces := heval child view step hchild hlaid hstep
    split at h
    · cases h
      exact hpieces
    · cases h
      exact .nil
  · cases h
    exact .nil

/-- A child that is not accepted is taken back, and so is one that failed at its start. -/
theorem explained_guard (heval : Explains eval) (hchild : child.MakesNo .error)
    (hlaid : view.input.Laid) {accepts : String → Bool}
    (h : guard eval child accepts view = some yield) : Explained view.input yield.pieces := by
  obtain ⟨step, hstep, h⟩ := Option.bind_eq_some_iff.mp h
  have hpieces := heval child view step hchild hlaid hstep
  split at h
  · split at h
    · cases h
      exact hpieces
    · cases h
      exact .nil
  · split at h
    · cases h
      exact hpieces
    · cases h
      exact .nil

/-- A node that is no error node may hold whatever its child yields. -/
theorem explained_node (heval : Explains eval) (hkind : kind ≠ .error)
    (hchild : child.MakesNo .error) (hlaid : view.input.Laid)
    (h : node eval kind child view = some yield) : Explained view.input yield.pieces := by
  unfold node at h
  split at h
  · obtain ⟨step, hstep, h⟩ := Option.bind_eq_some_iff.mp h
    have hpieces := heval child view step hchild hlaid hstep
    split at h
    · cases h
      exact .single hkind hpieces
    · cases h
      exact hpieces
  · cases h
    exact .nil

/-- Behind a condition that holds, the pieces are those of the child. -/
theorem explained_lookahead (heval : Explains eval) (hchild : child.MakesNo .error)
    (hlaid : view.input.Laid) {holds : View → Bool}
    (h : lookahead eval child holds view = some yield) : Explained view.input yield.pieces := by
  unfold lookahead at h
  split at h
  · exact heval child view yield hchild hlaid h
  · cases h
    exact .nil

/-- Whatever grammar the text selects makes no error node. -/
theorem explained_capture (heval : Explains eval) {select : String → Grammar}
    (hselect : ∀ text, (select text).MakesNo .error) (hlaid : view.input.Laid)
    (h : capture eval select view = some yield) : Explained view.input yield.pieces := by
  unfold capture at h
  split at h
  · cases h
    exact .nil
  · exact heval _ view yield (hselect _) hlaid h

/-- The body of a rule makes no error node, and a rule that is missing yields nothing. -/
theorem explained_reference (heval : Explains eval) {body : Option Grammar}
    (hbody : ∀ grammar, body = some grammar → grammar.MakesNo .error) (hlaid : view.input.Laid)
    (h : reference eval body view = some yield) : Explained view.input yield.pieces := by
  cases body with
  | none =>
    cases h
    exact .nil
  | some grammar => exact heval grammar view yield (hbody grammar rfl) hlaid h

-- ================================================================= recovery

/-- What matched or is speculative stays as it is; the rest is up to the recovery. -/
theorem explained_orRecover (heval : Explains eval) (hchild : child.MakesNo .error)
    (hlaid : view.input.Laid) {recover : View → Option Yield}
    (hrecover : ∀ yield, recover view = some yield → Explained view.input yield.pieces)
    (h : orRecover eval child recover view = some yield) : Explained view.input yield.pieces := by
  unfold orRecover at h
  split at h
  · exact heval child view yield hchild hlaid h
  · obtain ⟨step, hstep, h⟩ := Option.bind_eq_some_iff.mp h
    have hpieces := heval child view step hchild hlaid hstep
    split at h
    · cases h
      exact hpieces
    · exact hrecover yield h

/-- A report on something missing stands alone, with no error node in front of it. -/
theorem explained_relax (heval : Explains eval) (hchild : child.MakesNo .error)
    (hlaid : view.input.Laid) (h : relax eval message child view = some yield) :
    Explained view.input yield.pieces := by
  refine explained_orRecover heval hchild hlaid (fun yield hrecover => ?_) h
  cases hrecover
  exact .report _ .nil

theorem le_skipBlocks (input : Input) (place depth : Nat) :
    place ≤ skipBlocks input place depth := by
  fun_induction skipBlocks input place depth with
  | case1 | case2 => exact Nat.le_refl _
  | case3 => exact Nat.le_succ _
  | case4 place _ _ _ _ _ ih => exact Nat.le_of_succ_le ih

/-- What is skipped first is at least one token. -/
theorem lt_skipBlocks (hlaid : input.Laid) {place : Nat} (hinside : place < input.size)
    (depth : Nat) : place < skipBlocks input place depth := by
  fun_cases skipBlocks input place depth with
  | case1 hend => exact absurd hinside (Nat.not_lt_of_le hend)
  | case2 _ heof => exact absurd heof (hlaid.inside place hinside)
  | case3 => exact Nat.lt_succ_self _
  | case4 => exact Nat.lt_of_succ_le (le_skipBlocks input (place + 1) _)

theorem skipBlocks_le {place : Nat} (hinside : place ≤ input.size) (depth : Nat) :
    skipBlocks input place depth ≤ input.size := by
  fun_induction skipBlocks input place depth with
  | case1 | case2 => exact hinside
  | case3 place hend => omega
  | case4 place depth hend _ _ _ ih => exact ih (by omega)

/-- What is skipped goes on from the place, and stays inside the input. -/
theorem skipTo_bounds (view : View) : ∀ {last : Nat}, view.place ≤ view.input.size →
    skipTo eval sync view = some last → view.place ≤ last ∧ last ≤ view.input.size := by
  fun_induction skipTo eval sync view with
  | case1 | case2 =>
    intro last hinside h
    cases h
    exact ⟨Nat.le_refl _, hinside⟩
  | case3 view hend hstop ih =>
    intro last hinside h
    obtain ⟨trial, htrial, h⟩ := Option.bind_eq_some_iff.mp h
    split at h
    · cases h
      exact ⟨Nat.le_refl _, hinside⟩
    · dsimp only at h
      split at h
      case isTrue hprogress =>
        obtain ⟨honward, hlast⟩ := ih hprogress (skipBlocks_le hinside 0) h
        exact ⟨Nat.le_trans (Nat.le_of_lt hprogress) honward, hlast⟩
      case isFalse => cases h

/-- Where there is anything to skip, the error node has at least the first token, and its
report is behind it. -/
theorem explained_skipMalformed (hlaid : view.input.Laid)
    (h : skipMalformed eval sync message view = some yield) :
    Explained view.input yield.pieces := by
  unfold skipMalformed at h
  split at h
  case isTrue =>
    cases h
    exact .report _ .nil
  case isFalse hinside =>
    obtain ⟨last, hlast, h⟩ := Option.bind_eq_some_iff.mp h
    cases h
    have hplace : view.place < view.input.size := by
      simp only [View.atEnd, Bool.or_eq_true, decide_eq_true_eq, not_or, Nat.not_le] at hinside
      exact hinside.1
    obtain ⟨honward, hend⟩ := skipTo_bounds (view.movedTo _)
      (skipBlocks_le (Nat.le_of_lt hplace) 0) hlast
    exact .skipped message (Nat.lt_of_lt_of_le (lt_skipBlocks hlaid hplace 0) honward) hend .nil

/-- Recovery is the only place where an error node is made, and it comes with its report. -/
theorem explained_relaxTo (heval : Explains eval) (hchild : child.MakesNo .error)
    (hlaid : view.input.Laid) (h : relaxTo eval message child sync view = some yield) :
    Explained view.input yield.pieces :=
  explained_orRecover heval hchild hlaid (fun _ => explained_skipMalformed hlaid) h

-- =============================================================== evaluation

/-- One level of the evaluation is explained if what is below it is and the rules make no
error node. -/
theorem explains_evalLevel (heval : Explains eval) {rules : RuleTable}
    (hrules : ∀ rule body, rules rule = some body → body.MakesNo .error) :
    Explains (evalLevel eval rules) := by
  intro grammar view yield hmakes hlaid h
  cases grammar with
  | token kind =>
    cases h
    exact explained_single _ view
  | literal text =>
    cases h
    exact explained_single _ view
  | seq parts => exact explained_seq heval (show AllMakeNo .error parts from hmakes) view hlaid h
  | choice alternatives =>
    have hall : AllMakeNo .error alternatives := hmakes
    exact explained_choose heval
      (fun alternative hmem => makesNo_of_mem hall (mem_of_mem_candidates hmem)) hlaid h
  | many child least =>
    exact explained_repeatFrom heval (show child.MakesNo .error from hmakes) least 0 view hlaid h
  | optional child => exact explained_optional heval (show child.MakesNo .error from hmakes) hlaid h
  | attempt child =>
    exact explained_heal heval (show child.MakesNo .error from hmakes) view.speculative hlaid h
  | heal child => exact explained_heal heval (show child.MakesNo .error from hmakes) view hlaid h
  | guard child message accepts =>
    exact explained_guard heval (show child.MakesNo .error from hmakes) hlaid h
  | node kind child => exact explained_node heval hmakes.1 hmakes.2 hlaid h
  | labeled label child => exact heval child view yield hmakes hlaid h
  | relax message child =>
    exact explained_relax heval (show child.MakesNo .error from hmakes) hlaid h
  | relaxTo message child sync =>
    exact explained_relaxTo heval (show child.MakesNo .error from hmakes) hlaid h
  | fold kind start next => exact explained_fold heval hmakes.1 hmakes.2.1 hmakes.2.2 hlaid h
  | continuation kind start rest =>
    exact explained_continuation heval hmakes.1 hmakes.2.1 hmakes.2.2 hlaid h
  | reference name rule => exact explained_reference heval (hrules rule) hlaid h
  | succeed =>
    cases h
    exact .nil
  | lookahead holds child =>
    exact explained_lookahead heval (show child.MakesNo .error from hmakes) hlaid h
  | capture name select => exact explained_capture heval hmakes hlaid h

/-- Evaluating a grammar that makes no error node yields error nodes with the reports
that explain them. -/
theorem explains_evalWithin {rules : RuleTable}
    (hrules : ∀ rule body, rules rule = some body → body.MakesNo .error) (levels : Nat) :
    Explains (evalWithin rules levels) := by
  induction levels with
  | zero => exact fun _ _ _ _ _ h => nomatch h
  | succ levels ih => exact explains_evalLevel ih hrules

end Direct

end Offside
