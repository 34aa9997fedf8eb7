import Offside.Parse.Run

/-!
Runs side by side.

What a run answers depends on little of its context. A `Likeness` is a relation
between contexts that has no place for a difference that a grammar could see:
contexts that are alike agree in the place and in whether parsing is
speculative, and what the operations of a context make of them is alike again.
Nodes under construction correspond by the indices of their openings.

The lemmas here, one for each form that runs children, put two runs side by side
in contexts that are alike, and say that the second answers wherever the first
does, with the same outcome and again in a context that is alike
(`Likeness.Answers`). Whatever two contexts share besides, a likeness that says
so carries it through a run (`Likeness.simulates_runWithin`).

# Outcomes

A run looks at the success and at the place of an outcome, and never at what was
expected or at a message. So the outcomes need not be the same either: they are
to agree in success and place, and in something that the operations on outcomes
keep (`Outcome.Agreement`). A likeness comes with an agreement, which is equality
if it does not say otherwise.
-/

namespace Offside

variable {input : Input}

/-- A relation between outcomes of one success and one place that the operations on
outcomes keep. -/
structure Outcome.Agreement where
  /-- The outcomes agree. -/
  Rel : Outcome → Outcome → Prop
  success : ∀ {outcome other}, Rel outcome other → outcome.success = other.success
  place : ∀ {outcome other}, Rel outcome other → outcome.place = other.place
  refl : ∀ outcome, Rel outcome outcome
  merge : ∀ {earlier other later last}, Rel earlier other → Rel later last →
    Rel (earlier.merge later) (other.merge last)
  withSuccess : ∀ {outcome other} (success), Rel outcome other →
    Rel (outcome.withSuccess success) (other.withSuccess success)
  /-- Under a label, nothing is kept but the message. -/
  relabel : ∀ {outcome other} (place) (self), Rel outcome other →
    Rel { Outcome.failed place self with message := outcome.message }
      { Outcome.failed place self with message := other.message }

/-- Being one and the same outcome. -/
def Outcome.Agreement.eq : Outcome.Agreement where
  Rel := Eq
  success h := by rw [h]
  place h := by rw [h]
  refl _ := rfl
  merge h hlater := by rw [h, hlater]
  withSuccess _ h := by rw [h]
  relabel _ _ h := by rw [h]

/-- A relation between contexts that the operations of a context keep, with one
between outcomes. -/
structure Likeness (input : Input) where
  /-- What is shared by the outcomes of runs in contexts that are alike. -/
  outcomes : Outcome.Agreement := .eq
  /-- The contexts are alike. -/
  Rel : Context input → Context input → Prop
  /-- The openings at the indices correspond. -/
  Marked : Nat → Nat → Prop
  place : ∀ {ctx other}, Rel ctx other → ctx.place = other.place
  inAttempt : ∀ {ctx other}, Rel ctx other → ctx.inAttempt = other.inAttempt
  start : ∀ {ctx other}, Rel ctx other → Rel ctx.start.2 other.start.2
  mark : ∀ {ctx other}, Rel ctx other → Rel ctx.mark.2 other.mark.2
  marked : ∀ {ctx other}, Rel ctx other → Marked ctx.mark.1.index other.mark.1.index
  advance : ∀ {ctx other}, Rel ctx other → Rel ctx.advance other.advance
  report : ∀ {ctx other} (diagnostic), Rel ctx other →
    Rel (ctx.report diagnostic) (other.report diagnostic)
  commit : ∀ {ctx other after last}, Rel ctx other → Rel after last →
    Rel (after.commit ctx.start.1) (last.commit other.start.1)
  rollback : ∀ {ctx other after last}, Rel ctx other → Rel after last →
    Rel (after.rollback ctx.start.1) (last.rollback other.start.1)
  speculate : ∀ {ctx other}, Rel ctx other →
    Rel (ctx.setInAttempt true) (other.setInAttempt true)
  restore : ∀ {ctx other after last}, Rel ctx other → Rel after last →
    Rel (after.setInAttempt ctx.inAttempt) (last.setInAttempt other.inAttempt)
  complete : ∀ {ctx other} {marker another : Marker} (kind), Rel ctx other →
    Marked marker.index another.index →
    Rel (ctx.complete marker kind).2 (other.complete another kind).2
  abandon : ∀ {ctx other} {marker another : Marker}, Rel ctx other →
    Marked marker.index another.index → Rel (ctx.abandon marker) (other.abandon another)
  precede : ∀ {ctx other} {done finished : CompletedMarker}, Rel ctx other →
    Marked done.index finished.index → Rel (ctx.precede done).2 (other.precede finished).2

namespace Likeness

variable (like : Likeness input) {ctx other after last : Context input}

-- ================================================= what is alike

section Observations

variable {like}

theorem atEnd (h : like.Rel ctx other) : ctx.atEnd = other.atEnd := by
  unfold Context.atEnd
  rw [like.place h]

theorem kind (h : like.Rel ctx other) : ctx.kind = other.kind := by
  unfold Context.kind
  rw [like.place h]

theorem isAt (h : like.Rel ctx other) (kind : TokenKind) : ctx.isAt kind = other.isAt kind := by
  unfold Context.isAt
  rw [like.kind h]

/-- What a condition or a capture can see is the same on both sides. -/
theorem view (h : like.Rel ctx other) : ctx.view = other.view := by
  unfold Context.view
  rw [like.place h, like.inAttempt h]

theorem text (h : like.Rel ctx other) : ctx.text = other.text := by
  unfold Context.text
  rw [like.place h]

theorem progress (h : like.Rel ctx other) (hafter : like.Rel after last) :
    Progress.between ctx.place after.place = Progress.between other.place last.place := by
  rw [like.place h, like.place hafter]

theorem point (h : like.Rel ctx other) : ctx.point = other.point := by
  unfold Context.point Context.span
  rw [like.place h]

theorem spanBetween (h : like.Rel ctx other) (first stop : Nat) :
    ctx.spanBetween first stop = other.spanBetween first stop := by
  unfold Context.spanBetween
  rw [like.point h]

/-- Blocks are skipped token by token, and each step leads to contexts that are alike. -/
theorem skipBlocks (depth : Nat) (ctx other : Context input) (h : like.Rel ctx other) :
    like.Rel (ctx.skipBlocks depth) (other.skipBlocks depth) := by
  induction hleft : input.size - ctx.place using Nat.strongRecOn generalizing ctx other depth with
  | ind left ih =>
    unfold Context.skipBlocks
    rw [like.kind h]
    by_cases hend : ctx.atEnd = true
    · rw [dif_pos hend, dif_pos (like.atEnd h ▸ hend)]
      exact h
    · rw [dif_neg hend, dif_neg (like.atEnd h ▸ hend)]
      have hprogress := Context.place_lt_advance hend
      have hinside := Context.place_lt_size hend
      by_cases hkind : other.kind = .eof
      · rw [if_pos hkind, if_pos hkind]
        exact h
      · rw [if_neg hkind, if_neg hkind]
        have hstep : ∀ depth : Nat,
            like.Rel (if depth = 0 then ctx.advance else ctx.advance.skipBlocks depth)
              (if depth = 0 then other.advance else other.advance.skipBlocks depth) := by
          intro depth
          split
          · exact like.advance h
          · exact ih _ (by omega) _ _ _ (like.advance h) rfl
        exact hstep _

/-- One token or one block is skipped on both sides. -/
theorem skipTokenTree (h : like.Rel ctx other) :
    like.Rel ctx.skipTokenTree.2 other.skipTokenTree.2 := by
  unfold Context.skipTokenTree
  rw [like.atEnd h]
  split
  · exact h
  · exact skipBlocks 0 ctx other h

end Observations

/-- Nodes under construction correspond: both are still open, or both completed. -/
def Nodes : Marker ⊕ CompletedMarker → Marker ⊕ CompletedMarker → Prop
  | .inl marker, .inl another => like.Marked marker.index another.index
  | .inr done, .inr finished => like.Marked done.index finished.index
  | _, _ => False

variable {like}

/-- A node that is completed or wrapped corresponds to the one of the other side. -/
theorem wrap {node another : Marker ⊕ CompletedMarker} (h : like.Rel ctx other)
    (hnode : like.Nodes node another) (kind : NodeKind) :
    like.Rel (ctx.wrap node kind).2 (other.wrap another kind).2
      ∧ like.Nodes (.inr (ctx.wrap node kind).1) (.inr (other.wrap another kind).1) := by
  match node, another with
  | .inl _, .inl _ => exact ⟨like.complete kind h hnode, hnode⟩
  | .inr _, .inr _ =>
    exact ⟨like.complete kind (like.precede h hnode) (like.marked h), like.marked h⟩
  | .inl _, .inr _ => exact hnode.elim
  | .inr _, .inl _ => exact hnode.elim

/-- Giving up a node that was never wrapped leaves the contexts alike. -/
theorem abandonUnwrapped {node another : Marker ⊕ CompletedMarker} (h : like.Rel ctx other)
    (hnode : like.Nodes node another) :
    like.Rel (Form.abandonUnwrapped node ctx) (Form.abandonUnwrapped another other) := by
  match node, another with
  | .inl _, .inl _ => exact like.abandon h hnode
  | .inr _, .inr _ => exact h
  | .inl _, .inr _ => exact hnode.elim
  | .inr _, .inl _ => exact hnode.elim

-- ======================================================== replies

variable (like)

/-- The second reply is there if the first is, with an outcome that agrees and a
context that is alike. -/
def Answers (reply other : Reply input) : Prop :=
  ∀ outcome ctx, reply = some (outcome, ctx) →
    ∃ result after, other = some (result, after) ∧ like.outcomes.Rel outcome result
      ∧ like.Rel ctx after

/-- The second way to run a grammar answers wherever the first does. -/
def Simulates (run other : Runner input) : Prop :=
  ∀ (grammar : Grammar) (ctx last : Context input), like.Rel ctx last →
    like.Answers (run grammar ctx) (other grammar last)

variable {like}

/-- Answers correspond if their outcomes agree and their contexts are alike. -/
theorem Answers.some {outcome result : Outcome} (hsame : like.outcomes.Rel outcome result)
    (h : like.Rel ctx other) : like.Answers (some (outcome, ctx)) (some (result, other)) := by
  intro _ _ hreply
  cases hreply
  exact ⟨result, other, rfl, hsame, h⟩

/-- The outcome is the same, whatever agreement is asked for. -/
theorem Answers.same {outcome : Outcome} (h : like.Rel ctx other) :
    like.Answers (.some (outcome, ctx)) (.some (outcome, other)) :=
  .some (like.outcomes.refl outcome) h

theorem Answers.none {other : Reply input} : like.Answers none other := nofun

/-- What goes on from a reply. -/
theorem Answers.bind {reply other : Reply input}
    {next another : Outcome → Context input → Reply input} :
    like.Answers reply other →
    (∀ (outcome result : Outcome) (ctx last : Context input), like.outcomes.Rel outcome result →
      like.Rel ctx last → like.Answers (next outcome ctx) (another result last)) →
    like.Answers
      (match reply with
        | .none => .none
        | .some (outcome, ctx) => next outcome ctx)
      (match other with
        | .none => .none
        | .some (outcome, ctx) => another outcome ctx) := by
  intro h hnext
  cases reply with
  | none => exact .none
  | some reply =>
    obtain ⟨result, after, hafter, hsame, halike⟩ := h _ _ rfl
    rw [hafter]
    exact hnext _ _ _ _ hsame halike

-- ========================================================== forms

section Forms

open Form

variable {run rerun : Runner input}

/-- A token is matched on both sides or missed on both. -/
theorem answers_single (self : Grammar) (isMatch : Bool) (h : like.Rel ctx other) :
    like.Answers (.some (single self isMatch ctx)) (.some (single self isMatch other)) := by
  have hadvance := like.advance h
  unfold single
  rw [like.atEnd h]
  split
  · dsimp only
    rw [like.place hadvance]
    exact .same hadvance
  · rw [like.place h]
    exact .same h

/-- Each part is run in contexts that are alike, and the outcomes so far agree. -/
theorem answers_seq (hrun : like.Simulates run rerun) (parts : List Grammar) :
    ∀ (outcome result : Outcome) (ctx other : Context input), like.outcomes.Rel outcome result →
      like.Rel ctx other →
      like.Answers (seq run outcome parts ctx) (seq rerun result parts other) := by
  induction parts with
  | nil => exact fun _ _ _ _ hsame h => .some hsame h
  | cons part rest ih =>
    intro outcome result ctx other hsame h
    unfold seq
    refine Answers.bind (hrun part _ _ h) fun step again after last hstep hafter => ?_
    have hmerged := like.outcomes.merge hsame hstep
    dsimp only
    rw [like.outcomes.success hmerged]
    split
    · exact ih _ _ _ _ hmerged hafter
    · exact .some hmerged hafter

/-- The outcomes of the alternatives tried so far agree, or there is none yet. -/
theorem joined_agree {sofar others : Option Outcome} {step again : Outcome}
    (hsofar : Option.Rel like.outcomes.Rel sofar others) (hstep : like.outcomes.Rel step again) :
    like.outcomes.Rel (joined sofar step) (joined others again) := by
  cases hsofar with
  | none => exact hstep
  | some hsame => exact like.outcomes.merge hsame hstep

/-- An alternative is taken back on both sides or stays on both, since that depends on success
and progress. -/
theorem answers_choose (hrun : like.Simulates run rerun) (alternatives : List Grammar) :
    ∀ (sofar others : Option Outcome) (ctx other : Context input),
      Option.Rel like.outcomes.Rel sofar others → like.Rel ctx other →
      like.Answers (choose run sofar alternatives ctx)
        (choose rerun others alternatives other) := by
  induction alternatives with
  | nil =>
    intro sofar others ctx other hsofar h
    unfold choose
    rw [like.place h]
    cases hsofar with
    | none => exact .same h
    | some hsame => exact .some hsame h
  | cons alternative rest ih =>
    intro sofar others ctx other hsofar h
    unfold choose
    refine Answers.bind (hrun alternative _ _ (like.start h))
      fun step again after last hstep hafter => ?_
    have hjoined := joined_agree hsofar hstep
    rw [like.progress h hafter, like.outcomes.success hstep]
    split
    · exact .some hjoined (like.commit h hafter)
    · exact ih _ _ _ _ (.some hjoined) (like.rollback h hafter)

/-- The next token has one kind, so that both sides choose among the same alternatives. -/
theorem answers_choice (hrun : like.Simulates run rerun) (self : Grammar)
    (alternatives : List Grammar) (h : like.Rel ctx other) :
    like.Answers (choice run self alternatives ctx) (choice rerun self alternatives other) := by
  unfold choice
  dsimp only
  rw [like.kind h, like.place h]
  split
  · exact .same h
  · exact answers_choose hrun _ _ _ _ _ .none h

/-- Both sides stop after the same match: at the end of the tokens, where a step fails, or
where it does not move on. -/
theorem answers_repeatFrom (hrun : like.Simulates run rerun) (self child : Grammar)
    (least count : Nat) (outcome result : Outcome) (ctx other : Context input)
    (hsame : like.outcomes.Rel outcome result) (h : like.Rel ctx other) :
    like.Answers (repeatFrom run self child least count outcome ctx)
      (repeatFrom rerun self child least count result other) := by
  induction hleft : input.size - ctx.place using Nat.strongRecOn
    generalizing count outcome result ctx other with
  | ind left ih =>
    have hplace := like.place h
    unfold repeatFrom
    rw [like.atEnd h]
    split
    case isTrue =>
      rw [hplace]
      split
      · exact .some (like.outcomes.merge hsame (like.outcomes.refl _)) h
      · exact .some hsame h
    case isFalse hend =>
      have hinside := Context.place_lt_size hend
      refine Answers.bind (hrun child _ _ (like.start h))
        fun step again after last hstep hafter => ?_
      have hlast := like.place hafter
      have hmerged := like.outcomes.merge hsame hstep
      rw [like.progress h hafter, like.outcomes.success hstep]
      split
      · by_cases hprogress : ctx.place < after.place
        · rw [dif_pos hprogress, dif_pos (hplace ▸ hlast ▸ hprogress)]
          refine ih _ ?_ _ _ _ _ _ hmerged (like.commit h hafter) rfl
          rw [Context.place_commit]
          omega
        · rw [dif_neg hprogress, dif_neg (hplace ▸ hlast ▸ hprogress)]
          rw [show Outcome.rejected ctx.place (some self) .grammarFault (stuckMessage self)
            = .rejected other.place (some self) .grammarFault (stuckMessage self) by rw [hplace]]
          exact .some (like.outcomes.merge hsame (like.outcomes.refl _)) (like.rollback h hafter)
      · split
        · exact .some hmerged (like.commit h hafter)
        · exact .some (like.outcomes.withSuccess _ hmerged) (like.rollback h hafter)

/-- What a step that was taken back adds. -/
theorem absorb_agree {outcome result step again : Outcome}
    (hsame : like.outcomes.Rel outcome result) (hstep : like.outcomes.Rel step again)
    (progress : Progress) :
    like.outcomes.Rel (absorb outcome step progress) (absorb result again progress) := by
  unfold absorb
  rw [like.outcomes.success hstep]
  split
  · exact like.outcomes.merge hsame (like.outcomes.withSuccess true hstep)
  · exact hsame

/-- The nodes that the steps wrap correspond throughout. -/
theorem answers_foldFrom (hrun : like.Simulates run rerun) (kind : NodeKind) (next : Grammar)
    (node another : Marker ⊕ CompletedMarker) (outcome result : Outcome)
    (ctx other : Context input) (hnode : like.Nodes node another)
    (hsame : like.outcomes.Rel outcome result) (h : like.Rel ctx other) :
    like.Answers (foldFrom run kind next node outcome ctx)
      (foldFrom rerun kind next another result other) := by
  induction hleft : input.size - ctx.place using Nat.strongRecOn
    generalizing node another outcome result ctx other with
  | ind left ih =>
    have hplace := like.place h
    unfold foldFrom
    rw [like.atEnd h]
    split
    case isTrue => exact .some hsame (like.abandonUnwrapped h hnode)
    case isFalse hend =>
      have hinside := Context.place_lt_size hend
      refine Answers.bind (hrun next _ _ (like.start h))
        fun step again after last hstep hafter => ?_
      have hlast := like.place hafter
      have hmatched := like.outcomes.success hstep
      rw [like.progress h hafter]
      by_cases hprogress : step.success ∧ ctx.place < after.place
      · rw [dif_pos hprogress, dif_pos (hplace ▸ hlast ▸ hmatched ▸ hprogress)]
        obtain ⟨hwrapped, hdone⟩ := like.wrap (like.commit h hafter) hnode kind
        refine ih _ ?_ _ _ _ _ _ _ hdone (like.outcomes.merge hsame hstep) hwrapped rfl
        have hkept := Context.place_wrap (after.commit ctx.start.1) node kind
        have hcommitted := Context.place_commit after ctx.start.1
        show input.size - ((after.commit ctx.start.1).wrap node kind).2.place < left
        omega
      · rw [dif_neg hprogress, dif_neg (hplace ▸ hlast ▸ hmatched ▸ hprogress)]
        exact .some (absorb_agree hsame hstep _)
          (like.abandonUnwrapped (like.rollback h hafter) hnode)

/-- The start is run behind markers that correspond, and the steps go on from there. -/
theorem answers_fold (hrun : like.Simulates run rerun) (kind : NodeKind) (start next : Grammar)
    (h : like.Rel ctx other) :
    like.Answers (fold run kind start next ctx) (fold rerun kind start next other) := by
  unfold fold
  refine Answers.bind (hrun start _ _ (like.mark h))
    fun outcome result after last hsame hafter => ?_
  rw [like.outcomes.success hsame]
  split
  · exact answers_foldFrom hrun kind next _ _ _ _ _ _ (like.marked h) hsame hafter
  · exact .some hsame (like.abandon hafter (like.marked h))

/-- The rest goes into one node with the start on both sides, or is taken back on both. -/
theorem answers_continuation (hrun : like.Simulates run rerun) (kind : NodeKind)
    (start rest : Grammar) (h : like.Rel ctx other) :
    like.Answers (continuation run kind start rest ctx)
      (continuation rerun kind start rest other) := by
  unfold continuation
  refine Answers.bind (hrun start _ _ (like.mark h))
    fun outcome result after last hsame hafter => ?_
  rw [like.outcomes.success hsame]
  split
  case isFalse => exact .some hsame (like.abandon hafter (like.marked h))
  case isTrue =>
    refine Answers.bind (hrun rest _ _ (like.start hafter))
      fun more again final finish hmore hfinal => ?_
    dsimp only
    rw [like.progress hafter hfinal, like.outcomes.success hmore]
    split
    · exact .some (like.outcomes.merge hsame hmore)
        (like.complete kind (like.commit hafter hfinal) (like.marked h))
    · exact .some (absorb_agree hsame hmore _)
        (like.abandon (like.rollback hafter hfinal) (like.marked h))

/-- The child stays on both sides or is taken back on both. -/
theorem answers_optional (hrun : like.Simulates run rerun) (child : Grammar)
    (h : like.Rel ctx other) :
    like.Answers (Form.optional run child ctx) (Form.optional rerun child other) := by
  unfold Form.optional
  refine Answers.bind (hrun child _ _ (like.start h))
    fun outcome result after last hsame hafter => ?_
  rw [like.progress h hafter, like.outcomes.success hsame]
  split
  · exact .some hsame (like.commit h hafter)
  · exact .some (like.outcomes.withSuccess true hsame) (like.rollback h hafter)

/-- A failure is taken back on both sides, to contexts that are alike. -/
theorem answers_whole (hrun : like.Simulates run rerun) (self child : Grammar)
    (h : like.Rel ctx other) :
    like.Answers (whole run self child ctx) (whole rerun self child other) := by
  have hfailed : Outcome.failed ctx.place self = .failed other.place self := by rw [like.place h]
  unfold whole
  refine Answers.bind (hrun child _ _ (like.start h))
    fun outcome result after last hsame hafter => ?_
  dsimp only
  rw [like.progress h hafter, hfailed, like.outcomes.success hsame]
  split
  · exact .some hsame (like.commit h hafter)
  · split
    · exact .same (like.rollback h hafter)
    · exact .some hsame (like.rollback h hafter)

/-- Whether the child is run at all depends on the next token. -/
theorem answers_heal (hrun : like.Simulates run rerun) (self child : Grammar)
    (h : like.Rel ctx other) :
    like.Answers (heal run self child ctx) (heal rerun self child other) := by
  unfold heal
  rw [like.kind h, like.place h]
  split
  · exact answers_whole hrun self child h
  · exact .same h

/-- Being speculative is set and restored on both sides. -/
theorem answers_attempt (hrun : like.Simulates run rerun) (self child : Grammar)
    (h : like.Rel ctx other) :
    like.Answers (attempt run self child ctx) (attempt rerun self child other) := by
  unfold attempt
  rw [like.kind h, like.place h]
  split
  · exact Answers.bind (answers_whole hrun self child (like.speculate h))
      fun outcome result after last hsame hafter => .some hsame (like.restore h hafter)
  · exact .same h

/-- The text that decides is that of the tokens between the same two places. -/
theorem answers_guard (hrun : like.Simulates run rerun) (self child : Grammar) (message : String)
    (accepts : String → Bool) (h : like.Rel ctx other) :
    like.Answers (Form.guard run self child message accepts ctx)
      (Form.guard rerun self child message accepts other) := by
  have hrejected : Outcome.rejected ctx.place (some self) .notAllowedHere message
      = .rejected other.place (some self) .notAllowedHere message := by
    rw [like.place h]
  unfold Form.guard
  refine Answers.bind (hrun child _ _ (like.start h))
    fun outcome result after last hsame hafter => ?_
  have htext : input.textBetween ctx.place after.place
      = input.textBetween other.place last.place := by
    rw [like.place h, like.place hafter]
  rw [like.progress h hafter, hrejected, htext, like.outcomes.success hsame]
  split
  · split
    · exact .some hsame (like.commit h hafter)
    · exact .same (like.rollback h hafter)
  · split
    · exact .some hsame (like.commit h hafter)
    · exact .some hsame (like.rollback h hafter)

/-- The node is completed on both sides or given up on both. -/
theorem answers_node (hrun : like.Simulates run rerun) (kind : NodeKind) (child : Grammar)
    (h : like.Rel ctx other) :
    like.Answers (node run kind child ctx) (node rerun kind child other) := by
  unfold node
  rw [like.kind h]
  split
  · refine Answers.bind (hrun child _ _ (like.mark h))
      fun outcome result after last hsame hafter => ?_
    rw [like.outcomes.success hsame]
    split
    · exact .some hsame (like.complete kind hafter (like.marked h))
    · exact .some hsame (like.abandon hafter (like.marked h))
  · rw [like.place h]
    exact .same h

/-- Only the outcome is relabelled, and on both sides if at all. -/
theorem answers_labeled (hrun : like.Simulates run rerun) (self child : Grammar)
    (h : like.Rel ctx other) :
    like.Answers (labeled run self child ctx) (labeled rerun self child other) := by
  unfold labeled
  refine Answers.bind (hrun child _ _ h) fun outcome result after last hsame hafter => ?_
  dsimp only
  rw [like.place h, like.outcomes.success hsame, like.outcomes.place hsame]
  split
  · exact .some (like.outcomes.relabel _ _ hsame) hafter
  · exact .some hsame hafter

/-- The condition looks at what is the same on both sides. -/
theorem answers_lookahead (hrun : like.Simulates run rerun) (self child : Grammar)
    (holds : View → Bool) (h : like.Rel ctx other) :
    like.Answers (lookahead run self child holds ctx) (lookahead rerun self child holds other) := by
  unfold lookahead
  rw [like.view h, like.place h]
  split
  · exact hrun child _ _ h
  · exact .same h

/-- The same text selects the same grammar. -/
theorem answers_capture (hrun : like.Simulates run rerun) (self : Grammar)
    (select : String → Grammar) (h : like.Rel ctx other) :
    like.Answers (capture run self select ctx) (capture rerun self select other) := by
  unfold capture
  rw [like.atEnd h, like.place h, like.text h]
  split
  · exact .same h
  · exact hrun _ _ _ h

/-- Both sides run the body of the rule, or report that there is none. -/
theorem answers_reference (hrun : like.Simulates run rerun) (self : Grammar) (name : String)
    (body : Option Grammar) (h : like.Rel ctx other) :
    like.Answers (reference run self name body ctx) (reference rerun self name body other) := by
  unfold reference
  rw [like.place h]
  split
  · exact hrun _ _ _ h
  · exact .same h

/-- Both sides recover or neither does, as they are speculative together. -/
theorem answers_orRecover (hrun : like.Simulates run rerun) (child : Grammar)
    {recover another : Context input → Reply input}
    (hrecover : ∀ ctx other : Context input, like.Rel ctx other →
      like.Answers (recover ctx) (another other))
    (h : like.Rel ctx other) :
    like.Answers (orRecover run child recover ctx) (orRecover rerun child another other) := by
  unfold orRecover
  rw [like.inAttempt h]
  split
  · exact hrun child _ _ h
  · refine Answers.bind (hrun child _ _ (like.start h))
      fun outcome result after last hsame hafter => ?_
    rw [like.outcomes.success hsame]
    split
    · exact .some hsame (like.commit h hafter)
    · exact hrecover _ _ (like.rollback h hafter)

/-- The same report is made on both sides, at the same place. -/
theorem answers_relax (hrun : like.Simulates run rerun) (message : String) (child : Grammar)
    (h : like.Rel ctx other) :
    like.Answers (relax run message child ctx) (relax rerun message child other) := by
  refine answers_orRecover hrun child (fun ctx other h => ?_) h
  rw [like.place h, like.point h]
  exact .same (like.report _ h)

/-- The trials of a synchronisation point agree. -/
theorem syncMatches_alike (hrun : like.Simulates run rerun) (sync : Grammar)
    (h : like.Rel ctx other) {matched : Bool}
    (hmatches : syncMatches run sync ctx = some (matched, after)) :
    ∃ last, syncMatches rerun sync other = some (matched, last) ∧ like.Rel after last := by
  unfold syncMatches at hmatches ⊢
  dsimp only at hmatches ⊢
  split at hmatches
  case h_1 => cases hmatches
  case h_2 outcome trial htrial =>
    cases hmatches
    obtain ⟨result, last, hlast, hsame, halike⟩ :=
      hrun _ _ _ (like.speculate (like.start h)) _ _ htrial
    rw [hlast, like.outcomes.success hsame]
    exact ⟨_, rfl, like.rollback h (like.restore (like.start h) halike)⟩

/-- What is skipped agrees. -/
theorem skipTo_alike (hrun : like.Simulates run rerun) (sync : Grammar)
    (ctx other : Context input) (h : like.Rel ctx other) :
    ∀ after : Context input, skipTo run sync ctx = some after →
      ∃ last, skipTo rerun sync other = some last ∧ like.Rel after last := by
  induction hleft : input.size - ctx.place using Nat.strongRecOn generalizing ctx other with
  | ind left ih =>
    intro after hskip
    unfold skipTo at hskip ⊢
    rw [← like.atEnd h, ← like.isAt h]
    split at hskip
    case isTrue hend =>
      cases hskip
      rw [dif_pos hend]
      exact ⟨_, rfl, h⟩
    case isFalse hend =>
      rw [dif_neg hend]
      split at hskip
      case isTrue hstop =>
        cases hskip
        rw [if_pos hstop]
        exact ⟨_, rfl, h⟩
      case isFalse hstop =>
        rw [if_neg hstop]
        split at hskip
        case h_1 => cases hskip
        case h_2 trial htrial =>
          cases hskip
          obtain ⟨last, hlast, halike⟩ := syncMatches_alike hrun sync h htrial
          rw [hlast]
          exact ⟨_, rfl, halike⟩
        case h_3 trial htrial =>
          obtain ⟨last, hlast, halike⟩ := syncMatches_alike hrun sync h htrial
          rw [hlast]
          -- the trial is taken back on both sides, and then one tree is skipped
          have hskipped := like.skipTokenTree halike
          have hinside := Context.place_lt_size hend
          dsimp only at hskip ⊢
          split at hskip
          case isFalse => cases hskip
          case isTrue hprogress =>
            rw [dif_pos (by rw [← like.place h, ← like.place hskipped]; exact hprogress)]
            exact ih _ (by omega) _ _ hskipped rfl _ hskip

/-- The same tokens go into both error nodes, with the same report behind them. -/
theorem answers_skipMalformed (hrun : like.Simulates run rerun) (sync : Grammar)
    (message : String) (h : like.Rel ctx other) :
    like.Answers (skipMalformed run sync message ctx)
      (skipMalformed rerun sync message other) := by
  intro outcome after hreply
  unfold skipMalformed at hreply ⊢
  rw [← like.atEnd h, ← like.isAt h]
  split at hreply
  case isTrue hstop =>
    cases hreply
    rw [if_pos hstop, ← like.place h, ← like.point h]
    exact ⟨_, _, rfl, like.outcomes.refl _, like.report _ h⟩
  case isFalse hstop =>
    rw [if_neg hstop]
    dsimp only at hreply ⊢
    split at hreply
    case h_1 => cases hreply
    case h_2 last hskip =>
      obtain ⟨final, hfinal, halike⟩ :=
        skipTo_alike hrun sync _ _ (like.skipTokenTree (like.mark h)) _ hskip
      have hcompleted := like.complete .error halike (like.marked h)
      cases hreply
      rw [hfinal]
      dsimp only
      rw [← like.place hcompleted, ← like.place h, ← like.spanBetween hcompleted]
      exact ⟨_, _, rfl, like.outcomes.refl _, like.report _ hcompleted⟩

end Forms

-- ========================================================== the run

open Grammar in
/-- One level of a run answers wherever another does, if the runs below do. -/
theorem simulates_runLevel {run rerun : Runner input} (hrun : like.Simulates run rerun)
    (rules : RuleTable) : like.Simulates (runLevel rules run) (runLevel rules rerun) := by
  intro grammar ctx other h
  cases grammar with
  | token kind =>
    unfold runLevel Context.isAt
    rw [like.kind h]
    exact answers_single _ _ h
  | literal text =>
    unfold runLevel
    rw [like.text h]
    exact answers_single _ _ h
  | seq parts =>
    unfold runLevel
    rw [like.place h]
    exact answers_seq hrun parts _ _ _ _ (like.outcomes.refl _) h
  | choice alternatives => exact answers_choice hrun _ alternatives h
  | many child least =>
    unfold runLevel
    rw [like.place h]
    exact answers_repeatFrom hrun _ child least 0 _ _ _ _ (like.outcomes.refl _) h
  | optional child => exact answers_optional hrun child h
  | attempt child => exact answers_attempt hrun _ child h
  | heal child => exact answers_heal hrun _ child h
  | guard child message accepts => exact answers_guard hrun _ child message accepts h
  | node kind child => exact answers_node hrun kind child h
  | labeled label child => exact answers_labeled hrun _ child h
  | relax message child => exact answers_relax hrun message child h
  | relaxTo message child sync =>
    exact answers_orRecover hrun child
      (fun _ _ h => answers_skipMalformed hrun sync message h) h
  | fold kind start next => exact answers_fold hrun kind start next h
  | continuation kind start rest => exact answers_continuation hrun kind start rest h
  | reference name rule => exact answers_reference hrun _ name _ h
  | succeed =>
    unfold runLevel
    rw [like.place h]
    exact .same h
  | lookahead holds child => exact answers_lookahead hrun _ child holds h
  | capture name select => exact answers_capture hrun _ select h

open Grammar in
/-- In contexts that are alike, runs of a grammar answer alike; a number of levels
that suffices for one suffices for the other, and more do no harm. -/
theorem simulates_runWithin (rules : RuleTable) {levels more : Nat} (hlevels : levels ≤ more) :
    like.Simulates (runWithin rules levels) (runWithin rules more) := by
  induction levels generalizing more with
  | zero => exact fun _ _ _ _ => .none
  | succ levels ih =>
    obtain ⟨more, rfl⟩ : ∃ fewer, more = fewer + 1 := ⟨more - 1, by omega⟩
    intro grammar ctx other h
    rw [runWithin_succ, runWithin_succ]
    exact simulates_runLevel (ih (by omega)) rules grammar ctx other h

end Likeness

end Offside
