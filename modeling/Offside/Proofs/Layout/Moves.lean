import Offside.Layout.Blocks

/-!
What a step of the layout pass can do, said once.

Every step emits its token exactly once. Before it, the step settles the open
contexts at the position of the token: it closes some, with an end for each
block among them, and may separate. Behind it, the step may open one block,
and drop or open masks. `step_settles` is the case analysis over the actions;
whatever holds of all steps is shown from it, part by part, and looks at no
action again.

The second half takes the pass itself apart into moves: trivia, or the fold of
a significant token. `run_eq_foldl` says that the pass over a text is such a
sequence of moves.
-/

namespace Offside.Layout

/-- The action settles the contexts by the column of its token alone, and emits the token in
the common way. -/
def Action.isOrdinary : Action → Bool
  | .default | .label | .declHead | .letKeyword | .doKeyword | .adoKeyword | .caseKeyword
  | .ifKeyword | .forallKeyword | .backslash | .dot | .openParen | .openBrace | .openSquare => true
  | _ => false

namespace State

-- ====================================================== the small moves

/-- A conditional pop changes nothing, or drops the innermost context. -/
theorem popIf_cases (state : State) (p : Delimiter → Bool) :
    state.popIf p = state
      ∨ ∃ frame below, state.stack.frames = frame :: below ∧ p frame.delimiter = true
        ∧ state.popIf p = ⟨⟨below⟩, state.emitted⟩ := by
  fun_cases State.popIf state p with
  | case1 => exact Or.inl rfl
  | case2 frame below hframes hp => exact Or.inr ⟨frame, below, hframes, hp, rfl⟩
  | case3 => exact Or.inl rfl

theorem emitted_popIf (state : State) (p : Delimiter → Bool) :
    (state.popIf p).emitted = state.emitted := by
  rcases popIf_cases state p with hsame | ⟨frame, below, hframes, hp, hpop⟩
  · rw [hsame]
  · rw [hpop]

/-- Opening a block changes nothing, or pushes the context and emits its start. -/
theorem openBlock_cases (state : State) (delimiter : Delimiter) (next : Position) :
    state.openBlock delimiter next = state
      ∨ state.openBlock delimiter next = (state.push delimiter next).emit (.start next) := by
  fun_cases State.openBlock state delimiter next with
  | case1 => exact Or.inr rfl
  | case2 => exact Or.inl rfl

/-- Closing frames one by one leaves those behind the first that stays. -/
theorem collapseFrames_stack (closes : Closing) (position : Position) (frames : List Frame) :
    ∀ emitted, (collapseFrames closes position emitted frames).stack
      = ⟨frames.dropWhile (closes position)⟩ := by
  induction frames with
  | nil => exact fun _ => rfl
  | cons frame below ih =>
    intro emitted
    unfold collapseFrames
    rw [List.dropWhile_cons]
    split
    · exact ih _
    · rfl

/-- Collapsing leaves the stack that `collapsed` foretells. -/
theorem stack_collapse (state : State) (closes : Closing) (position : Position) :
    (state.collapse closes position).stack = state.collapsed closes position :=
  collapseFrames_stack closes position state.stack.frames state.emitted

-- ============================================ closings concern blocks

/-- What lies right of a token and is closed for it is a block. -/
theorem isIndent_of_offside {position : Position} {frame : Frame}
    (h : Closing.offside position frame = true) : frame.isIndent = true :=
  (Bool.and_eq_true_iff.mp h).1

theorem isIndent_of_offsideEnd {position : Position} {frame : Frame}
    (h : Closing.offsideEnd position frame = true) : frame.isIndent = true :=
  (Bool.and_eq_true_iff.mp h).1

theorem isIndent_of_delimiter {frame : Frame} {delimiter : Delimiter}
    (h : (frame.delimiter == delimiter) = true) (hblock : delimiter.isIndent = true) :
    frame.isIndent = true := by
  rw [Frame.isIndent, beq_iff_eq.mp h]
  exact hblock

/-- A `where` closes blocks only. -/
theorem isIndent_of_beforeWhere {position : Position} {frame : Frame}
    (h : Closing.beforeWhere position frame = true) : frame.isIndent = true := by
  rcases Bool.or_eq_true_iff.mp h with hdo | hright
  · exact isIndent_of_delimiter hdo rfl
  · exact isIndent_of_offsideEnd hright

theorem isIndent_of_beforeIn {position : Position} {frame : Frame}
    (h : Closing.beforeIn position frame = true) : frame.isIndent = true := by
  unfold Closing.beforeIn at h
  simp only [Bool.and_eq_true] at h
  exact h.1.1.1

theorem isIndent_of_beforeArrow {position : Position} {frame : Frame}
    (h : Closing.beforeArrow position frame = true) : frame.isIndent = true := by
  rcases Bool.or_eq_true_iff.mp h with hdo | hright
  · exact isIndent_of_delimiter hdo rfl
  · exact isIndent_of_offsideEnd (Bool.and_eq_true_iff.mp hright).2

/-- An equals sign closes blocks only. -/
theorem isIndent_of_beforeEquals {position : Position} {frame : Frame}
    (h : Closing.beforeEquals position frame = true) : frame.isIndent = true := by
  rcases Bool.or_eq_true_iff.mp h with hwhere | hlet
  · rcases Bool.or_eq_true_iff.mp hwhere with hwhere | hlet
    · exact isIndent_of_delimiter hwhere rfl
    · exact isIndent_of_delimiter hlet rfl
  · exact isIndent_of_delimiter hlet rfl

-- ======================================================= behind a mask

/-- The innermost context is a mask. -/
def TopIsMask (state : State) : Prop := state.stack.top.isIndent = false

/-- What closes blocks only does not close a mask. -/
theorem not_closes_of_mask {closes : Closing} {position : Position} {frame : Frame}
    (hblocks : ∀ frame, closes position frame = true → frame.isIndent = true)
    (hmask : frame.isIndent = false) : ¬closes position frame = true :=
  fun hcloses => Bool.false_ne_true (hmask.symm.trans (hblocks frame hcloses))

/-- A mask is in the way of what closes blocks only. -/
theorem collapsed_of_mask {state : State} {closes : Closing} {position : Position}
    (hblocks : ∀ frame, closes position frame = true → frame.isIndent = true)
    (hmask : state.TopIsMask) : state.collapsed closes position = state.stack := by
  obtain ⟨⟨frames⟩, emitted⟩ := state
  cases frames with
  | nil => rfl
  | cons frame below =>
    have hopen : ¬closes position frame = true := not_closes_of_mask hblocks hmask
    unfold collapsed
    rw [List.dropWhile_cons_of_neg hopen]

/-- Closing by such a rule changes nothing then. -/
theorem collapse_of_mask {state : State} {closes : Closing} {position : Position}
    (hblocks : ∀ frame, closes position frame = true → frame.isIndent = true)
    (hmask : state.TopIsMask) : state.collapse closes position = state := by
  obtain ⟨⟨frames⟩, emitted⟩ := state
  cases frames with
  | nil => rfl
  | cons frame below =>
    have hopen : ¬closes position frame = true := not_closes_of_mask hblocks hmask
    unfold collapse collapseFrames
    rw [if_neg hopen]

/-- The place of a record label is a mask. -/
theorem topIsMask_of_label {state : State} (h : state.stack.delimiter = .property) :
    state.TopIsMask :=
  congrArg Delimiter.isIndent h

/-- Where a record label may stand nothing is separated, since that context is neither a block
nor a declaration. -/
theorem separate_of_label {state : State} (h : state.stack.delimiter = .property)
    (position : Position) : state.separate position = state := by
  have hframe : state.stack.top.delimiter = .property := h
  simp [State.separate, hframe, Frame.isIndent, Delimiter.isIndent]

/-- In the place of a record label nothing closes and nothing is separated. -/
theorem emitDefault_of_label {state : State} (h : state.stack.delimiter = .property)
    (token : Token) : state.emitDefault token = state.emit (.raw token) := by
  unfold State.emitDefault
  rw [collapse_of_mask (fun _ => isIndent_of_offside) (topIsMask_of_label h),
    separate_of_label h]

-- ============================================== the parts of a step

/-- Some blocks are closed, each with an end. -/
inductive Collapses (position : Position) : State → State → Prop
  | refl (state : State) : Collapses position state state
  | collapse {state after : State} {closes : Closing}
      (hblocks : ∀ frame, closes position frame = true → frame.isIndent = true)
      (collapses : Collapses position state after) :
      Collapses position state (after.collapse closes position)

/-- Contexts are closed: blocks with their ends, by the position or by hand, and
masks without a token; and masks are opened. -/
inductive Closes (position : Position) : State → State → Prop
  | collapses {state after : State} (collapses : Collapses position state after) :
      Closes position state after
  | popMask {state after : State} (hmask : after.TopIsMask) (closes : Closes position state after) :
      Closes position state after.popAny
  | pushMask {state after : State} {delimiter : Delimiter} (hmask : delimiter.isIndent = false)
      (closes : Closes position state after) : Closes position state (after.push delimiter position)
  /-- One block, by hand. -/
  | stop {state after : State} (hblock : after.stack.top.isIndent = true)
      (closes : Closes position state after) :
      Closes position state (after.popAny.emitStop position)
  /-- Two blocks, by hand: both contexts go before the first end is emitted. -/
  | stops {state after : State} (hinner : after.stack.top.isIndent = true)
      (houter : after.stack.pop.top.isIndent = true) (closes : Closes position state after) :
      Closes position state ((after.popAny.popAny.emitStop position).emitStop position)

/-- What happens before the token is emitted. Nothing but blocks closes in front of
a separator. -/
inductive Settles (position : Position) : State → State → Prop
  | closes {state after : State} (closes : Closes position state after) :
      Settles position state after
  | separate {state after : State} (collapses : Collapses position state after) :
      Settles position state (after.separate position)

/-- Masks come and go. -/
inductive Masks : State → State → Prop
  | refl (state : State) : Masks state state
  | pop {state after : State} (hmask : after.TopIsMask) (masks : Masks state after) :
      Masks state after.popAny
  | push {state after : State} {delimiter : Delimiter} (position : Position)
      (hmask : delimiter.isIndent = false) (masks : Masks state after) :
      Masks state (after.push delimiter position)

/-- What happens behind the emitted token: masks come and go, or a block may open at
the next token, with or without a mask at the same place. -/
inductive Follows (next : Position) : State → State → Prop
  | masks {state after : State} (masks : Masks state after) : Follows next state after
  | openBlock {state : State} {delimiter : Delimiter} (hblock : delimiter.isIndent = true) :
      Follows next state (state.openBlock delimiter next)
  | openMasked {state : State} {delimiter mask : Delimiter} (hblock : delimiter.isIndent = true)
      (hmask : mask.isIndent = false) :
      Follows next state ((state.openBlock delimiter next).push mask next)

/-- A step: it settles the contexts, emits the token, and may open what follows. -/
def Steps (token : Token) (next : Position) (state after : State) : Prop :=
  ∃ settled, Settles token.start state settled ∧ Follows next (settled.emit (.raw token)) after

-- ================================================ the parts, composed

variable {state after : State} {position : Position}

/-- A conditional pop is a pop or nothing. -/
theorem popIf_eq (state : State) (p : Delimiter → Bool) :
    (state.popIf p = state.popAny ∧ p state.stack.delimiter = true) ∨ state.popIf p = state := by
  rcases popIf_cases state p with hsame | ⟨frame, below, hframes, hp, hpop⟩
  · exact Or.inr hsame
  · refine Or.inl ⟨?_, ?_⟩
    · rw [hpop, popAny, popIf, hframes]
      rfl
    · rw [Stack.delimiter, Stack.top, hframes]
      exact hp

/-- Behind what closes, a mask may be dropped. -/
theorem Closes.popIf {p : Delimiter → Bool} (closes : Closes position state after)
    (hmask : ∀ delimiter, p delimiter = true → delimiter.isIndent = false) :
    Closes position state (after.popIf p) := by
  rcases popIf_eq after p with ⟨hpop, hp⟩ | hsame
  · rw [hpop]
    exact .popMask (hmask _ hp) closes
  · rw [hsame]
    exact closes

/-- Masks may go on to be dropped. -/
theorem Masks.popIf {p : Delimiter → Bool} (masks : Masks state after)
    (hmask : ∀ delimiter, p delimiter = true → delimiter.isIndent = false) :
    Masks state (after.popIf p) := by
  rcases popIf_eq after p with ⟨hpop, hp⟩ | hsame
  · rw [hpop]
    exact .pop (hmask _ hp) masks
  · rw [hsame]
    exact masks

theorem isIndent_of_eq_mask {mask : Delimiter} (hmask : mask.isIndent = false)
    (delimiter : Delimiter) (h : (delimiter == mask) = true) : delimiter.isIndent = false := by
  rw [beq_iff_eq.mp h]
  exact hmask

/-- Ending a pending label drops a mask, if anything. -/
theorem follows_endLabel (state : State) (next : Position) :
    Follows next state state.endLabel :=
  .masks ((Masks.refl state).popIf (isIndent_of_eq_mask rfl))

theorem follows_refl (state : State) (next : Position) : Follows next state state :=
  .masks (.refl state)

theorem follows_popMask {state : State} (hmask : state.TopIsMask) (next : Position) :
    Follows next state state.popAny :=
  .masks (.pop hmask (.refl state))

/-- Opening a mask behind the token is one of the things that may follow it. -/
theorem follows_pushMask (state : State) {delimiter : Delimiter} (position : Position)
    (hmask : delimiter.isIndent = false) (next : Position) :
    Follows next state (state.push delimiter position) :=
  .masks (.push position hmask (.refl state))

/-- One rule that closes blocks only is a closing of blocks. -/
theorem collapses_once (state : State) {closes : Closing}
    (hblocks : ∀ frame, closes position frame = true → frame.isIndent = true) :
    Collapses position state (state.collapse closes position) :=
  .collapse hblocks (.refl state)

/-- The token of a mask that is pending: the mask was the innermost context left. -/
theorem topIsMask_collapse {closes : Closing} {delimiter : Delimiter}
    (hclosed : (state.collapsed closes position).delimiter = delimiter)
    (hmask : delimiter.isIndent = false) : (state.collapse closes position).TopIsMask := by
  unfold TopIsMask
  rw [stack_collapse]
  exact (congrArg Delimiter.isIndent hclosed).trans hmask

-- ================================================ the ordinary actions

variable (token : Token) (next : Position)

/-- A reserved word opens what it opens, or is a label. -/
theorem follows_emitKeyword (state : State) {after : State → State}
    (follows : ∀ emitted, Follows next emitted (after emitted)) :
    Follows next (state.emitDefault token) (state.emitKeyword token after) := by
  unfold State.emitKeyword
  split
  case isTrue hlabel =>
    have hmask : (state.emitDefault token).TopIsMask := by
      rw [emitDefault_of_label hlabel]
      exact topIsMask_of_label hlabel
    exact follows_popMask hmask next
  case isFalse => exact follows _

/-- Behind the token only the mask of a declaration may open. -/
theorem follows_stepDefault (state : State) :
    Follows next (state.emitDefault token) (state.stepDefault token) := by
  fun_cases State.stepDefault state token with
  | case1 => exact follows_pushMask _ _ rfl next
  | case2 => exact follows_refl _ next

/-- Behind the token only the mask of a head may open, or a label ends. -/
theorem follows_stepHead (state : State) {delimiter : Delimiter}
    (hmask : delimiter.isIndent = false) :
    Follows next (state.emitDefault token) (state.stepHead token delimiter) := by
  fun_cases State.stepHead state token delimiter with
  | case1 => exact follows_pushMask _ _ hmask next
  | case2 => exact follows_endLabel _ next

theorem follows_stepLet (state : State) :
    Follows next (state.emitDefault token) (state.stepLet token next) := by
  refine follows_emitKeyword token next state fun emitted => .openBlock ?_
  split <;> rfl

theorem follows_stepDot (state : State) :
    Follows next (state.emitDefault token) (state.stepDot token) := by
  fun_cases State.stepDot state token with
  | case1 emitted hbinders => exact follows_popMask (congrArg Delimiter.isIndent hbinders) next
  | case2 => exact follows_pushMask _ _ rfl next

/-- An ordinary token is emitted in the common way, and opens what follows. -/
theorem follows_step (state : State) {action : Action} (h : action.isOrdinary = true) :
    Follows next (state.emitDefault token) (state.step token next action) := by
  have pushed : ∀ {delimiter : Delimiter} (position : Position) (_ : delimiter.isIndent = false)
      (emitted : State), Follows next emitted (emitted.push delimiter position) :=
    fun position hmask emitted => follows_pushMask emitted position hmask next
  cases action with
  | default => exact follows_stepDefault token next state
  | label => exact follows_stepHead token next state rfl
  | declHead => exact follows_stepHead token next state rfl
  | letKeyword => exact follows_stepLet token next state
  | doKeyword => exact follows_emitKeyword token next state fun _ => .openBlock rfl
  | adoKeyword => exact follows_emitKeyword token next state fun _ => .openBlock rfl
  | caseKeyword => exact follows_emitKeyword token next state (pushed token.start rfl)
  | ifKeyword => exact follows_emitKeyword token next state (pushed token.start rfl)
  | forallKeyword => exact follows_emitKeyword token next state (pushed token.start rfl)
  | backslash => exact pushed token.start rfl _
  | dot => exact follows_stepDot token next state
  | openParen => exact pushed token.start rfl _
  | openBrace => exact .masks (.push _ rfl (.push _ rfl (.refl _)))
  | openSquare => exact pushed token.start rfl _
  | _ => cases h

-- =================================================== the other actions

/-- The common case settles with a separator; what follows is up to the action. -/
theorem steps_emitDefault {state after : State}
    (follows : Follows next (state.emitDefault token) after) : Steps token next state after :=
  ⟨_, .separate (collapses_once state fun _ => isIndent_of_offside), follows⟩

/-- A token that ends a mask, closing the blocks inside it. -/
theorem steps_endMask {state after : State} {closes : Closing} {delimiter : Delimiter}
    (hblocks : ∀ frame, closes token.start frame = true → frame.isIndent = true)
    (hclosed : (state.collapsed closes token.start).delimiter = delimiter)
    (hmask : delimiter.isIndent = false)
    (follows : Follows next ((state.collapse closes token.start).popAny.emit (.raw token)) after) :
    Steps token next state after :=
  ⟨_, .closes (.popMask (topIsMask_collapse hclosed hmask)
    (.collapses (collapses_once state hblocks))), follows⟩

/-- A `where` ends a mask, or closes blocks, and opens a block behind the token. -/
theorem steps_stepWhere (state : State) : Steps token next state (state.stepWhere token next) := by
  have hnone : Closes token.start state state := .collapses (.refl state)
  fun_cases State.stepWhere state token next with
  | case1 hhead =>
    exact ⟨_, .closes (.popMask (congrArg Delimiter.isIndent hhead) hnone), .openBlock rfl⟩
  | case2 hlabel =>
    exact ⟨_, .closes (.popMask (congrArg Delimiter.isIndent hlabel) hnone), follows_refl _ next⟩
  | case3 =>
    exact ⟨_, .closes (.collapses (collapses_once state fun _ => isIndent_of_beforeWhere)),
      .openBlock rfl⟩

/-- An `in` ends one block or two by hand, behind those that it closes by the rule. -/
theorem steps_stepIn (state : State) : Steps token next state (state.stepIn token) := by
  have hcollapse : Closes token.start state (state.collapse .beforeIn token.start) :=
    .collapses (collapses_once state fun _ => isIndent_of_beforeIn)
  have hstack := stack_collapse state .beforeIn token.start
  fun_cases State.stepIn state token with
  | case1 closed hboth =>
    refine ⟨_, .closes (.stops ?_ ?_ hcollapse), follows_refl _ next⟩
    · rw [hstack]
      exact congrArg Delimiter.isIndent hboth.1
    · rw [hstack]
      exact congrArg Delimiter.isIndent hboth.2
  | case2 closed _ hblock =>
    refine ⟨_, .closes (.stop ?_ hcollapse), follows_refl _ next⟩
    rw [hstack]
    exact hblock
  | case3 => exact steps_emitDefault token next (follows_endLabel _ next)

/-- An `of` ends the head of its `case`, and opens a block with a mask over it. -/
theorem steps_stepOf (state : State) : Steps token next state (state.stepOf token next) := by
  have hcollapse : Collapses token.start state (state.collapse .indented token.start) :=
    collapses_once state fun _ => id
  fun_cases State.stepOf state token next with
  | case1 closed hhead =>
    exact ⟨_, .closes (.popMask (congrArg Delimiter.isIndent hhead) (.collapses hcollapse)),
      .openMasked rfl rfl⟩
  | case2 =>
    exact ⟨_, .separate (.collapse (fun _ => isIndent_of_offside) hcollapse),
      (follows_endLabel _ next)⟩

/-- A `then` replaces the mask of the condition by that of the branch. -/
theorem steps_stepThen (state : State) : Steps token next state (state.stepThen token) := by
  fun_cases State.stepThen state token with
  | case1 hhead =>
    exact steps_endMask token next (fun _ => id) hhead rfl (follows_pushMask _ _ rfl next)
  | case2 => exact steps_emitDefault token next (follows_endLabel _ next)

/-- An `else` ends the branch of its `then`, or goes on with a chain of instances, or separates. -/
theorem steps_stepElse (state : State) : Steps token next state (state.stepElse token) := by
  have hcollapse : Collapses token.start state (state.collapse .offside token.start) :=
    collapses_once state fun _ => isIndent_of_offside
  fun_cases State.stepElse state token with
  | case1 hbranch => exact steps_endMask token next (fun _ => id) hbranch rfl (follows_refl _ next)
  | case2 => exact ⟨_, .closes (.collapses hcollapse), follows_refl _ next⟩
  | case3 => exact ⟨_, .separate hcollapse, (follows_endLabel _ next)⟩

/-- An arrow ends a mask behind the blocks that it closes. -/
theorem steps_stepArrow (state : State) : Steps token next state (state.stepArrow token) := by
  have hcollapse : Closes token.start state (state.collapse .beforeArrow token.start) :=
    .collapses (collapses_once state fun _ => isIndent_of_beforeArrow)
  refine ⟨_, .closes (hcollapse.popIf fun delimiter hends => ?_), follows_refl _ next⟩
  simp only [Bool.or_eq_true, beq_iff_eq] at hends
  rcases hends with (rfl | rfl) | rfl <;> rfl

/-- An equals sign ends the mask of a guard behind the blocks that it closes. -/
theorem steps_stepEquals (state : State) : Steps token next state (state.stepEquals token) := by
  fun_cases State.stepEquals state token with
  | case1 hguard =>
    exact steps_endMask token next (fun _ => isIndent_of_beforeEquals) hguard rfl
      (follows_refl _ next)
  | case2 => exact steps_emitDefault token next (follows_refl _ next)

/-- A bar opens the mask of a guard in front of its token. -/
theorem steps_stepPipe (state : State) : Steps token next state (state.stepPipe token) := by
  have hcollapse : Closes token.start state (state.collapse .offsideEnd token.start) :=
    .collapses (collapses_once state fun _ => isIndent_of_offsideEnd)
  fun_cases State.stepPipe state token with
  | case1 | case2 | case3 | case4 =>
    exact ⟨_, .closes (.pushMask rfl hcollapse), follows_refl _ next⟩
  | case5 => exact steps_emitDefault token next (follows_refl _ next)

/-- An operator settles like any other token; what follows it is up to the caller. -/
theorem steps_stepOperator {state after : State}
    (follows : Follows next (state.stepOperator token) after) : Steps token next state after :=
  ⟨_, .separate (collapses_once state fun _ => isIndent_of_offsideEnd), follows⟩

/-- A backquote ends the mask of its section, or opens one behind the token. -/
theorem steps_stepTick (state : State) : Steps token next state (state.stepTick token) := by
  fun_cases State.stepTick state token with
  | case1 htick => exact steps_endMask token next (fun _ => id) htick rfl (follows_refl _ next)
  | case2 => exact steps_stepOperator token next (follows_pushMask _ _ rfl next)

/-- A comma closes the blocks inside its bracket; in a record a mask opens behind it. -/
theorem steps_stepComma (state : State) : Steps token next state (state.stepComma token) := by
  have hcollapse : Closes token.start state (state.collapse .indented token.start) :=
    .collapses (collapses_once state fun _ => id)
  fun_cases State.stepComma state token with
  | case1 => exact ⟨_, .closes hcollapse, follows_pushMask _ _ rfl next⟩
  | case2 => exact ⟨_, .closes hcollapse, follows_refl _ next⟩

theorem steps_stepClose (state : State) {delimiter : Delimiter}
    (hmask : delimiter.isIndent = false) :
    Steps token next state (state.stepClose token delimiter) := by
  have hcollapse : Closes token.start state (state.collapse .indented token.start) :=
    .collapses (collapses_once state fun _ => id)
  exact ⟨_, .closes (hcollapse.popIf (isIndent_of_eq_mask hmask)), follows_refl _ next⟩

/-- A closing brace may end two masks, that of a label and its own. -/
theorem steps_stepCloseBrace (state : State) :
    Steps token next state (state.stepCloseBrace token) := by
  have hcollapse : Closes token.start state (state.collapse .indented token.start) :=
    .collapses (collapses_once state fun _ => id)
  have hlabel : Closes token.start state (state.collapse .indented token.start).endLabel :=
    hcollapse.popIf (isIndent_of_eq_mask rfl)
  exact ⟨_, .closes (hlabel.popIf (isIndent_of_eq_mask rfl)), follows_refl _ next⟩

/-- Whatever the action, a step settles the contexts, emits its token, and opens
what follows. -/
theorem step_settles (state : State) (action : Action) :
    Steps token next state (state.step token next action) := by
  cases action with
  | default | label | declHead | letKeyword | doKeyword | adoKeyword | caseKeyword | ifKeyword
  | forallKeyword | backslash | dot | openParen | openBrace | openSquare =>
    exact steps_emitDefault token next (follows_step token next state rfl)
  | whereKeyword => exact steps_stepWhere token next state
  | inKeyword => exact steps_stepIn token next state
  | ofKeyword => exact steps_stepOf token next state
  | thenKeyword => exact steps_stepThen token next state
  | elseKeyword => exact steps_stepElse token next state
  | arrow => exact steps_stepArrow token next state
  | equals => exact steps_stepEquals token next state
  | pipe => exact steps_stepPipe token next state
  | tick => exact steps_stepTick token next state
  | comma => exact steps_stepComma token next state
  | closeParen => exact steps_stepClose token next state rfl
  | closeBrace => exact steps_stepCloseBrace token next state
  | closeSquare => exact steps_stepClose token next state rfl
  | operator => exact steps_stepOperator token next (follows_refl _ next)

-- ===================================================== what a step writes

/-- Ends and separators at one position have been emitted since. -/
inductive Marked (position : Position) (earlier : List Entry) : List Entry → Prop
  | refl : Marked position earlier earlier
  | stop {emitted : List Entry} (stack : Stack) (marked : Marked position earlier emitted) :
      Marked position earlier (⟨.stop position, stack⟩ :: emitted)
  | sep {emitted : List Entry} (stack : Stack) (marked : Marked position earlier emitted) :
      Marked position earlier (⟨.sep position, stack⟩ :: emitted)

variable {position : Position} {state after : State} {earlier emitted : List Entry}

/-- Ends that are written while frames close are at the position of the token. -/
theorem Marked.collapseFrames (closes : Closing) (frames : List Frame) :
    ∀ {emitted : List Entry}, Marked position earlier emitted →
      Marked position earlier (State.collapseFrames closes position emitted frames).emitted := by
  induction frames with
  | nil => exact fun marked => marked
  | cons frame below ih =>
    intro emitted marked
    unfold State.collapseFrames
    split
    case isFalse => exact marked
    case isTrue =>
      by_cases hblock : frame.isIndent = true
      · rw [if_pos hblock]
        exact ih (.stop _ marked)
      · rw [if_neg hblock]
        exact ih marked

/-- So is a separator. -/
theorem marked_separate (marked : Marked position earlier state.emitted) :
    Marked position earlier (state.separate position).emitted := by
  fun_cases State.separate state position with
  | case1 | case5 => exact marked
  | case2 =>
    refine .sep _ ?_
    rw [State.popAny, emitted_popIf]
    exact marked
  | case3 | case4 => exact .sep _ marked

/-- Closing blocks writes ends at the position and nothing else. -/
theorem marked_collapses (collapses : Collapses position state after) :
    Marked position state.emitted after.emitted := by
  induction collapses with
  | refl => exact .refl
  | collapse _ _ ih => exact ih.collapseFrames _ _

/-- Closing contexts writes ends at the position and nothing else. -/
theorem marked_closes (closes : Closes position state after) :
    Marked position state.emitted after.emitted := by
  have hpop : ∀ after : State, after.popAny.emitted = after.emitted :=
    fun after => emitted_popIf after _
  induction closes with
  | collapses collapses => exact marked_collapses collapses
  | popMask _ _ ih => rwa [hpop]
  | pushMask _ _ ih => exact ih
  | stop _ _ ih =>
    refine .stop _ ?_
    rwa [hpop]
  | stops _ _ _ ih =>
    refine .stop _ (.stop _ ?_)
    rwa [hpop, hpop]

/-- In front of the token stand ends and separators at its place. -/
theorem marked_settles (settles : Settles position state after) :
    Marked position state.emitted after.emitted := by
  cases settles with
  | closes closes => exact marked_closes closes
  | separate collapses => exact marked_separate (marked_collapses collapses)

/-- At the end of the text stand the ends of what is open. -/
theorem marked_unwind (state : State) (eof : Position) :
    Marked eof state.emitted (state.unwind eof).emitted :=
  Marked.refl.collapseFrames _ _

theorem emitted_masks (masks : Masks state after) : after.emitted = state.emitted := by
  induction masks with
  | refl => rfl
  | pop _ _ ih => exact (emitted_popIf _ _).trans ih
  | push _ _ _ ih => exact ih

/-- Behind the token stands nothing, or the start of one block. -/
theorem emitted_follows {next : Position} (follows : Follows next state after) :
    after.emitted = state.emitted
      ∨ ∃ stack, after.emitted = ⟨.start next, stack⟩ :: state.emitted := by
  have hopen : ∀ delimiter, (state.openBlock delimiter next).emitted = state.emitted
      ∨ ∃ stack, (state.openBlock delimiter next).emitted
        = ⟨.start next, stack⟩ :: state.emitted := by
    intro delimiter
    rcases openBlock_cases state delimiter next with hsame | hopen
    · exact .inl (congrArg State.emitted hsame)
    · exact .inr ⟨_, congrArg State.emitted hopen⟩
  cases follows with
  | masks masks => exact .inl (emitted_masks masks)
  | openBlock => exact hopen _
  | openMasked => exact hopen _

/-- What a step writes: ends and separators at the place of the token, the token, and
the start of a block at the next token or nothing. -/
theorem emitted_step (state : State) (action : Action) :
    ∃ settled stack opened, Marked token.start state.emitted settled
      ∧ (state.step token next action).emitted = opened ++ ⟨.raw token, stack⟩ :: settled
      ∧ (opened = [] ∨ ∃ stack, opened = [⟨.start next, stack⟩]) := by
  obtain ⟨settled, hsettles, hfollows⟩ := step_settles token next state action
  rcases emitted_follows hfollows with hsame | ⟨stack, hopen⟩
  · exact ⟨_, settled.stack, [], marked_settles hsettles, hsame, .inl rfl⟩
  · exact ⟨_, settled.stack, [_], marked_settles hsettles, hopen, .inr ⟨stack, rfl⟩⟩

-- ================================================================ the run

theorem nextStart_of_trivia {token : Token} (h : token.isTrivia = true) (rest : List Token)
    (eof : Position) : nextStart (token :: rest) eof = nextStart rest eof := by
  unfold nextStart
  rw [List.find?_cons_of_neg (by rw [h]; exact Bool.false_ne_true)]

theorem nextStart_of_significant {token : Token} (h : token.isTrivia = false)
    (rest : List Token) (eof : Position) : nextStart (token :: rest) eof = token.start := by
  unfold nextStart
  rw [List.find?_cons_of_pos (by rw [h]; rfl)]
  rfl

/-- In front of more tokens the search goes on with them. -/
theorem nextStart_append (before rest : List Token) (eof : Position) :
    nextStart (before ++ rest) eof = nextStart before (nextStart rest eof) := by
  unfold nextStart
  rw [List.find?_append]
  cases before.find? fun token => !token.isTrivia with
  | none => rfl
  | some token => rfl

/-- The pass over two stretches of a text, one behind the other. -/
theorem run_append (rules : Rules) (eof : Position) (before rest : List Token) : ∀ state : State,
    state.run rules eof (before ++ rest)
      = (state.run rules (nextStart rest eof) before).run rules eof rest := by
  induction before with
  | nil => exact fun _ => rfl
  | cons token before ih =>
    intro state
    rw [List.cons_append, run, run, nextStart_append]
    split
    · exact ih _
    · exact ih _

/-- One move of the pass: trivia, or a significant token with the place where the
blocks that it opens start and the action of its kind. -/
inductive Move
  | trivia (token : Token)
  | fold (token : Token) (next : Position) (action : Action)

/-- Makes a move. -/
def move (state : State) : Move → State
  | .trivia token => state.emitTrivia token
  | .fold token next action => state.step token next action

/-- The state after some moves from the start. -/
def afterMoves (moves : List Move) : State := moves.foldl move initial

/-- The moves that the pass makes over the tokens of a text. -/
def movesOf (rules : Rules) (eof : Position) : List Token → List Move
  | [] => []
  | token :: rest =>
    (if token.isTrivia then .trivia token
      else .fold token (nextStart rest eof) (rules.action token.kind)) :: movesOf rules eof rest

/-- The pass over a text is its moves, one after the other. -/
theorem run_eq_foldl (rules : Rules) (eof : Position) (tokens : List Token) :
    ∀ state : State, state.run rules eof tokens = (movesOf rules eof tokens).foldl move state := by
  induction tokens with
  | nil => exact fun _ => rfl
  | cons token rest ih =>
    intro state
    unfold run movesOf
    rw [List.foldl_cons]
    split
    · exact ih _
    · exact ih _

end State

end Offside.Layout
