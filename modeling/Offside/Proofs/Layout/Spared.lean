import Offside.Proofs.Layout.Moves

/-!
Tokens that leave a block of the module open.

A bracket that is never closed is in the way of every separator behind it. Most tokens
do no such harm: their actions open no mask, and close blocks by column only
(`Action.spares`). `Spared.step` goes over these actions once. Nothing but plain
contexts is then ever open inside the block, however little sense the tokens make in
a row: a token that would end a mask, such as a `then` or an equals sign, finds none.
-/

namespace Offside

/-- Whether the context is a declaration, or a block whose items have no binders. -/
def Delimiter.isPlain : Delimiter → Bool
  | .topDecl | .topDeclHead | .letBlock | .letStmt | .whereBlock | .doBlock | .adoBlock => true
  | _ => false

namespace Layout

/-- Whether a token at `position` with the action opens no mask and leaves the `where`
block that starts at `block` open. -/
def Action.spares (action : Action) (block position : Position) : Bool :=
  match action with
  | .default | .label | .declHead | .inKeyword | .letKeyword | .doKeyword | .adoKeyword
  | .thenKeyword | .elseKeyword | .equals => block.column ≤ position.column
  | .whereKeyword | .arrow | .operator => block.column < position.column
  | _ => false

/-- The `where` block that starts at `start` is the outermost context, and what is open
inside it is plain. -/
def Stack.Spared (stack : Stack) (start : Position) : Prop :=
  ∃ inner, stack.frames = inner ++ [⟨.whereBlock, start⟩]
    ∧ ∀ frame ∈ inner, frame.delimiter.isPlain = true

namespace Stack.Spared

variable {state : State} {start position : Position} {closes : Closing}

/-- If contexts are closed from the top, either all of them are, or the block stays. -/
theorem dropWhile {stack : Stack} (h : stack.Spared start) (p : Frame → Bool) :
    (stack.frames.dropWhile p = [] ∧ p ⟨.whereBlock, start⟩ = true)
      ∨ Stack.Spared ⟨stack.frames.dropWhile p⟩ start := by
  obtain ⟨inner, hframes, hplain⟩ := h
  rw [hframes, List.dropWhile_append]
  split
  case isTrue =>
    rw [List.dropWhile_cons]
    split
    case isTrue hp => exact .inl ⟨rfl, hp⟩
    case isFalse => exact .inr ⟨[], rfl, nofun⟩
  case isFalse =>
    exact .inr ⟨_, rfl, fun frame hmem => hplain frame (List.dropWhile_subset p hmem)⟩

/-- The innermost context is plain: the block itself, or one open inside it. -/
theorem isPlain_delimiter {stack : Stack} (h : stack.Spared start) :
    stack.delimiter.isPlain = true := by
  obtain ⟨frames⟩ := stack
  obtain ⟨inner, rfl, hplain⟩ := h
  cases inner with
  | nil => rfl
  | cons frame inner => exact hplain frame List.mem_cons_self

/-- A token that ends a mask finds none. -/
theorem collapsed_ne (h : state.stack.Spared start) {mask : Delimiter}
    (hmask : mask.isPlain = false) (hroot : mask ≠ .root) :
    (state.collapsed closes position).delimiter ≠ mask := by
  intro hfound
  rcases h.dropWhile (closes position) with ⟨hnil, -⟩ | hspared
  · unfold State.collapsed at hfound
    rw [hnil] at hfound
    exact hroot hfound.symm
  · have hplain : (state.collapsed closes position).delimiter.isPlain = true :=
      isPlain_delimiter hspared
    rw [hfound, hmask] at hplain
    cases hplain

/-- What closes is not on top of what is left. -/
theorem top_collapsed_ne {frame : Frame} (hcloses : closes position frame = true)
    (hroot : frame ≠ .root) : (state.collapsed closes position).top ≠ frame := by
  have hopen := List.head?_dropWhile_not (closes position) state.stack.frames
  unfold State.collapsed Stack.top
  cases hframes : state.stack.frames.dropWhile (closes position) with
  | nil => exact hroot.symm
  | cons first below =>
    rintro rfl
    rw [hframes] at hopen
    exact Bool.false_ne_true (hopen.symm.trans hcloses)

/-- The block stays if the rule does not close it. -/
theorem collapse (h : state.stack.Spared start)
    (hkeeps : closes position ⟨.whereBlock, start⟩ = false) :
    (state.collapse closes position).stack.Spared start := by
  rw [State.stack_collapse]
  rcases h.dropWhile (closes position) with ⟨-, hcloses⟩ | hspared
  · cases hkeeps.symm.trans hcloses
  · exact hspared

/-- The block stays if the pop would not take it from the top. -/
theorem popIf (h : state.stack.Spared start) {p : Delimiter → Bool}
    (hkeeps : p .whereBlock = true → state.stack.top ≠ ⟨.whereBlock, start⟩) :
    (state.popIf p).stack.Spared start := by
  rcases State.popIf_cases state p with hsame | ⟨frame, below, hframes, hp, hpop⟩
  · rw [hsame]
    exact h
  · obtain ⟨inner, hinner, hplain⟩ := h
    rw [hpop]
    cases inner with
    | nil =>
      obtain ⟨rfl, -⟩ := List.cons.inj (hframes.symm.trans hinner)
      exact absurd (by rw [Stack.top, hinner]; rfl) (hkeeps hp)
    | cons first inner =>
      obtain ⟨-, hbelow⟩ := List.cons.inj (hframes.symm.trans hinner)
      exact ⟨inner, hbelow, fun frame hmem => hplain frame (List.mem_cons_of_mem _ hmem)⟩

theorem popAny (h : state.stack.Spared start) (htop : state.stack.top ≠ ⟨.whereBlock, start⟩) :
    state.popAny.stack.Spared start := h.popIf fun _ => htop

theorem endLabel (h : state.stack.Spared start) : state.endLabel.stack.Spared start :=
  h.popIf nofun

theorem emit (h : state.stack.Spared start) (token : LayoutToken) :
    (state.emit token).stack.Spared start := h

theorem emitTrivia (h : state.stack.Spared start) (token : Token) :
    (state.emitTrivia token).stack.Spared start := h

/-- What is opened inside the block has to be plain. -/
theorem push (h : state.stack.Spared start) {delimiter : Delimiter}
    (hplain : delimiter.isPlain = true) (place : Position) :
    (state.push delimiter place).stack.Spared start := by
  obtain ⟨inner, hframes, hinner⟩ := h
  refine ⟨⟨delimiter, place⟩ :: inner, congrArg (_ :: ·) hframes, fun frame hmem => ?_⟩
  rcases List.mem_cons.mp hmem with rfl | hmem
  · exact hplain
  · exact hinner frame hmem

/-- So has a block that is opened. -/
theorem openBlock (h : state.stack.Spared start) {delimiter : Delimiter}
    (hplain : delimiter.isPlain = true) (next : Position) :
    (state.openBlock delimiter next).stack.Spared start := by
  rcases State.openBlock_cases state delimiter next with hsame | hopen
  · rw [hsame]
    exact h
  · rw [hopen]
    exact h.push hplain next

/-- A separator ends a declaration inside the block, at most. -/
theorem separate (h : state.stack.Spared start) :
    (state.separate position).stack.Spared start := by
  fun_cases State.separate state position with
  | case1 | case4 | case5 => exact h
  | case2 top _ hdecl =>
    refine h.popAny fun htop => ?_
    have hblock : top.delimiter = .whereBlock := congrArg Frame.delimiter htop
    rw [hblock] at hdecl
    rcases hdecl with hdecl | hdecl <;> cases hdecl
  | case3 top _ _ hof =>
    have hplain := h.isPlain_delimiter
    rw [show state.stack.delimiter = _ from hof] at hplain
    cases hplain

variable {token : Token}

/-- A token that is not left of the block leaves it open. -/
theorem offside_eq_false (hcolumn : start.column ≤ token.start.column) :
    Closing.offside token.start ⟨.whereBlock, start⟩ = false := by
  unfold Closing.offside
  rw [decide_eq_false (Nat.not_lt.mpr hcolumn), Bool.and_false]

/-- The common case keeps the block, for a token that is not left of it. -/
theorem emitDefault (h : state.stack.Spared start) (hcolumn : start.column ≤ token.start.column) :
    (state.emitDefault token).stack.Spared start :=
  separate (h.collapse (offside_eq_false hcolumn))

/-- A reserved word keeps the block if what follows it does. -/
theorem emitKeyword (h : state.stack.Spared start) (hcolumn : start.column ≤ token.start.column)
    {opens : State → State} (hopens : ∀ emitted : State, emitted.stack.Spared start →
      (opens emitted).stack.Spared start) :
    (state.emitKeyword token opens).stack.Spared start := by
  unfold State.emitKeyword
  split
  case isTrue hlabel =>
    have hplain := h.isPlain_delimiter
    rw [hlabel] at hplain
    cases hplain
  case isFalse => exact hopens _ (h.emitDefault hcolumn)

/-- The declaration that may open behind the token is plain. -/
theorem stepDefault (h : state.stack.Spared start) (hcolumn : start.column ≤ token.start.column) :
    (state.stepDefault token).stack.Spared start := by
  have hemitted := h.emitDefault hcolumn
  fun_cases State.stepDefault state token with
  | case1 => exact hemitted.push rfl token.start
  | case2 => exact hemitted

/-- So is the context of a head. -/
theorem stepHead (h : state.stack.Spared start) (hcolumn : start.column ≤ token.start.column)
    {delimiter : Delimiter} (hplain : delimiter.isPlain = true) :
    (state.stepHead token delimiter).stack.Spared start := by
  have hemitted := h.emitDefault hcolumn
  fun_cases State.stepHead state token delimiter with
  | case1 => exact hemitted.push hplain token.start
  | case2 => exact hemitted.endLabel

/-- A `where` right of the block does not close it, and the block that it opens is plain. -/
theorem stepWhere (h : state.stack.Spared start) (hcolumn : start.column < token.start.column)
    (next : Position) : (state.stepWhere token next).stack.Spared start := by
  have htop : ∀ {delimiter : Delimiter}, state.stack.delimiter = delimiter →
      delimiter ≠ .whereBlock → state.stack.top ≠ ⟨.whereBlock, start⟩ :=
    fun hdelimiter hne htop => hne (hdelimiter.symm.trans (congrArg Frame.delimiter htop))
  fun_cases State.stepWhere state token next with
  | case1 hhead =>
    exact ((h.popAny (htop hhead (by decide))).emit (.raw token)).openBlock rfl next
  | case2 hlabel => exact h.popAny (htop hlabel (by decide))
  | case3 =>
    have hclosed : (state.collapse .beforeWhere token.start).stack.Spared start := by
      refine h.collapse ?_
      simp [Closing.beforeWhere, Closing.offsideEnd, Nat.not_le.mpr hcolumn]
    exact (emit hclosed (.raw token)).openBlock rfl next

theorem stepLet (h : state.stack.Spared start) (hcolumn : start.column ≤ token.start.column)
    (next : Position) : (state.stepLet token next).stack.Spared start := by
  refine h.emitKeyword hcolumn fun emitted hemitted => hemitted.openBlock ?_ next
  split <;> rfl

/-- `in` closes a `where` block only to reach the block that it ends. -/
theorem stepIn (h : state.stack.Spared start) (hcolumn : start.column ≤ token.start.column) :
    (state.stepIn token).stack.Spared start := by
  have hstack := State.stack_collapse state .beforeIn token.start
  -- the contexts inside the block close, unless there is none to stop at and all of them do
  have hclosed : (state.collapsed .beforeIn token.start).top ≠ .root →
      (state.collapse .beforeIn token.start).stack.Spared start := by
    intro hroot
    rw [hstack]
    refine (h.dropWhile (Closing.beforeIn token.start)).resolve_left fun hall => hroot ?_
    unfold State.collapsed Stack.top
    rw [hall.1]
    rfl
  have hpop : ∀ state : State, state.popAny.stack = state.stack.pop := by
    rintro ⟨⟨_ | ⟨frame, below⟩⟩, emitted⟩ <;> rfl
  fun_cases State.stepIn state token with
  | case1 closed hboth =>
    have hinner : (state.collapse .beforeIn token.start).popAny.stack.Spared start := by
      refine (hclosed fun hroot => ?_).popAny fun htop => ?_
      · cases hboth.1.symm.trans (congrArg Frame.delimiter hroot)
      · rw [hstack] at htop
        cases hboth.1.symm.trans (congrArg Frame.delimiter htop)
    refine hinner.popAny fun htop => ?_
    rw [hpop, hstack] at htop
    cases hboth.2.symm.trans (congrArg Frame.delimiter htop)
  | case2 closed _ hblock =>
    refine (hclosed fun hroot => ?_).popAny fun htop => ?_
    · rw [show closed.top = .root from hroot] at hblock
      cases hblock
    · have hopen : closed.top ≠ ⟨.whereBlock, start⟩ := by
        refine top_collapsed_ne rfl fun hroot => ?_
        cases congrArg Frame.delimiter hroot
      rw [hstack] at htop
      exact hopen htop
  | case3 => exact (h.emitDefault hcolumn).endLabel

theorem stepThen (h : state.stack.Spared start) (hcolumn : start.column ≤ token.start.column) :
    (state.stepThen token).stack.Spared start := by
  fun_cases State.stepThen state token with
  | case1 hhead => exact absurd hhead (h.collapsed_ne rfl (by decide))
  | case2 => exact (h.emitDefault hcolumn).endLabel

/-- An `else` finds no branch to end. -/
theorem stepElse (h : state.stack.Spared start) (hcolumn : start.column ≤ token.start.column) :
    (state.stepElse token).stack.Spared start := by
  have hclosed : (state.collapse .offside token.start).stack.Spared start :=
    h.collapse (offside_eq_false hcolumn)
  fun_cases State.stepElse state token with
  | case1 hbranch => exact absurd hbranch (h.collapsed_ne rfl (by decide))
  | case2 => exact hclosed
  | case3 =>
    exact (emit (separate hclosed) (.raw token)).endLabel

/-- An arrow right of the block does not close it, and finds no binders to end. -/
theorem stepArrow (h : state.stack.Spared start) (hcolumn : start.column < token.start.column) :
    (state.stepArrow token).stack.Spared start := by
  refine popIf (h.collapse ?_) nofun
  simp [Closing.beforeArrow, Closing.offsideEnd, Nat.not_le.mpr hcolumn]

theorem stepEquals (h : state.stack.Spared start) (hcolumn : start.column ≤ token.start.column) :
    (state.stepEquals token).stack.Spared start := by
  fun_cases State.stepEquals state token with
  | case1 hguard => exact absurd hguard (h.collapsed_ne rfl (by decide))
  | case2 => exact h.emitDefault hcolumn

theorem stepOperator (h : state.stack.Spared start) (hcolumn : start.column < token.start.column) :
    (state.stepOperator token).stack.Spared start := by
  refine separate (h.collapse ?_)
  simp [Closing.offsideEnd, Nat.not_le.mpr hcolumn]

/-- A token that spares the block leaves it open, and opens nothing in it that is not
plain. -/
theorem step (h : state.stack.Spared start) (token : Token) (next : Position) {action : Action}
    (hspares : action.spares start token.start = true) :
    (state.step token next action).stack.Spared start := by
  cases action with
  | default => exact h.stepDefault (of_decide_eq_true hspares)
  | label => exact h.stepHead (of_decide_eq_true hspares) rfl
  | declHead => exact h.stepHead (of_decide_eq_true hspares) rfl
  | whereKeyword => exact h.stepWhere (of_decide_eq_true hspares) next
  | inKeyword => exact h.stepIn (of_decide_eq_true hspares)
  | letKeyword => exact h.stepLet (of_decide_eq_true hspares) next
  | doKeyword =>
    exact h.emitKeyword (of_decide_eq_true hspares) fun _ hemitted => hemitted.openBlock rfl next
  | adoKeyword =>
    exact h.emitKeyword (of_decide_eq_true hspares) fun _ hemitted => hemitted.openBlock rfl next
  | thenKeyword => exact h.stepThen (of_decide_eq_true hspares)
  | elseKeyword => exact h.stepElse (of_decide_eq_true hspares)
  | arrow => exact h.stepArrow (of_decide_eq_true hspares)
  | equals => exact h.stepEquals (of_decide_eq_true hspares)
  | operator => exact h.stepOperator (of_decide_eq_true hspares)
  | _ => cases hspares

end Stack.Spared

-- ================================================================ the run

/-- The block stays open over a row of such tokens. -/
theorem Stack.Spared.run (rules : Rules) (eof : Position) {start : Position} {tokens : List Token}
    (hspares : ∀ token ∈ tokens, token.isTrivia = false →
      (rules.action token.kind).spares start token.start = true) :
    ∀ {state : State}, state.stack.Spared start →
      (state.run rules eof tokens).stack.Spared start := by
  induction tokens with
  | nil => exact fun h => h
  | cons token rest ih =>
    intro state h
    have hlater := fun token hmem => hspares token (List.mem_cons_of_mem _ hmem)
    unfold State.run
    split
    case isTrue => exact ih hlater (h.emitTrivia token)
    case isFalse htrivia =>
      exact ih hlater (h.step token _
        (hspares token List.mem_cons_self (Bool.eq_false_iff.mpr htrivia)))

end Layout

end Offside
