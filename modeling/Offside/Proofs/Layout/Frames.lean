import Offside.Proofs.Layout.Moves
import Offside.Proofs.Token.Reading

/-!
What a step of the layout pass does to the open contexts, said once.

`step_settles` says what a step writes. This is the other half: which contexts it
opens, and over which others (`Frame.MayOpen`). Contexts close from the top, whatever
opens finds below it what its kind asks for, and what is emitted is recorded under the
contexts of the moment. `revises_step` is the case analysis over the actions; `Restacks`
is what it says of the contexts alone.

# What this gives

Two invariants of the stack, each from `Restacks` by a short induction. Every open
context may be open over those below it (`Nested`), so that the columns of the
blocks increase from the root to the top, and the frame of a declaration stands
alone over the block of the module. And while a text is laid out, the frame of a
declaration stands where some earlier token starts (`DeclaresBefore`).
-/

namespace Offside

/-- Whether the context is a declaration of the module. -/
def Delimiter.isDeclaration : Delimiter → Bool
  | .topDecl | .topDeclHead => true
  | _ => false

/-- A declaration of the module is open with or without a pending head. -/
theorem Delimiter.eq_of_isDeclaration {delimiter : Delimiter}
    (h : delimiter.isDeclaration = true) : delimiter = .topDecl ∨ delimiter = .topDeclHead := by
  cases delimiter with
  | topDecl => exact .inl rfl
  | topDeclHead => exact .inr rfl
  | _ => cases h

namespace Layout

/-- The frame of a declaration is a mask. -/
theorem isIndent_of_isDeclaration {frame : Frame} (h : frame.delimiter.isDeclaration = true) :
    frame.isIndent = false := by
  unfold Frame.isIndent
  rcases Delimiter.eq_of_isDeclaration h with hdecl | hdecl
  · rw [hdecl]
    rfl
  · rw [hdecl]
    rfl

-- ================================================= what may stand over what

/-- The position lies right of the innermost block, if there is one. -/
def Stack.LiesLeftOf (stack : Stack) (position : Position) : Prop :=
  ∀ block, stack.innermostBlock? = some block → block.position.column < position.column

/-- The context may be opened over the contexts `below`. A block lies right of the block
around it; some contexts need a particular one directly below them. -/
def Frame.MayOpen (frame : Frame) (below : Stack) : Prop :=
  match frame.delimiter with
  | .root => False
  | .topDecl | .topDeclHead => below.startsTopDecl frame.position = true
  | .letStmt => below.LiesLeftOf frame.position
      ∧ (below.delimiter = .doBlock ∨ below.delimiter = .adoBlock)
  | .letBlock | .whereBlock | .ofBlock | .doBlock | .adoBlock => below.LiesLeftOf frame.position
  | .caseGuard => below.delimiter = .ofBlock
  | .declGuard => below.delimiter = .letBlock ∨ below.delimiter = .letStmt
      ∨ below.delimiter = .whereBlock
  | _ => True

/-- A block that may be opened lies right of the innermost block below it. -/
theorem Frame.MayOpen.liesLeftOf {frame : Frame} {below : Stack} (h : frame.MayOpen below)
    (hblock : frame.isIndent = true) : below.LiesLeftOf frame.position := by
  obtain ⟨delimiter, position⟩ := frame
  cases delimiter with
  | letStmt => exact h.1
  | letBlock | whereBlock | ofBlock | doBlock | adoBlock => exact h
  | _ => cases hblock

/-- A declaration may only be opened over the block of the module, in its column. -/
theorem Frame.MayOpen.startsTopDecl {frame : Frame} {below : Stack} (h : frame.MayOpen below)
    (hdecl : frame.delimiter.isDeclaration = true) :
    below.startsTopDecl frame.position = true := by
  obtain ⟨delimiter, position⟩ := frame
  cases delimiter with
  | topDecl | topDeclHead => exact h
  | _ => cases hdecl

/-- A declaration starts over a single context, a `where` block in its column. -/
theorem Stack.eq_of_startsTopDecl {stack : Stack} {position : Position}
    (h : stack.startsTopDecl position = true) :
    ∃ block, stack.frames = [block] ∧ block.delimiter = .whereBlock
      ∧ block.position.column = position.column := by
  unfold Stack.startsTopDecl at h
  split at h
  case h_1 block hframes =>
    obtain ⟨hwhere, hcolumn⟩ := Bool.and_eq_true_iff.mp h
    exact ⟨block, hframes, beq_iff_eq.mp hwhere, beq_iff_eq.mp hcolumn⟩
  case h_2 => cases h

-- ================================================= the moves on the stack

/-- The open contexts change at a token. Some close, from the top, and some open that may
be opened; a declaration opens where the token starts. -/
inductive Restacks (position : Position) (before : Stack) : Stack → Prop
  | refl : Restacks position before before
  | pop {after : Stack} (restacks : Restacks position before after) :
      Restacks position before after.pop
  | push {after : Stack} {frame : Frame} (mayOpen : frame.MayOpen after)
      (here : frame.delimiter.isDeclaration = true → frame.position = position)
      (restacks : Restacks position before after) :
      Restacks position before ⟨frame :: after.frames⟩

/-- The state changes at a token: some contexts close, from the top, some open that may be
opened, and tokens are emitted, each recorded under the contexts of that moment. -/
inductive Revises (position : Position) (before : State) : State → Prop
  | refl : Revises position before before
  | pop {after : State} (revises : Revises position before after) :
      Revises position before { after with stack := after.stack.pop }
  | push {after : State} {frame : Frame} (mayOpen : frame.MayOpen after.stack)
      (here : frame.delimiter.isDeclaration = true → frame.position = position)
      (revises : Revises position before after) :
      Revises position before { after with stack := ⟨frame :: after.stack.frames⟩ }
  | emit {after : State} (token : LayoutToken) (revises : Revises position before after) :
      Revises position before (after.emit token)

namespace Revises

variable {position : Position} {before state : State}

/-- Of the contexts alone. -/
theorem restacks (revises : Revises position before state) :
    Restacks position before.stack state.stack := by
  induction revises with
  | refl => exact .refl
  | pop _ ih => exact .pop ih
  | push mayOpen here _ ih => exact .push mayOpen here ih
  | emit _ _ ih => exact ih

/-- Frames close one after the other; the end of a block is recorded when its frame is gone. -/
theorem collapseFrames (closes : Closing) (place : Position) (frames : List Frame) :
    ∀ {emitted : List Entry}, Revises position before ⟨⟨frames⟩, emitted⟩ →
      Revises position before (State.collapseFrames closes place emitted frames) := by
  induction frames with
  | nil => exact id
  | cons frame below ih =>
    intro emitted h
    have hpopped : Revises position before ⟨⟨below⟩, emitted⟩ := h.pop
    unfold State.collapseFrames
    split
    case isFalse => exact h
    case isTrue =>
      by_cases hblock : frame.isIndent = true
      · rw [if_pos hblock]
        exact ih (hpopped.emit (.stop place))
      · rw [if_neg hblock]
        exact ih hpopped

theorem collapse (h : Revises position before state) (closes : Closing)
    (place : Position) : Revises position before (state.collapse closes place) :=
  collapseFrames closes place state.stack.frames h

/-- A conditional pop is a pop, or nothing. -/
theorem popIf (h : Revises position before state) (p : Delimiter → Bool) :
    Revises position before (state.popIf p) := by
  rcases State.popIf_cases state p with hsame | ⟨frame, below, hframes, _, hpop⟩
  · rw [hsame]
    exact h
  · have hbelow : state.stack.pop = ⟨below⟩ := by rw [Stack.pop, hframes, List.tail_cons]
    rw [hpop, ← hbelow]
    exact h.pop

theorem popAny (h : Revises position before state) :
    Revises position before state.popAny := h.popIf _

/-- A mask that may stand anywhere. -/
theorem mask (h : Revises position before state) {delimiter : Delimiter}
    {place : Position} (hmay : Frame.MayOpen ⟨delimiter, place⟩ state.stack)
    (hmask : delimiter.isDeclaration = false) :
    Revises position before (state.push delimiter place) :=
  .push hmay (fun hdecl => by rw [hmask] at hdecl; cases hdecl) h

/-- A separator may end the declaration in front of it, or open the binders of a branch. -/
theorem separate (h : Revises position before state) (place : Position) :
    Revises position before (state.separate place) := by
  fun_cases State.separate state place with
  | case1 | case5 => exact h
  | case2 => exact h.popAny.emit (.sep place)
  | case3 => exact (h.emit (.sep place)).mask trivial rfl
  | case4 => exact h.emit (.sep place)

theorem emitDefault (h : Revises position before state) (token : Token) :
    Revises position before (state.emitDefault token) :=
  ((h.collapse .offside token.start).separate token.start).emit (.raw token)

/-- A block that opens does so right of the block around it. -/
theorem openBlock (h : Revises position before state) {delimiter : Delimiter}
    {next : Position}
    (hmay : state.stack.LiesLeftOf next → Frame.MayOpen ⟨delimiter, next⟩ state.stack)
    (hblock : delimiter.isDeclaration = false) :
    Revises position before (state.openBlock delimiter next) := by
  fun_cases State.openBlock state delimiter next with
  | case1 opens hopens =>
    refine (h.mask (hmay fun block hinner => ?_) hblock).emit (.start next)
    simp only [opens, hinner] at hopens
    exact of_decide_eq_true hopens
  | case2 => exact h

/-- A reserved word stands for what follows it, unless it is a plain label. -/
theorem emitKeyword (h : Revises position before state) (token : Token)
    {opens : State → State}
    (hopens : ∀ emitted : State, Revises position before emitted →
      Revises position before (opens emitted)) :
    Revises position before (state.emitKeyword token opens) := by
  unfold State.emitKeyword
  split
  · exact (h.emitDefault token).popAny
  · exact hopens _ (h.emitDefault token)

/-- A keyword that opens a mask, which may stand anywhere. -/
theorem emitKeyword_mask (h : Revises position before state) (token : Token)
    {delimiter : Delimiter} {place : Position}
    (hmay : ∀ stack, Frame.MayOpen ⟨delimiter, place⟩ stack)
    (hmask : delimiter.isDeclaration = false) :
    Revises position before (state.emitKeyword token (·.push delimiter place)) :=
  h.emitKeyword token fun emitted hemitted => hemitted.mask (hmay emitted.stack) hmask

end Revises

namespace State

-- ========================================================== the actions

variable (state : State) (token : Token) (next : Position)

theorem revises_emitDefault : Revises token.start state (state.emitDefault token) :=
  Revises.refl.emitDefault token

/-- Behind the token a declaration may open, at the token itself. -/
theorem revises_stepDefault : Revises token.start state (state.stepDefault token) := by
  have hemitted := revises_emitDefault state token
  fun_cases State.stepDefault state token with
  | case1 emitted hstarts => exact .push hstarts (fun _ => rfl) hemitted
  | case2 => exact hemitted

/-- The context of a head opens only where a declaration may start; elsewhere a label ends. -/
theorem revises_stepHead {delimiter : Delimiter} (hdecl : delimiter.isDeclaration = true) :
    Revises token.start state (state.stepHead token delimiter) := by
  have hemitted := revises_emitDefault state token
  fun_cases State.stepHead state token delimiter with
  | case1 emitted hstarts =>
    refine .push ?_ (fun _ => rfl) hemitted
    rcases Delimiter.eq_of_isDeclaration hdecl with rfl | rfl
    · exact hstarts
    · exact hstarts
  | case2 => exact hemitted.popIf _

/-- The block of a `where` opens at the next token, right of what it lies in. -/
theorem revises_stepWhere :
    Revises token.start state (state.stepWhere token next) := by
  have hsame : Revises token.start state state := .refl
  fun_cases State.stepWhere state token next with
  | case1 =>
    exact (hsame.popAny.emit (.raw token)).openBlock id rfl
  | case2 => exact hsame.popAny.emit (.raw token)
  | case3 =>
    exact ((hsame.collapse .beforeWhere token.start).emit (.raw token)).openBlock id rfl

/-- An `in` closes one block, or the `let` and the `ado` around it, and opens nothing. -/
theorem revises_stepIn : Revises token.start state (state.stepIn token) := by
  have hclosed : Revises token.start state (state.collapse .beforeIn token.start) :=
    Revises.refl.collapse _ _
  fun_cases State.stepIn state token with
  | case1 =>
    have hended : Revises token.start state
        ((state.collapse .beforeIn token.start).popAny.popAny.emitStop token.start) :=
      hclosed.popAny.popAny.emit (.stop token.start)
    exact (hended.emit (.stop token.start)).emit (.raw token)
  | case2 => exact (hclosed.popAny.emit (.stop token.start)).emit (.raw token)
  | case3 => exact (revises_emitDefault state token).popIf _

/-- The statements of a `let` open over a `do` or an `ado` block, in its column. -/
theorem revises_stepLet : Revises token.start state (state.stepLet token next) := by
  refine Revises.refl.emitKeyword token fun emitted hemitted => ?_
  dsimp only
  split
  case isTrue hstatement =>
    refine hemitted.openBlock (fun hright => ⟨hright, ?_⟩) rfl
    simp only [Bool.and_eq_true, Bool.or_eq_true, beq_iff_eq] at hstatement
    exact hstatement.1
  case isFalse => exact hemitted.openBlock id rfl

/-- The binders of the first branch open over the block of an `of`. -/
theorem revises_stepOf : Revises token.start state (state.stepOf token next) := by
  have hclosed : Revises token.start state (state.collapse .indented token.start) :=
    Revises.refl.collapse _ _
  fun_cases State.stepOf state token next with
  | case1 closed =>
    have hopened : Revises token.start state
        ((closed.popAny.emit (.raw token)).openBlock .ofBlock next) :=
      (hclosed.popAny.emit (.raw token)).openBlock id rfl
    exact hopened.mask trivial rfl
  | case2 => exact (hclosed.emitDefault token).popIf _

/-- The branch of a `then` opens where the head of its `if` was. -/
theorem revises_stepThen : Revises token.start state (state.stepThen token) := by
  have hclosed : Revises token.start state (state.collapse .indented token.start) :=
    Revises.refl.collapse _ _
  fun_cases State.stepThen state token with
  | case1 => exact (hclosed.popAny.emit (.raw token)).mask trivial rfl
  | case2 => exact (revises_emitDefault state token).popIf _

/-- An `else` only closes contexts. -/
theorem revises_stepElse : Revises token.start state (state.stepElse token) := by
  have hsame : Revises token.start state state := .refl
  fun_cases State.stepElse state token with
  | case1 => exact (hsame.collapse .indented token.start).popAny.emit (.raw token)
  | case2 => exact (hsame.collapse .offside token.start).emit (.raw token)
  | case3 =>
    exact (((hsame.collapse .offside token.start).separate token.start).emit (.raw token)).popIf _

theorem revises_stepArrow : Revises token.start state (state.stepArrow token) :=
  ((Revises.refl.collapse .beforeArrow token.start).popIf _).emit (.raw token)

theorem revises_stepEquals : Revises token.start state (state.stepEquals token) := by
  fun_cases State.stepEquals state token with
  | case1 => exact (Revises.refl.collapse .beforeEquals token.start).popAny.emit (.raw token)
  | case2 => exact revises_emitDefault state token

/-- A guard opens over the block of the branch or the local declaration that it is a guard of. -/
theorem revises_stepPipe : Revises token.start state (state.stepPipe token) := by
  have hclosed : Revises token.start state (state.collapse .offsideEnd token.start) :=
    Revises.refl.collapse _ _
  have hguard : ∀ {delimiter}, (state.collapsed .offsideEnd token.start).delimiter = delimiter →
      (state.collapse .offsideEnd token.start).stack.delimiter = delimiter := by
    intro delimiter hdelimiter
    rw [stack_collapse]
    exact hdelimiter
  have hopened : ∀ delimiter, delimiter.isDeclaration = false →
      Frame.MayOpen ⟨delimiter, token.start⟩ (state.collapse .offsideEnd token.start).stack →
      Revises token.start state
        (((state.collapse .offsideEnd token.start).push delimiter token.start).emit (.raw token)) :=
    fun delimiter hmask hmay => (hclosed.mask hmay hmask).emit (.raw token)
  fun_cases State.stepPipe state token with
  | case1 hof => exact hopened .caseGuard rfl (hguard hof)
  | case2 hlet => exact hopened .declGuard rfl (.inl (hguard hlet))
  | case3 hlet => exact hopened .declGuard rfl (.inr (.inl (hguard hlet)))
  | case4 hwhere => exact hopened .declGuard rfl (.inr (.inr (hguard hwhere)))
  | case5 => exact revises_emitDefault state token

theorem revises_stepOperator :
    Revises token.start state (state.stepOperator token) :=
  ((Revises.refl.collapse .offsideEnd token.start).separate token.start).emit (.raw token)

/-- The second tick of a pair closes the context that the first one opens. -/
theorem revises_stepTick : Revises token.start state (state.stepTick token) := by
  fun_cases State.stepTick state token with
  | case1 => exact (Revises.refl.collapse .indented token.start).popAny.emit (.raw token)
  | case2 => exact (revises_stepOperator state token).mask trivial rfl

/-- In a record the place of a label opens over the brace. -/
theorem revises_stepComma : Revises token.start state (state.stepComma token) := by
  have hclosed : Revises token.start state
      ((state.collapse .indented token.start).emit (.raw token)) :=
    (Revises.refl.collapse .indented token.start).emit (.raw token)
  fun_cases State.stepComma state token with
  | case1 => exact hclosed.mask trivial rfl
  | case2 => exact hclosed

/-- A point ends the binders of a `forall`, or the place of a label opens. -/
theorem revises_stepDot : Revises token.start state (state.stepDot token) := by
  have hemitted := revises_emitDefault state token
  fun_cases State.stepDot state token with
  | case1 => exact hemitted.popAny
  | case2 => exact hemitted.mask trivial rfl

theorem revises_stepClose (delimiter : Delimiter) :
    Revises token.start state (state.stepClose token delimiter) :=
  ((Revises.refl.collapse .indented token.start).popIf _).emit (.raw token)

theorem revises_stepCloseBrace :
    Revises token.start state (state.stepCloseBrace token) :=
  (((Revises.refl.collapse .indented token.start).popIf _).popIf _).emit (.raw token)

/-- Whatever the action, a step closes contexts from the top, opens those that may be
opened, and records what it emits under the contexts of the moment. -/
theorem revises_step (action : Action) :
    Revises token.start state (state.step token next action) := by
  have hemitted := revises_emitDefault state token
  cases action with
  | default => exact revises_stepDefault state token
  | label => exact revises_stepHead state token rfl
  | declHead => exact revises_stepHead state token rfl
  | whereKeyword => exact revises_stepWhere state token next
  | inKeyword => exact revises_stepIn state token
  | letKeyword => exact revises_stepLet state token next
  | doKeyword => exact Revises.refl.emitKeyword token fun _ h => h.openBlock id rfl
  | adoKeyword => exact Revises.refl.emitKeyword token fun _ h => h.openBlock id rfl
  | caseKeyword => exact Revises.refl.emitKeyword_mask token (fun _ => trivial) rfl
  | ofKeyword => exact revises_stepOf state token next
  | ifKeyword => exact Revises.refl.emitKeyword_mask token (fun _ => trivial) rfl
  | thenKeyword => exact revises_stepThen state token
  | elseKeyword => exact revises_stepElse state token
  | forallKeyword => exact Revises.refl.emitKeyword_mask token (fun _ => trivial) rfl
  | backslash => exact hemitted.mask trivial rfl
  | arrow => exact revises_stepArrow state token
  | equals => exact revises_stepEquals state token
  | pipe => exact revises_stepPipe state token
  | tick => exact revises_stepTick state token
  | comma => exact revises_stepComma state token
  | dot => exact revises_stepDot state token
  | openParen => exact hemitted.mask trivial rfl
  | openBrace =>
    have hopened : Revises token.start state
        ((state.emitDefault token).push .brace token.start) := hemitted.mask trivial rfl
    exact hopened.mask trivial rfl
  | openSquare => exact hemitted.mask trivial rfl
  | closeParen => exact revises_stepClose state token .paren
  | closeBrace => exact revises_stepCloseBrace state token
  | closeSquare => exact revises_stepClose state token .square
  | operator => exact revises_stepOperator state token

end State

-- ============================================== contexts over contexts

/-- Every context may be open over those below it. -/
inductive Nested : List Frame → Prop
  | nil : Nested []
  | cons {frame : Frame} {below : List Frame} (mayOpen : frame.MayOpen ⟨below⟩)
      (nested : Nested below) : Nested (frame :: below)

/-- A stack that is nested stays so when contexts close from the top and open where they may. -/
theorem Restacks.nested {position : Position} {before after : Stack}
    (restacks : Restacks position before after) (h : Nested before.frames) :
    Nested after.frames := by
  induction restacks with
  | refl => exact h
  | @pop after _ ih =>
    obtain ⟨frames⟩ := after
    cases ih with
    | nil => exact .nil
    | cons _ nested => exact nested
  | push mayOpen _ _ ih => exact .cons mayOpen ih

/-- After any moves, every context may be open over those below it. -/
theorem nested_foldl_move (moves : List State.Move) : ∀ state : State,
    Nested state.stack.frames → Nested (moves.foldl State.move state).stack.frames := by
  induction moves with
  | nil => exact fun _ h => h
  | cons next moves ih =>
    intro state h
    refine ih _ ?_
    cases next with
    | trivia token => exact h
    | fold token next action =>
      exact (State.revises_step state token next action).restacks.nested h

theorem nested_run (rules : Rules) (eof : Position) (tokens : List Token) :
    Nested (State.initial.run rules eof tokens).stack.frames := by
  rw [State.run_eq_foldl]
  exact nested_foldl_move _ _ .nil

/-- The innermost block is the first frame of a block. -/
theorem innermostBlock?_eq (frames : List Frame) :
    Stack.innermostBlock? ⟨frames⟩ = (frames.filter Frame.isIndent).head? := by
  have hroot : [Frame.root].find? (fun frame => frame.delimiter.isIndent) = none := rfl
  unfold Stack.innermostBlock? Stack.find? Stack.toList
  rw [List.find?_append, hroot, Option.or_none, List.head?_filter]
  rfl

/-- The columns of the blocks decrease from the top to the root. -/
theorem Nested.columns {frames : List Frame} (h : Nested frames) :
    (frames.filter Frame.isIndent).Pairwise fun inner outer =>
      outer.position.column < inner.position.column := by
  induction h with
  | nil => exact .nil
  | @cons frame below mayOpen nested ih =>
    cases hblock : frame.isIndent with
    | false => rwa [List.filter_cons_of_neg (by rw [hblock]; exact Bool.false_ne_true)]
    | true =>
      rw [List.filter_cons_of_pos hblock]
      refine .cons (fun outer houter => ?_) ih
      have hright := mayOpen.liesLeftOf hblock
      unfold Stack.LiesLeftOf at hright
      rw [innermostBlock?_eq] at hright
      cases hblocks : below.filter Frame.isIndent with
      | nil =>
        rw [hblocks] at houter
        cases houter
      | cons first blocks =>
        rw [hblocks] at houter hright ih
        have hfirst := hright first rfl
        rcases List.mem_cons.mp houter with rfl | hmem
        · exact hfirst
        · exact Nat.lt_trans ((List.pairwise_cons.mp ih).1 outer hmem) hfirst

-- ====================================================== declarations

/-- A declaration was open before, or starts where the token does. -/
theorem Restacks.declaration {position : Position} {before after : Stack}
    (restacks : Restacks position before after) : ∀ frame ∈ after.frames,
      frame.delimiter.isDeclaration = true →
      frame ∈ before.frames ∨ frame.position = position := by
  induction restacks with
  | refl => exact fun frame hmem _ => .inl hmem
  | pop _ ih => exact fun frame hmem => ih frame (List.mem_of_mem_tail hmem)
  | push _ here _ ih =>
    intro frame hmem hdecl
    rcases List.mem_cons.mp hmem with rfl | hmem
    · exact .inr (here hdecl)
    · exact ih frame hmem hdecl

/-- The open declarations start in front of the position. -/
def State.DeclaresBefore (state : State) (position : Position) : Prop :=
  ∀ frame ∈ state.stack.frames, frame.delimiter.isDeclaration = true →
    frame.position.compare position = .lt

/-- While the tokens of a text are folded, the open declarations start in front of the
next one. -/
theorem State.DeclaresBefore.run (rules : Rules) {tokens : List Token}
    (hwidth : ∀ token ∈ tokens, token.start.compare token.stop = .lt) :
    ∀ {eof first last : Position} {state : State}, Token.Tile first tokens last →
      state.DeclaresBefore first → (state.run rules eof tokens).DeclaresBefore last := by
  induction tokens with
  | nil =>
    intro eof first last state htile h
    cases htile
    exact h
  | cons token rest ih =>
    intro eof first last state htile h
    obtain ⟨rfl, hrest⟩ := htile
    have htoken := hwidth token List.mem_cons_self
    have hlater : ∀ frame ∈ state.stack.frames, frame.delimiter.isDeclaration = true →
        frame.position.compare token.stop = .lt :=
      fun frame hmem hdecl => Position.compare_trans (h frame hmem hdecl) htoken
    unfold State.run
    split
    · exact ih (fun token hmem => hwidth token (List.mem_cons_of_mem _ hmem)) hrest hlater
    · refine ih (fun token hmem => hwidth token (List.mem_cons_of_mem _ hmem)) hrest ?_
      intro frame hmem hdecl
      rcases (revises_step state token _ _).restacks.declaration frame hmem hdecl with
        hbefore | hhere
      · exact hlater frame hbefore hdecl
      · rw [hhere]
        exact htoken

end Layout

end Offside
