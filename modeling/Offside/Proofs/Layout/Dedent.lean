import Mathlib.Data.List.TakeWhile
import Offside.Language.Rules
import Offside.Proofs.Layout.Balance
import Offside.Proofs.Layout.Frames

/-!
What a token closes by its column.

Most tokens settle the contexts in front of them by their column alone. An ordinary one
closes the blocks that it lies left of, an operator those in its own column as well
(`Action.closesFrom?`). A mask is in the way of all blocks below it.

# The rule

The pass closes contexts from the top, up to the first that does not close. That these are
all the blocks above the innermost mask that start far enough right is a matter of the order
of the columns, which decrease from the top to the root (`Nested.takeWhile_eq`). What
separates is decided by the context that closing has laid bare.
-/

namespace Offside.Layout

/-- The leftmost column of the blocks that close before a token in a column, for the actions
that settle by the column alone. A block in the column itself closes before an operator, and
stays before any other token. -/
def Action.closesFrom? (action : Action) (column : Nat) : Option Nat :=
  if action.isOrdinary then some (column + 1)
  else if action = .operator then some column
  else none

/-- Closes the blocks that start at a column or right of it. -/
def Closing.from (column : Nat) : Closing := fun _ frame =>
  frame.isIndent && column ≤ frame.position.column

namespace Stack

/-- The blocks above the innermost mask, innermost first. -/
def innerBlocks (stack : Stack) : List Frame := stack.frames.takeWhile Frame.isIndent

/-- Those of them that start at a column or right of it. -/
def blocksFrom (stack : Stack) (column : Nat) : List Frame :=
  stack.innerBlocks.filter fun block => column ≤ block.position.column

/-- A separator is due before a token: the innermost context is a block or a declaration, in
the column of the token and on another line. -/
def SeparatesAt (stack : Stack) (position : Position) : Prop :=
  (stack.top.isIndent = true ∨ stack.delimiter.isDeclaration = true)
    ∧ position.column = stack.position.column ∧ position.line ≠ stack.position.line

end Stack

/-- The ends of blocks that close one after the other, over the contexts `below`. Each is
recorded beside the contexts that it leaves. -/
def stopsOf (position : Position) (below : List Frame) : List Frame → List Entry
  | [] => []
  | _ :: outer => ⟨.stop position, ⟨outer ++ below⟩⟩ :: stopsOf position below outer

-- ================================================== the blocks that close

/-- Among blocks whose columns decrease, those that start far enough right come first. -/
theorem takeWhile_eq_filter {blocks : List Frame} (column : Nat)
    (h : blocks.Pairwise fun inner outer => outer.position.column < inner.position.column) :
    (blocks.takeWhile fun block => column ≤ block.position.column)
      = blocks.filter fun block => column ≤ block.position.column := by
  induction h with
  | nil => rfl
  | @cons block outer hcolumns _ ih =>
    by_cases hright : column ≤ block.position.column
    · rw [List.takeWhile_cons_of_pos (by simpa using hright),
        List.filter_cons_of_pos (by simpa using hright), ih]
    · rw [List.takeWhile_cons_of_neg (by simpa using hright),
        List.filter_cons_of_neg (by simpa using hright)]
      refine (List.filter_eq_nil_iff.mpr fun other hother => ?_).symm
      have hleft := hcolumns other hother
      simp only [decide_eq_true_eq]
      omega

/-- Blocks above the innermost mask are blocks of the stack. -/
theorem Stack.innerBlocks_sublist (stack : Stack) :
    stack.innerBlocks.Sublist (stack.frames.filter Frame.isIndent) := by
  unfold innerBlocks
  have hall : (stack.frames.takeWhile Frame.isIndent).filter Frame.isIndent
      = stack.frames.takeWhile Frame.isIndent :=
    List.filter_eq_self.mpr fun _ hmem => List.mem_takeWhile_imp hmem
  rw [← hall]
  exact (List.takeWhile_sublist _).filter _

/-- What closes from a column on, from the top, are the blocks above the innermost mask that
start there or right of it. -/
theorem Nested.takeWhile_eq {stack : Stack} (h : Nested stack.frames) (column : Nat)
    (position : Position) :
    stack.frames.takeWhile (Closing.from column position) = stack.blocksFrom column := by
  have hcolumns := h.columns.sublist stack.innerBlocks_sublist
  unfold Stack.blocksFrom
  rw [← takeWhile_eq_filter column hcolumns]
  unfold Stack.innerBlocks
  rw [List.takeWhile_takeWhile]
  congr 1
  funext frame
  rw [Bool.decide_and, Bool.decide_eq_true, Bool.decide_eq_true, Bool.and_comm]
  rfl

/-- Without the contexts further in, the others are nested as they were. -/
theorem Nested.of_append {inner below : List Frame} (h : Nested (inner ++ below)) :
    Nested below := by
  induction inner with
  | nil => exact h
  | cons frame inner ih =>
    cases h with
    | cons _ nested => exact ih nested

/-- Where the innermost context does not close, no block above the innermost mask starts far
enough right to. -/
theorem Nested.lt_of_mem_innerBlocks {stack : Stack} (h : Nested stack.frames) {column : Nat}
    {position : Position}
    (hopen : ∀ frame, stack.frames.head? = some frame →
      Closing.from column position frame = false) :
    ∀ block ∈ stack.innerBlocks, block.position.column < column := by
  have hnone : stack.frames.takeWhile (Closing.from column position) = [] := by
    cases hframes : stack.frames with
    | nil => rfl
    | cons frame below =>
      rw [List.takeWhile_cons_of_neg]
      rw [hopen frame (by rw [hframes]; rfl)]
      exact Bool.false_ne_true
  rw [h.takeWhile_eq column position] at hnone
  intro block hmem
  have hleft := List.filter_eq_nil_iff.mp hnone block hmem
  simpa using hleft

namespace State

variable {state : State} {position : Position}

/-- Where only blocks close, each leaves its end. -/
theorem collapseFrames_eq {closes : Closing}
    (hblocks : ∀ frame, closes position frame = true → frame.isIndent = true)
    (frames : List Frame) : ∀ emitted, collapseFrames closes position emitted frames
      = ⟨⟨frames.dropWhile (closes position)⟩,
          (stopsOf position (frames.dropWhile (closes position))
            (frames.takeWhile (closes position))).reverse ++ emitted⟩ := by
  induction frames with
  | nil => exact fun _ => rfl
  | cons frame below ih =>
    intro emitted
    unfold collapseFrames
    rw [List.dropWhile_cons, List.takeWhile_cons]
    split
    case isFalse => rfl
    case isTrue hcloses =>
      rw [if_pos (hblocks frame hcloses), ih, stopsOf, List.takeWhile_append_dropWhile,
        List.reverse_cons, List.append_assoc]
      rfl

/-- The blocks above the innermost mask that start far enough right close, and no other
context does. -/
theorem collapse_eq {closes : Closing} {column : Nat}
    (hcloses : closes position = Closing.from column position)
    (h : Nested state.stack.frames) :
    let shut := state.collapse closes position
    let closed := state.stack.blocksFrom column
    state.stack.frames = closed ++ shut.stack.frames
      ∧ (∀ frame, shut.stack.frames.head? = some frame → Closing.from column position frame = false)
      ∧ shut.emitted
        = (stopsOf position shut.stack.frames closed).reverse ++ state.emitted := by
  intro shut closed
  have hclosed : state.stack.frames.takeWhile (closes position) = closed := by
    rw [hcloses]
    exact h.takeWhile_eq column position
  have hshut : shut = ⟨⟨state.stack.frames.dropWhile (closes position)⟩,
      (stopsOf position (state.stack.frames.dropWhile (closes position)) closed).reverse
        ++ state.emitted⟩ := by
    rw [← hclosed]
    refine collapseFrames_eq (fun frame hframe => ?_) state.stack.frames state.emitted
    rw [hcloses] at hframe
    exact (Bool.and_eq_true_iff.mp hframe).1
  rw [hshut]
  refine ⟨?_, fun frame hframe => ?_, rfl⟩
  · rw [← hclosed, List.takeWhile_append_dropWhile]
  · have hopen := List.head?_dropWhile_not (closes position) state.stack.frames
    rw [hframe, hcloses] at hopen
    exact hopen

-- ========================================================= what separates

/-- What separating does. Where a separator is due it is emitted; it ends a declaration, and
in front of a branch of a `case` it opens binders. -/
theorem separate_cases (state : State) (position : Position) :
    (¬state.stack.SeparatesAt position ∧ state.separate position = state)
      ∨ state.stack.SeparatesAt position
        ∧ (state.stack.delimiter.isDeclaration = true
            ∧ state.separate position = state.popAny.emit (.sep position)
          ∨ state.separate position = (state.emit (.sep position)).push .caseBinders position
          ∨ state.separate position = state.emit (.sep position)) := by
  fun_cases State.separate state position with
  | case1 top hplace =>
    refine .inl ⟨?_, rfl⟩
    rintro ⟨_, hcolumn, hline⟩
    exact hplace.elim (fun hne => hne hcolumn) hline
  | case2 top hplace hdecl =>
    obtain ⟨hcolumn, hline⟩ := not_or.mp hplace
    have hopen : state.stack.delimiter.isDeclaration = true := by
      rcases hdecl with hdecl | hdecl
      · exact congrArg Delimiter.isDeclaration hdecl
      · exact congrArg Delimiter.isDeclaration hdecl
    exact .inr ⟨⟨.inr hopen, not_not.mp hcolumn, hline⟩, .inl ⟨hopen, rfl⟩⟩
  | case3 top hplace _ hof =>
    obtain ⟨hcolumn, hline⟩ := not_or.mp hplace
    have hblock : state.stack.top.isIndent = true := congrArg Delimiter.isIndent hof
    exact .inr ⟨⟨.inl hblock, not_not.mp hcolumn, hline⟩, .inr (.inl rfl)⟩
  | case4 top hplace _ _ hblock =>
    obtain ⟨hcolumn, hline⟩ := not_or.mp hplace
    exact .inr ⟨⟨.inl hblock, not_not.mp hcolumn, hline⟩, .inr (.inr rfl)⟩
  | case5 top hplace hdecl hof hblock =>
    refine .inl ⟨?_, rfl⟩
    rintro ⟨hblock' | hopen, _, _⟩
    · exact hblock hblock'
    · exact hdecl (Delimiter.eq_of_isDeclaration hopen)

/-- A separator is emitted exactly where it is due. -/
theorem emitted_separate (state : State) (position : Position) :
    ∃ separators, (state.separate position).emitted = separators.reverse ++ state.emitted
      ∧ (state.stack.SeparatesAt position → ∃ stack, separators = [⟨.sep position, stack⟩])
      ∧ (¬state.stack.SeparatesAt position → separators = []) := by
  obtain ⟨hnot, hsame⟩ | ⟨hdue, ⟨_, hends⟩ | hbranch | hitem⟩ := separate_cases state position
  · exact ⟨[], congrArg State.emitted hsame, fun hdue => absurd hdue hnot, fun _ => rfl⟩
  · refine ⟨[⟨.sep position, state.popAny.stack⟩], ?_, fun _ => ⟨_, rfl⟩,
      fun hnot => absurd hdue hnot⟩
    rw [hends]
    exact congrArg (_ :: ·) (emitted_popIf state _)
  · exact ⟨[⟨.sep position, state.stack⟩], congrArg State.emitted hbranch, fun _ => ⟨_, rfl⟩,
      fun hnot => absurd hdue hnot⟩
  · exact ⟨[⟨.sep position, state.stack⟩], congrArg State.emitted hitem, fun _ => ⟨_, rfl⟩,
      fun hnot => absurd hdue hnot⟩

/-- A declaration stands over the block of the module, in its column. -/
theorem frames_popAny_of_declaration (h : Nested state.stack.frames)
    (hopen : state.stack.delimiter.isDeclaration = true) :
    ∃ block, state.popAny.stack.frames = [block]
      ∧ block.position.column = state.stack.position.column := by
  obtain ⟨⟨frames⟩, emitted⟩ := state
  cases h with
  | nil => cases hopen
  | cons mayOpen _ =>
    obtain ⟨block, hframes, _, hcolumn⟩ :=
      Stack.eq_of_startsTopDecl (mayOpen.startsTopDecl hopen)
    exact ⟨block, hframes, hcolumn⟩

/-- No block opens or closes where a separator is emitted. -/
theorem blocks_separate (h : Nested state.stack.frames) (position : Position) :
    (state.separate position).stack.blocks = state.stack.blocks := by
  obtain ⟨_, hsame⟩ | ⟨_, ⟨hopen, hends⟩ | hbranch | hitem⟩ := separate_cases state position
  · rw [hsame]
  · rw [hends]
    obtain ⟨⟨frames⟩, emitted⟩ := state
    cases frames with
    | nil => cases hopen
    | cons frame below =>
      exact (Stack.blocks_cons_of_mask (isIndent_of_isDeclaration hopen) below).symm
  · rw [hbranch]
    exact Stack.blocks_cons_of_mask rfl _
  · rw [hitem]
    rfl

/-- What separates lays no block bare that starts right of the token. -/
theorem innerBlocks_separate (h : Nested state.stack.frames)
    (hleft : ∀ block ∈ state.stack.innerBlocks, block.position.column ≤ position.column) :
    ∀ block ∈ (state.separate position).stack.innerBlocks,
      block.position.column ≤ position.column := by
  obtain ⟨_, hsame⟩ | ⟨hdue, ⟨hopen, hends⟩ | hbranch | hitem⟩ := separate_cases state position
  · rwa [hsame]
  · obtain ⟨module, hframes, hcolumn⟩ := frames_popAny_of_declaration h hopen
    intro block hmem
    have hinner : block ∈ state.popAny.stack.frames := by
      rw [hends] at hmem
      exact (List.takeWhile_sublist _).subset hmem
    rw [hframes, List.mem_singleton] at hinner
    rw [hinner, hcolumn, hdue.2.1]
  · rw [hbranch]
    intro block hmem
    cases hmem
  · rwa [hitem]

-- ============================================================= the step

/-- A token that settles by its column closes from there on, separates and is emitted. What
follows is emitted behind it. -/
theorem follows_of_closesFrom? (state : State) (token : Token) (next : Position) {action : Action}
    {column : Nat} (h : action.closesFrom? token.start.column = some column) :
    (token.start.column ≤ column ∧ column ≤ token.start.column + 1)
      ∧ ∃ closes, closes token.start = Closing.from column token.start
        ∧ Follows next
          (((state.collapse closes token.start).separate token.start).emit (.raw token))
          (state.step token next action) := by
  unfold Action.closesFrom? at h
  split at h
  case isTrue hordinary =>
    cases h
    exact ⟨⟨Nat.le_succ _, Nat.le_refl _⟩, .offside, rfl, follows_step token next state hordinary⟩
  case isFalse =>
    split at h
    case isTrue hoperator =>
      cases h
      rw [hoperator]
      exact ⟨⟨Nat.le_refl _, Nat.le_succ _⟩, .offsideEnd, rfl, follows_refl _ next⟩
    case isFalse => cases h

end State

/-- In every state of the pass, a token that settles by its column ends the blocks above the
innermost mask that start right of it, or, if it is an operator, also the one in its own
column. They end from the innermost on, and no other block does. A separator follows exactly
where the context that is then on top is a block or a declaration in the column of the token
and on another line. Then the token is emitted, and behind it at most the start of a block.

So the token is never emitted while a block right of it is open above the innermost mask, and
it ends no block that starts left of it. -/
theorem blocks_closed_by_column (moves : List State.Move) (token : Token) (next : Position)
    (action : Action) (column : Nat) (h : action.closesFrom? token.start.column = some column) :
    let state := State.afterMoves moves
    let closed := state.stack.blocksFrom column
    ∃ (below : Stack) (separators : List Entry) (recorded : Stack) (opened : List Entry),
      state.stack.frames = closed ++ below.frames
        ∧ (state.step token next action).output = state.output
          ++ stopsOf token.start below.frames closed ++ separators
          ++ ⟨.raw token, recorded⟩ :: opened
        ∧ (below.SeparatesAt token.start → ∃ stack, separators = [⟨.sep token.start, stack⟩])
        ∧ (¬below.SeparatesAt token.start → separators = [])
        ∧ recorded.blocks = below.blocks
        ∧ (opened = [] ∨ ∃ stack, opened = [⟨.start next, stack⟩])
        ∧ (∀ block ∈ recorded.innerBlocks, block.position.column ≤ token.start.column)
        ∧ ∀ block ∈ closed, token.start.column ≤ block.position.column := by
  intro state closed
  have hnested : Nested state.stack.frames := nested_foldl_move moves _ .nil
  obtain ⟨⟨hfirst, hlast⟩, closes, hcloses, hfollows⟩ :=
    State.follows_of_closesFrom? state token next h
  obtain ⟨hframes, hopen, hends⟩ := State.collapse_eq hcloses hnested
  -- from here on it is no matter how the contexts were closed
  generalize state.collapse closes token.start = shut at hfollows hframes hopen hends
  have hbelow : Nested shut.stack.frames := Nested.of_append (hframes ▸ hnested)
  have hleft : ∀ block ∈ shut.stack.innerBlocks, block.position.column ≤ token.start.column := by
    intro block hmem
    have hlt := hbelow.lt_of_mem_innerBlocks hopen block hmem
    omega
  -- the context that is then on top decides on the separator
  obtain ⟨separators, hseparates, hdue, hnone⟩ := State.emitted_separate shut token.start
  have hopened : ∃ opened, (state.step token next action).emitted
      = opened.reverse ++ ((shut.separate token.start).emit (.raw token)).emitted
        ∧ (opened = [] ∨ ∃ stack, opened = [⟨.start next, stack⟩]) := by
    rcases State.emitted_follows hfollows with hsame | ⟨stack, hopen⟩
    · exact ⟨[], hsame, .inl rfl⟩
    · exact ⟨[_], hopen, .inr ⟨stack, rfl⟩⟩
  obtain ⟨opened, hstep, hstart⟩ := hopened
  refine ⟨shut.stack, separators, (shut.separate token.start).stack, opened, hframes, ?_, hdue,
    hnone, State.blocks_separate hbelow token.start, hstart,
    State.innerBlocks_separate hbelow hleft, fun block hmem => ?_⟩
  · unfold State.output
    rw [hstep, State.emit, hseparates, hends]
    simp [closed]
  · have hright := (List.mem_filter.mp hmem).2
    simp only [decide_eq_true_eq] at hright
    omega

/-- A name in the column of the module ends the two `do` blocks inside the declaration before
it, the inner one first, and is separated from that declaration. -/
theorem blocks_closed_by_column_name :
    let reading := Reading.ofSource "where\nx = do\n  do\n    a\n"
    let moves := State.movesOf Language.layoutRules reading.eof reading.tokens
    let name : Token := ⟨.lower, ⟨5, 1, 24⟩, ⟨5, 2, 25⟩⟩
    let declaration : List Frame := [⟨.topDecl, ⟨2, 1, 6⟩⟩, ⟨.whereBlock, ⟨2, 1, 6⟩⟩]
    Action.closesFrom? .label name.start.column = some 2
      ∧ ∃ stack recorded opened,
        ((State.afterMoves moves).step name ⟨5, 2, 25⟩ .label).output
            = (State.afterMoves moves).output
              ++ [⟨.stop name.start, ⟨⟨.doBlock, ⟨3, 3, 15⟩⟩ :: declaration⟩⟩,
                ⟨.stop name.start, ⟨declaration⟩⟩]
              ++ [⟨.sep name.start, stack⟩] ++ ⟨.raw name, recorded⟩ :: opened
          ∧ ∀ block ∈ recorded.innerBlocks, block.position.column ≤ 1 := by
  intro reading moves name declaration
  have hfrom : Action.closesFrom? .label name.start.column = some 2 := rfl
  have hstack : (State.afterMoves moves).stack.frames
      = ⟨.doBlock, ⟨4, 5, 22⟩⟩ :: ⟨.doBlock, ⟨3, 3, 15⟩⟩ :: declaration := by
    decide +kernel
  have hclosed : (State.afterMoves moves).stack.blocksFrom 2
      = [⟨.doBlock, ⟨4, 5, 22⟩⟩, ⟨.doBlock, ⟨3, 3, 15⟩⟩] := by
    decide +kernel
  obtain ⟨⟨below⟩, separators, recorded, opened, hframes, houtput, hdue, -, -, -, hinner, -⟩ :=
    blocks_closed_by_column moves name ⟨5, 2, 25⟩ .label 2 hfrom
  rw [hstack, hclosed] at hframes
  obtain rfl : declaration = below := (List.cons.inj (List.cons.inj hframes).2).2
  obtain ⟨stack, rfl⟩ := hdue ⟨.inr rfl, rfl, by decide⟩
  rw [hclosed] at houtput
  exact ⟨hfrom, stack, recorded, opened, houtput, hinner⟩

end Offside.Layout
