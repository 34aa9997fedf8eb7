import Offside.Proofs.Layout.Frames

/-!
The shape of the open contexts, in every state and beside every emitted token.

The pass decides what a token closes from the top one or two contexts. `Stack.Shaped`
is what it relies on, said of the contexts from the top down to the root: the columns of
the blocks strictly increase towards the top, and some contexts stand directly over
particular others.

# The invariant

A state is sound (`State.Sound`) if every open context may be open over those below it,
and so at every emitted token for the contexts recorded there. A step revises a state in
pops, openings that may be made, and emissions under the contexts of the moment
(`Revises`), and none of these leaves soundness. Trivia goes in front of the blocks that
open past it, under contexts that were recorded before or under the current ones.

# What this gives

`contexts_shaped`: soundness is the shape, context by context (`Nested.shaped`).
-/

namespace Offside.Layout

-- ============================================================ the shape

/-- The shape of the open contexts, listed from the top down to the root. -/
structure Stack.Shaped (stack : Stack) : Prop where
  /-- The columns of the blocks decrease from the top to the root. -/
  columns : (stack.toList.filter Frame.isIndent).Pairwise fun inner outer =>
    outer.position.column < inner.position.column
  /-- A declaration stands over the `where` block of the module, in its column, and
  nothing else. -/
  declaration : ∀ inner frame below, stack.toList = inner ++ frame :: below →
    frame.delimiter = .topDecl ∨ frame.delimiter = .topDeclHead →
    ∃ block, below = [block, Frame.root] ∧ block.delimiter = .whereBlock
      ∧ block.position.column = frame.position.column
  /-- A block of `let` statements stands directly over a `do` or an `ado` block. -/
  statements : ∀ inner frame below, stack.toList = inner ++ frame :: below →
    frame.delimiter = .letStmt →
    ∃ block outer, below = block :: outer
      ∧ (block.delimiter = .doBlock ∨ block.delimiter = .adoBlock)
  /-- The guard of a branch stands directly over the `of` block. -/
  caseGuard : ∀ inner frame below, stack.toList = inner ++ frame :: below →
    frame.delimiter = .caseGuard →
    ∃ block outer, below = block :: outer ∧ block.delimiter = .ofBlock
  /-- The guard of a local declaration stands directly over the block of declarations. -/
  declGuard : ∀ inner frame below, stack.toList = inner ++ frame :: below →
    frame.delimiter = .declGuard →
    ∃ block outer, below = block :: outer
      ∧ (block.delimiter = .letBlock ∨ block.delimiter = .letStmt
        ∨ block.delimiter = .whereBlock)
  /-- The root lies under everything, and nowhere else. -/
  root : ∀ inner frame below, stack.toList = inner ++ frame :: below →
    (frame.delimiter = .root ↔ below = [])

/-- A context that is not the root stands among those above it. -/
theorem Stack.split_toList {stack : Stack} {inner below : List Frame} {frame : Frame}
    (h : stack.toList = inner ++ frame :: below) :
    (frame = Frame.root ∧ below = [])
      ∨ ∃ outer, stack.frames = inner ++ frame :: outer ∧ below = outer ++ [Frame.root] := by
  unfold Stack.toList at h
  rcases List.eq_nil_or_concat below with rfl | ⟨outer, last, rfl⟩
  · exact .inl ⟨(List.singleton_inj.mp (List.append_inj_right' h rfl)).symm, rfl⟩
  · rw [List.concat_eq_append] at h ⊢
    rw [← List.cons_append, ← List.append_assoc] at h
    obtain ⟨hframes, hlast⟩ := List.append_inj' h rfl
    exact .inr ⟨outer, hframes, by rw [← List.singleton_inj.mp hlast]⟩

/-- Every context among nested ones may be open over those below it. -/
theorem Nested.mayOpen {frames inner below : List Frame} {frame : Frame} (h : Nested frames)
    (hsplit : frames = inner ++ frame :: below) : frame.MayOpen ⟨below⟩ := by
  induction inner generalizing frames with
  | nil =>
    subst hsplit
    cases h with
    | cons mayOpen _ => exact mayOpen
  | cons first inner ih =>
    subst hsplit
    cases h with
    | cons _ nested => exact ih nested rfl

/-- A context that asks for a particular one directly below it finds it there. -/
theorem Stack.exists_delimiter {below : List Frame} {p : Delimiter → Prop}
    (hp : p (Stack.delimiter ⟨below⟩)) (hroot : ¬ p .root) (bottom : List Frame) :
    ∃ block outer, below ++ bottom = block :: outer ∧ p block.delimiter := by
  cases below with
  | nil => exact absurd hp hroot
  | cons block outer => exact ⟨block, outer ++ bottom, rfl, hp⟩

/-- Contexts that may stand as they do have the shape. -/
theorem Nested.shaped {stack : Stack} (h : Nested stack.frames) : stack.Shaped := by
  -- a context of one of the kinds in question is not the root, so it was opened
  have hopened : ∀ {inner frame below}, stack.toList = inner ++ frame :: below →
      frame.delimiter ≠ .root →
      ∃ outer, frame.MayOpen ⟨outer⟩ ∧ below = outer ++ [Frame.root] := by
    intro inner frame below hsplit hne
    rcases Stack.split_toList hsplit with ⟨rfl, _⟩ | ⟨outer, hframes, hbelow⟩
    · exact absurd rfl hne
    · exact ⟨outer, h.mayOpen hframes, hbelow⟩
  constructor
  case columns =>
    unfold Stack.toList
    rw [List.filter_append, show [Frame.root].filter Frame.isIndent = [] from rfl,
      List.append_nil]
    exact h.columns
  case declaration =>
    intro inner frame below hsplit hdecl
    have hne : frame.delimiter ≠ .root := by
      rcases hdecl with hdecl | hdecl <;> simp [hdecl]
    have hisDecl : frame.delimiter.isDeclaration = true := by
      rcases hdecl with hdecl | hdecl <;> simp [hdecl, Delimiter.isDeclaration]
    obtain ⟨outer, hmay, rfl⟩ := hopened hsplit hne
    obtain ⟨block, houter, hwhere, hcolumn⟩ :=
      Stack.eq_of_startsTopDecl (hmay.startsTopDecl hisDecl)
    exact ⟨block, congrArg (· ++ [Frame.root]) houter, hwhere, hcolumn⟩
  case statements =>
    intro inner frame below hsplit hstmt
    obtain ⟨outer, hmay, rfl⟩ := hopened hsplit (by simp [hstmt])
    simp only [Frame.MayOpen, hstmt] at hmay
    exact Stack.exists_delimiter (p := fun d => d = .doBlock ∨ d = .adoBlock) hmay.2 (by simp) _
  case caseGuard =>
    intro inner frame below hsplit hguard
    obtain ⟨outer, hmay, rfl⟩ := hopened hsplit (by simp [hguard])
    simp only [Frame.MayOpen, hguard] at hmay
    exact Stack.exists_delimiter (p := fun d => d = .ofBlock) hmay (by simp) _
  case declGuard =>
    intro inner frame below hsplit hguard
    obtain ⟨outer, hmay, rfl⟩ := hopened hsplit (by simp [hguard])
    simp only [Frame.MayOpen, hguard] at hmay
    exact Stack.exists_delimiter (p := fun d => d = .letBlock ∨ d = .letStmt ∨ d = .whereBlock)
      hmay (by simp) _
  case root =>
    intro inner frame below hsplit
    rcases Stack.split_toList hsplit with ⟨rfl, rfl⟩ | ⟨outer, hframes, rfl⟩
    · exact ⟨fun _ => rfl, fun _ => rfl⟩
    · have hmay := h.mayOpen hframes
      constructor
      · intro hroot
        simp only [Frame.MayOpen, hroot] at hmay
      · intro hnil
        exact absurd hnil (by simp)

-- ======================================================== the invariant

/-- The contexts may stand as they do, now and beside every emitted token. -/
structure State.Sound (state : State) : Prop where
  stack : Nested state.stack.frames
  entries : ∀ entry ∈ state.emitted, Nested entry.stack.frames

namespace State

theorem sound_initial : initial.Sound := ⟨.nil, fun _ hmem => nomatch hmem⟩

variable {state after : State}

/-- An emission records the contexts of the moment. -/
theorem Sound.emit (h : state.Sound) (token : LayoutToken) : (state.emit token).Sound := by
  refine ⟨h.stack, fun entry hmem => ?_⟩
  rcases List.mem_cons.mp hmem with rfl | hmem
  · exact h.stack
  · exact h.entries entry hmem

/-- Nothing that a step does leaves soundness. -/
theorem Sound.revises {position : Position} (h : state.Sound)
    (revises : Revises position state after) : after.Sound := by
  induction revises with
  | refl => exact h
  | pop revises ih => exact ⟨revises.pop.restacks.nested h.stack, ih.entries⟩
  | push mayOpen _ _ ih => exact ⟨.cons mayOpen ih.stack, ih.entries⟩
  | emit token _ ih => exact ih.emit token

/-- Trivia is recorded under contexts that were recorded before, or under the current
ones. -/
theorem Sound.emitTrivia (h : state.Sound) (token : Token) : (state.emitTrivia token).Sound := by
  have hlater : ∀ entry ∈ state.emitted.takeWhile (opensPast token.span.stop),
      Nested entry.stack.frames :=
    fun entry hmem => h.entries entry ((List.takeWhile_sublist _).subset hmem)
  have hearlier : ∀ entry ∈ state.emitted.dropWhile (opensPast token.span.stop),
      Nested entry.stack.frames :=
    fun entry hmem => h.entries entry ((List.dropWhile_sublist _).subset hmem)
  refine ⟨h.stack, fun entry hmem => ?_⟩
  rcases List.mem_append.mp hmem with hmem | hmem
  · exact hlater entry hmem
  rcases List.mem_cons.mp hmem with rfl | hmem
  · dsimp only
    split
    case h_1 before rest _ hrest => exact hearlier before (hrest ▸ List.mem_cons_self)
    case h_2 => exact h.stack
  · exact hearlier entry hmem

-- ================================================================ the run

/-- Soundness lasts through a run. -/
theorem Sound.foldl_move (moves : List Move) : ∀ {state : State},
    state.Sound → (moves.foldl move state).Sound := by
  induction moves with
  | nil => exact id
  | cons next moves ih =>
    intro state h
    cases next with
    | trivia token => exact ih (h.emitTrivia token)
    | fold token next action => exact ih (h.revises (revises_step state token next action))

theorem sound_afterMoves (moves : List Move) : (afterMoves moves).Sound :=
  sound_initial.foldl_move moves

/-- The end of a text closes what is open, as any collapse does. -/
theorem Sound.unwind (h : state.Sound) (eof : Position) : (state.unwind eof).Sound := by
  have hopen : Revises eof state state := .refl
  exact h.revises (hopen.collapse (fun _ _ => true) eof)

theorem Sound.shaped_output (h : state.Sound) : ∀ entry ∈ state.output, entry.stack.Shaped :=
  fun entry hmem => (h.entries entry (List.mem_reverse.mp hmem)).shaped

end State

/-- The open contexts have their shape after any moves, of any tokens with any next
positions and any actions, and so have the contexts recorded beside every token emitted
on the way. The pass over a text is such a sequence of moves, and closing what is open at
its end records no others. -/
theorem contexts_shaped :
    (∀ moves : List State.Move,
      (State.afterMoves moves).stack.Shaped
        ∧ ∀ entry ∈ (State.afterMoves moves).output, entry.stack.Shaped)
      ∧ ∀ (rules : Rules) (tokens : List Token) (eof : Position),
        State.initial.run rules eof tokens = State.afterMoves (State.movesOf rules eof tokens)
          ∧ ∀ entry ∈ annotate rules tokens eof, entry.stack.Shaped := by
  constructor
  · intro moves
    have hsound := State.sound_afterMoves moves
    exact ⟨hsound.stack.shaped, hsound.shaped_output⟩
  · intro rules tokens eof
    have hrun : State.initial.run rules eof tokens
        = State.afterMoves (State.movesOf rules eof tokens) := State.run_eq_foldl rules eof tokens _
    refine ⟨hrun, State.Sound.shaped_output (State.Sound.unwind ?_ eof)⟩
    rw [hrun]
    exact State.sound_afterMoves _

end Offside.Layout
