import Offside.Proofs.Layout.Moves

/-!
Layout blocks are balanced, and the stack mirrors them.

# The invariant

`openBlocks?` replays the output alone: it keeps the blocks that were started
and not ended, and has no answer once an end closes nothing. A state mirrors
its output (`State.Mirrors`) if the blocks on the stack are the blocks that the
replay finds open, and if every emitted entry was faithful when it was emitted:
unless it is an end, the blocks of its recorded stack are those open just after
it. The invariant also says that a block opens right behind a token of the
source; trivia relies on it, since it goes in front of a start that points past
it and takes over the stack of the token there.

# What this gives

A move keeps the invariant: trivia by `Mirrors.emitTrivia`, a step part by part
by `Mirrors.step`. `blocks_balanced` reads off the whole: after any moves the
stack mirrors the output, and the layout of a text is balanced.
-/

namespace Offside.Layout

-- ================================================ what is open in the output

/-- The blocks that are open after one more token, innermost first; none if the
token closes a block where none is open. -/
def openAfter? (blocks? : Option (List Position)) (token : LayoutToken) : Option (List Position) :=
  match token with
  | .start position => blocks?.map (position :: ·)
  | .stop _ => blocks?.bind List.tail?
  | .sep _ | .raw _ => blocks?

/-- The blocks that are open after the tokens, each as the position of its start,
innermost first. There is no answer if an end closes nothing. -/
def openBlocks? (tokens : List LayoutToken) : Option (List Position) :=
  tokens.foldl openAfter? (some [])

/-- The positions of the blocks among the open contexts, innermost first. -/
def Stack.blocks (stack : Stack) : List Position :=
  (stack.frames.filter Frame.isIndent).map Frame.position

/-- The token closes a block. -/
def isStop : LayoutToken → Bool
  | .stop _ => true
  | _ => false

/-- The blocks that are open after what was emitted, given newest first. -/
def openIn? (emitted : List Entry) : Option (List Position) :=
  openBlocks? (emitted.reverse.map Entry.token)

/-- Reading newest first, the newest entry is the last to count. -/
theorem openIn?_cons (entry : Entry) (earlier : List Entry) :
    openIn? (entry :: earlier) = openAfter? (openIn? earlier) entry.token := by
  unfold openIn? openBlocks?
  rw [List.reverse_cons, List.map_append, List.foldl_append]
  rfl

namespace Stack

theorem blocks_cons_of_isIndent {frame : Frame} (h : frame.isIndent = true)
    (below : List Frame) : blocks ⟨frame :: below⟩ = frame.position :: blocks ⟨below⟩ := by
  unfold blocks
  rw [List.filter_cons_of_pos h, List.map_cons]

theorem blocks_cons_of_mask {frame : Frame} (h : frame.isIndent = false)
    (below : List Frame) : blocks ⟨frame :: below⟩ = blocks ⟨below⟩ := by
  unfold blocks
  rw [List.filter_cons_of_neg (by simp [h])]

end Stack

-- ========================================================= the invariant

/-- What holds of an emitted entry, given what was emitted before it, newest
first: unless it closes a block, the blocks of its stack are those that are
open just after it; and a block is opened right behind a token of the source. -/
structure Entry.Faithful (entry : Entry) (earlier : List Entry) : Prop where
  recorded : isStop entry.token = false → openIn? (entry :: earlier) = some entry.stack.blocks
  behindRaw : ∀ position, entry.token = .start position →
    ∃ token stack before, earlier = ⟨.raw token, stack⟩ :: before

/-- The blocks on the stack are the blocks that are open in the output, and the
recorded stacks are faithful. -/
structure State.Mirrors (state : State) : Prop where
  stack : openIn? state.emitted = some state.stack.blocks
  entries : ∀ later entry earlier, state.emitted = later ++ entry :: earlier →
    entry.Faithful earlier

namespace State

theorem mirrors_initial : initial.Mirrors := by
  constructor
  · rfl
  · intro later entry earlier h
    cases later <;> cases h

namespace Mirrors

variable {state : State}

/-- One more entry that is faithful. -/
theorem cons (h : state.Mirrors) {entry : Entry} {stack : Stack}
    (hentry : entry.Faithful state.emitted)
    (hstack : openAfter? (some state.stack.blocks) entry.token = some stack.blocks) :
    Mirrors ⟨stack, entry :: state.emitted⟩ := by
  constructor
  · show openIn? (entry :: state.emitted) = _
    rw [openIn?_cons, h.stack, hstack]
  · intro later found earlier hsplit
    cases later with
    | nil =>
      cases hsplit
      exact hentry
    | cons newest later =>
      exact h.entries later found earlier (List.cons.inj hsplit).2

/-- The context that changes has no part in the blocks. -/
theorem withStack (h : state.Mirrors) {stack : Stack}
    (hblocks : stack.blocks = state.stack.blocks) : Mirrors ⟨stack, state.emitted⟩ :=
  ⟨hblocks ▸ h.stack, h.entries⟩

theorem push (h : state.Mirrors) {delimiter : Delimiter} (hmask : delimiter.isIndent = false)
    (position : Position) : (state.push delimiter position).Mirrors := by
  have hframe : Frame.isIndent ⟨delimiter, position⟩ = false := hmask
  exact h.withStack (Stack.blocks_cons_of_mask hframe _)

theorem popAny (h : state.Mirrors) (hmask : state.TopIsMask) : state.popAny.Mirrors := by
  obtain ⟨⟨frames⟩, emitted⟩ := state
  cases frames with
  | nil => exact h
  | cons frame below => exact h.withStack (Stack.blocks_cons_of_mask hmask below).symm

/-- A token of the source is recorded with the blocks as they are. -/
theorem emitRaw (h : state.Mirrors) (token : Token) : (state.emit (.raw token)).Mirrors := by
  refine h.cons ⟨fun _ => ?_, ?_⟩ rfl
  · rw [openIn?_cons, h.stack]
    rfl
  · intro position htoken
    cases htoken

/-- A separator is recorded with the blocks as they are. -/
theorem emitSep (h : state.Mirrors) (position : Position) :
    (state.emit (.sep position)).Mirrors := by
  refine h.cons ⟨fun _ => ?_, ?_⟩ rfl
  · rw [openIn?_cons, h.stack]
    rfl
  · intro _ htoken
    cases htoken

/-- Opening a block right behind a token of the source. -/
theorem openBlock (h : state.Mirrors) (token : Token) {delimiter : Delimiter}
    (hblock : delimiter.isIndent = true) (next : Position) :
    ((state.emit (.raw token)).openBlock delimiter next).Mirrors := by
  have hraw := h.emitRaw token
  rcases openBlock_cases (state.emit (.raw token)) delimiter next with hsame | hopen
  · rw [hsame]
    exact hraw
  · have hframe : Frame.isIndent ⟨delimiter, next⟩ = true := hblock
    have hblocks := Stack.blocks_cons_of_isIndent hframe state.stack.frames
    rw [hopen]
    refine hraw.cons ⟨fun _ => ?_, ?_⟩ (congrArg some hblocks.symm)
    · rw [openIn?_cons]
      exact (congrArg (Option.map _) hraw.stack).trans (congrArg some hblocks.symm)
    · intro position htoken
      exact ⟨token, state.stack, state.emitted, rfl⟩

/-- Closing the innermost context, a block, with its end. -/
theorem stop {frame : Frame} {below : List Frame} {emitted : List Entry}
    (h : Mirrors ⟨⟨frame :: below⟩, emitted⟩) (hblock : frame.isIndent = true)
    (position : Position) (recorded : Stack) :
    Mirrors ⟨⟨below⟩, ⟨.stop position, recorded⟩ :: emitted⟩ := by
  refine h.cons ⟨?_, ?_⟩ ?_
  · intro hstop
    cases hstop
  · intro _ htoken
    cases htoken
  · show (some (Stack.blocks ⟨frame :: below⟩)).bind List.tail? = _
    rw [Stack.blocks_cons_of_isIndent hblock]
    rfl

/-- Each frame that closes is a mask, which nothing records, or a block with its end. -/
theorem collapseFrames (closes : Closing) (position : Position) (frames : List Frame) :
    ∀ {emitted : List Entry}, Mirrors ⟨⟨frames⟩, emitted⟩ →
      (State.collapseFrames closes position emitted frames).Mirrors := by
  induction frames with
  | nil =>
    intro emitted h
    exact h
  | cons frame below ih =>
    intro emitted h
    unfold State.collapseFrames
    split
    case isFalse => exact h
    case isTrue =>
      by_cases hblock : frame.isIndent = true
      · rw [if_pos hblock]
        exact ih (h.stop hblock position ⟨below⟩)
      · rw [if_neg hblock]
        refine ih (h.withStack ?_)
        exact (Stack.blocks_cons_of_mask (Bool.eq_false_iff.mpr hblock) below).symm

theorem collapse (h : state.Mirrors) (closes : Closing) (position : Position) :
    (state.collapse closes position).Mirrors :=
  collapseFrames closes position state.stack.frames h

/-- A separator may first drop the declaration that it ends, which is a mask. -/
theorem separate (h : state.Mirrors) (position : Position) : (state.separate position).Mirrors := by
  fun_cases State.separate state position with
  | case1 => exact h
  | case2 top haligned hdecl =>
    refine (h.popAny ?_).emitSep position
    rcases hdecl with hdecl | hdecl <;> exact congrArg Delimiter.isIndent hdecl
  | case3 => exact (h.emitSep position).push rfl position
  | case4 => exact h.emitSep position
  | case5 => exact h

/-- Trivia goes behind everything, or in front of one start at the end: in front
of that start stands a token of the source, whose stack it takes over. -/
theorem emitTrivia (h : state.Mirrors) (token : Token) : (state.emitTrivia token).Mirrors := by
  obtain ⟨stack, emitted⟩ := state
  cases emitted with
  | nil => exact h.emitRaw token
  | cons entry earlier =>
    by_cases hpast : opensPast token.span.stop entry = true
    · -- the newest entry is the start of a block that lies past the trivia
      have hstart : ∃ position, entry.token = .start position := by
        unfold opensPast at hpast
        split at hpast
        · exact ⟨_, ‹_›⟩
        · cases hpast
      obtain ⟨position, hposition⟩ := hstart
      have hentry := h.entries [] entry earlier rfl
      obtain ⟨before, recorded, oldest, rfl⟩ := hentry.behindRaw position hposition
      have hbefore := h.entries [entry] ⟨.raw before, recorded⟩ oldest rfl
      have hmoved : State.emitTrivia ⟨stack, entry :: ⟨.raw before, recorded⟩ :: oldest⟩ token
          = ⟨stack, entry :: ⟨.raw token, recorded⟩ :: ⟨.raw before, recorded⟩ :: oldest⟩ := by
        have hraw : opensPast token.span.stop ⟨.raw before, recorded⟩ = false := rfl
        simp [State.emitTrivia, hpast, hraw]
      have hopen : openIn? (entry :: ⟨.raw token, recorded⟩ :: ⟨.raw before, recorded⟩ :: oldest)
          = openIn? (entry :: ⟨.raw before, recorded⟩ :: oldest) := by
        rw [openIn?_cons, openIn?_cons, openIn?_cons entry]
        rfl
      rw [hmoved]
      constructor
      · exact hopen.trans h.stack
      · intro later found remaining hsplit
        match later with
        | [] =>
          cases hsplit
          refine ⟨fun hstop => hopen.trans (hentry.recorded hstop), fun _ _ => ⟨_, _, _, rfl⟩⟩
        | [_] =>
          cases hsplit
          refine ⟨fun _ => ?_, fun _ htoken => nomatch htoken⟩
          rw [openIn?_cons]
          exact hbefore.recorded rfl
        | _ :: _ :: later =>
          obtain ⟨rfl, hrest⟩ := List.cons.inj hsplit
          exact h.entries (entry :: later) found remaining
            (congrArg (entry :: ·) (List.cons.inj hrest).2)
    · have hlast : State.emitTrivia ⟨stack, entry :: earlier⟩ token
          = State.emit ⟨stack, entry :: earlier⟩ (.raw token) := by
        simp [State.emitTrivia, State.emit, hpast]
      rw [hlast]
      exact h.emitRaw token

-- ================================================= the parts of a step

/-- One context popped by hand, a block, and one end. -/
theorem popAny_emitStop (h : state.Mirrors) (hblock : state.stack.top.isIndent = true)
    (position : Position) : (state.popAny.emitStop position).Mirrors := by
  obtain ⟨⟨frames⟩, emitted⟩ := state
  cases frames with
  | nil => cases hblock
  | cons frame below => exact h.stop hblock position ⟨below⟩

/-- Two contexts popped by hand, both blocks, and two ends. The first end is
recorded under the stack that only the second one leaves. -/
theorem popAny_popAny_emitStop (h : state.Mirrors) (hinner : state.stack.top.isIndent = true)
    (houter : state.stack.pop.top.isIndent = true) (position : Position) :
    ((state.popAny.popAny.emitStop position).emitStop position).Mirrors := by
  obtain ⟨⟨frames⟩, emitted⟩ := state
  match frames with
  | [] => cases hinner
  | [_] => cases houter
  | _ :: _ :: below =>
    exact (h.stop hinner position ⟨below⟩).stop houter position ⟨below⟩

variable {after : State} {position : Position}

theorem collapses (h : state.Mirrors) (collapses : Collapses position state after) :
    after.Mirrors := by
  induction collapses with
  | refl => exact h
  | collapse _ _ ih => exact ih.collapse _ _

/-- Whatever closes in front of a token, an end is emitted for each block and for no mask. -/
theorem closes (h : state.Mirrors) (closes : Closes position state after) : after.Mirrors := by
  induction closes with
  | collapses collapses => exact h.collapses collapses
  | popMask hmask _ ih => exact ih.popAny hmask
  | pushMask hmask _ ih => exact ih.push hmask position
  | stop hblock _ ih => exact ih.popAny_emitStop hblock position
  | stops hinner houter _ ih => exact ih.popAny_popAny_emitStop hinner houter position

/-- What a step does in front of its token: it closes contexts, and it may separate. -/
theorem settles (h : state.Mirrors) (settles : Settles position state after) :
    after.Mirrors := by
  cases settles with
  | closes closes => exact h.closes closes
  | separate collapses => exact (h.collapses collapses).separate position

theorem masks (h : state.Mirrors) (masks : Masks state after) : after.Mirrors := by
  induction masks with
  | refl => exact h
  | pop hmask _ ih => exact ih.popAny hmask
  | push position hmask _ ih => exact ih.push hmask position

/-- What follows the token: a block opens right behind it or not at all. -/
theorem follows (h : state.Mirrors) {token : Token} {next : Position}
    (follows : Follows next (state.emit (.raw token)) after) : after.Mirrors := by
  cases follows with
  | masks masks => exact (h.emitRaw token).masks masks
  | openBlock hblock => exact h.openBlock token hblock next
  | openMasked hblock hmask => exact (h.openBlock token hblock next).push hmask next

/-- Whatever the action, a step keeps the stack and the output in agreement. -/
theorem step (h : state.Mirrors) (token : Token) (next : Position) (action : Action) :
    (state.step token next action).Mirrors := by
  obtain ⟨settled, hsettles, hfollows⟩ := step_settles token next state action
  exact (h.settles hsettles).follows hfollows

end Mirrors

-- ================================================================ the run

/-- A run keeps the agreement, since every move does. -/
theorem Mirrors.foldl_move {state : State} (h : state.Mirrors) (moves : List Move) :
    (moves.foldl move state).Mirrors := by
  induction moves generalizing state with
  | nil => exact h
  | cons next moves ih =>
    cases next with
    | trivia token => exact ih (h.emitTrivia token)
    | fold token next action => exact ih (h.step token next action)

theorem mirrors_afterMoves (moves : List Move) : (afterMoves moves).Mirrors :=
  mirrors_initial.foldl_move moves

theorem mirrors_run (rules : Rules) (eof : Position) (tokens : List Token) :
    (initial.run rules eof tokens).Mirrors := by
  rw [run_eq_foldl]
  exact mirrors_initial.foldl_move _

/-- At the end every context is closed, so every block is. -/
theorem Mirrors.openIn?_unwind {state : State} (h : state.Mirrors) (eof : Position) :
    openIn? (state.unwind eof).emitted = some [] := by
  have hend := (h.collapse (fun _ _ => true) eof).stack
  rw [stack_collapse] at hend
  have hempty : (state.stack.frames.dropWhile fun _ => true) = [] := by
    induction state.stack.frames with
    | nil => rfl
    | cons frame below ih => exact ih
  unfold collapsed at hend
  rw [hempty] at hend
  exact hend

end State

-- ========================================================= the output

theorem openBlocks?_append (tokens more : List LayoutToken) :
    openBlocks? (tokens ++ more) = more.foldl openAfter? (openBlocks? tokens) :=
  List.foldl_append

/-- Nothing comes of a token once an end has closed nothing. -/
theorem foldl_openAfter?_none (tokens : List LayoutToken) :
    tokens.foldl openAfter? none = none := by
  induction tokens with
  | nil => rfl
  | cons token rest ih => cases token <;> exact ih

/-- If the whole is balanced so far, each front of it is. -/
theorem openBlocks?_front {tokens more : List LayoutToken} {blocks : List Position}
    (h : openBlocks? (tokens ++ more) = some blocks) :
    ∃ inner, openBlocks? tokens = some inner := by
  rw [openBlocks?_append] at h
  cases hbefore : openBlocks? tokens with
  | some inner => exact ⟨inner, rfl⟩
  | none =>
    rw [hbefore, foldl_openAfter?_none] at h
    cases h

/-- The token opens a block. -/
def isStart : LayoutToken → Bool
  | .start _ => true
  | _ => false

/-- What is open was started and not ended. -/
theorem countP_isStop_add_length (tokens : List LayoutToken) : ∀ {before blocks : List Position},
    tokens.foldl openAfter? (some before) = some blocks →
      tokens.countP isStop + blocks.length = tokens.countP isStart + before.length := by
  induction tokens with
  | nil =>
    intro before blocks h
    cases h
    rfl
  | cons token rest ih =>
    intro before blocks h
    rw [List.foldl_cons] at h
    rw [List.countP_cons, List.countP_cons]
    cases token with
    | start position =>
      have hcount := ih h
      simp only [isStop, isStart, if_true, List.length_cons] at hcount ⊢
      simp only [Bool.false_eq_true, if_false]
      omega
    | sep position => exact ih h
    | raw token => exact ih h
    | stop position =>
      cases before with
      | nil =>
        rw [show openAfter? (some []) (.stop position) = none from rfl,
          foldl_openAfter?_none] at h
        cases h
      | cons block before =>
        have hrest : rest.foldl openAfter? (some before) = some blocks := h
        have hcount := ih hrest
        simp only [isStop, isStart, if_true, List.length_cons] at hcount ⊢
        simp only [Bool.false_eq_true, if_false]
        omega

/-- Every entry but an end is recorded with a stack whose blocks are those that are
open just after it. -/
def RecordsBlocks (entries : List Entry) : Prop :=
  ∀ before entry later, entries = before ++ entry :: later → isStop entry.token = false →
    openBlocks? ((before ++ [entry]).map Entry.token) = some entry.stack.blocks

/-- The same for the output, which is what was emitted, oldest first. -/
theorem State.Mirrors.recordsBlocks {state : State} (h : state.Mirrors) :
    RecordsBlocks state.output := by
  intro before entry later hsplit hstop
  have hemitted : state.emitted = later.reverse ++ entry :: before.reverse := by
    rw [← List.reverse_reverse state.emitted, ← State.output, hsplit]
    simp
  have hrecorded := (h.entries _ _ _ hemitted).recorded hstop
  unfold openIn? at hrecorded
  rwa [List.reverse_cons, List.reverse_reverse] at hrecorded

/-- At the end of a layout no block is open. -/
theorem openBlocks?_tokensOf (rules : Rules) (tokens : List Token) (eof : Position) :
    openBlocks? (tokensOf rules tokens eof) = some [] :=
  (State.mirrors_run rules eof tokens).openIn?_unwind eof

/-- The layout is balanced, and the stack mirrors it. After any moves, the blocks
on the stack are the blocks that are open in the output, and every entry but an
end is recorded with the blocks that are open just after it. The pass over a
text is such a sequence of moves; at its end every block is closed, no prefix
has more ends than starts, and each end closes the innermost open block. -/
theorem blocks_balanced :
    (∀ moves : List State.Move,
      openBlocks? ((State.afterMoves moves).output.map Entry.token)
          = some (State.afterMoves moves).stack.blocks
        ∧ RecordsBlocks (State.afterMoves moves).output)
      ∧ ∀ (rules : Rules) (tokens : List Token) (eof : Position),
        State.initial.run rules eof tokens = State.afterMoves (State.movesOf rules eof tokens)
          ∧ RecordsBlocks (annotate rules tokens eof)
          ∧ openBlocks? (tokensOf rules tokens eof) = some []
          ∧ ∀ before later, tokensOf rules tokens eof = before ++ later →
            before.countP isStop ≤ before.countP isStart
              ∧ ∀ position rest, later = .stop position :: rest →
                ∃ block outer, openBlocks? before = some (block :: outer)
                  ∧ openBlocks? (before ++ [.stop position]) = some outer := by
  constructor
  · intro moves
    have hmirrors := State.mirrors_afterMoves moves
    exact ⟨hmirrors.stack, hmirrors.recordsBlocks⟩
  · intro rules tokens eof
    have hrun := State.mirrors_run rules eof tokens
    have hclosed := openBlocks?_tokensOf rules tokens eof
    refine ⟨State.run_eq_foldl rules eof tokens _, ?_, hclosed, ?_⟩
    · exact (hrun.collapse (fun _ _ => true) eof).recordsBlocks
    · intro before later hsplit
      rw [hsplit] at hclosed
      -- what is balanced as a whole is balanced in front of any token
      obtain ⟨blocks, hblocks⟩ := openBlocks?_front hclosed
      constructor
      · have hcount := countP_isStop_add_length before hblocks
        rw [List.length_nil] at hcount
        omega
      · intro position rest hlater
        rw [hlater, List.append_cons] at hclosed
        obtain ⟨outer, houter⟩ := openBlocks?_front hclosed
        have hstep := openBlocks?_append before [.stop position]
        rw [houter, hblocks] at hstep
        -- an end in the layout has a block to close, or the rest would not be balanced
        cases blocks with
        | nil => cases hstep
        | cons block below =>
          have hbelow : outer = below := Option.some.inj hstep
          exact ⟨block, below, hblocks, hbelow ▸ houter⟩

end Offside.Layout
