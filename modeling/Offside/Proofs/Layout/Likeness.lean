import Mathlib.Data.List.Forall2
import Offside.Layout.Blocks

/-!
Two layout passes side by side.

A step reads little of its state: the reasons of the open contexts, and how the
lines and columns of their positions compare with those of the token. A
`Likeness` relates positions that agree in these comparisons, and says what the
outputs of the two passes have in common. Whatever it says, a step carries it
along (`Likeness.step`).

# The shape of the proof

There is one lemma for each move of the pass, and from these one for each action.
A condition that a step tests comes out the same on both sides, since the stacks
agree frame by frame (`Likeness.Stacks`). The root lies under both stacks. Its
position is never compared: it is neither a block nor a declaration.
-/

namespace Offside

-- ============================================================ what is alike

/-- Layout tokens of one form that correspond. -/
inductive LayoutToken.Alike (Same : Position → Position → Prop) (Tokens : Token → Token → Prop) :
    LayoutToken → LayoutToken → Prop
  | start {p q : Position} (h : Same p q) : Alike Same Tokens (.start p) (.start q)
  | sep {p q : Position} (h : Same p q) : Alike Same Tokens (.sep p) (.sep q)
  | stop {p q : Position} (h : Same p q) : Alike Same Tokens (.stop p) (.stop q)
  | raw {token other : Token} (h : Tokens token other) : Alike Same Tokens (.raw token) (.raw other)

namespace Layout

/-- Contexts that are open for one reason, at positions that correspond. -/
structure Frame.Alike (Same : Position → Position → Prop) (frame other : Frame) : Prop where
  delimiter : frame.delimiter = other.delimiter
  position : Same frame.position other.position

/-- What two passes that go side by side have in common. -/
structure Likeness where
  /-- Positions that correspond. -/
  Same : Position → Position → Prop
  /-- Significant tokens that correspond. -/
  Tokens : Token → Token → Prop
  /-- Outputs that correspond, newest first. -/
  Written : List Entry → List Entry → Prop
  column_lt : ∀ {p q p' q' : Position}, Same p p' → Same q q' →
    (p.column < q.column ↔ p'.column < q'.column)
  line_eq : ∀ {p q p' q' : Position}, Same p p' → Same q q' →
    (p.line = q.line ↔ p'.line = q'.line)
  start : ∀ {token other : Token}, Tokens token other → Same token.start other.start
  /-- One more token on both sides, under corresponding stacks. -/
  cons : ∀ {emitted emitted' : List Entry} {entry entry' : Entry}, Written emitted emitted' →
    entry.token.Alike Same Tokens entry'.token →
    List.Forall₂ (Frame.Alike Same) entry.stack.frames entry'.stack.frames →
    Written (entry :: emitted) (entry' :: emitted')

namespace Likeness

variable (like : Likeness)

/-- Frame by frame, the stacks are alike. -/
def Stacks (stack other : Stack) : Prop :=
  List.Forall₂ (Frame.Alike like.Same) stack.frames other.frames

/-- The stacks are alike, and the outputs correspond. -/
structure States (state other : State) : Prop where
  stack : like.Stacks state.stack other.stack
  emitted : like.Written state.emitted other.emitted

variable {like} {stack stack' : Stack} {state other : State} {frame frame' : Frame}
  {p q p' q' : Position} {token token' : Token}

-- ============================================================== comparisons

theorem column_le (hp : like.Same p p') (hq : like.Same q q') :
    p.column ≤ q.column ↔ p'.column ≤ q'.column := by
  rw [← Nat.not_lt, ← Nat.not_lt, like.column_lt hq hp]

theorem column_eq (hp : like.Same p p') (hq : like.Same q q') :
    p.column = q.column ↔ p'.column = q'.column := by
  rw [Nat.le_antisymm_iff, Nat.le_antisymm_iff, column_le hp hq, column_le hq hp]

theorem isIndent_eq (h : frame.Alike like.Same frame') : frame.isIndent = frame'.isIndent :=
  congrArg Delimiter.isIndent h.delimiter

/-- The innermost contexts are open for the same reason. -/
theorem Stacks.delimiter_eq (h : like.Stacks stack stack') :
    stack.delimiter = stack'.delimiter := by
  obtain ⟨frames⟩ := stack
  obtain ⟨frames'⟩ := stack'
  cases h with
  | nil => rfl
  | cons hframe _ => exact hframe.delimiter

theorem Stacks.isIndent_top (h : like.Stacks stack stack') :
    stack.top.isIndent = stack'.top.isIndent :=
  congrArg Delimiter.isIndent h.delimiter_eq

/-- The innermost contexts are alike, or both are the root. -/
theorem Stacks.top (h : like.Stacks stack stack') :
    stack.top.Alike like.Same stack'.top ∨ (stack.top = .root ∧ stack'.top = .root) := by
  obtain ⟨frames⟩ := stack
  obtain ⟨frames'⟩ := stack'
  cases h with
  | nil => exact .inr ⟨rfl, rfl⟩
  | cons hframe _ => exact .inl hframe

theorem Stacks.pop (h : like.Stacks stack stack') : like.Stacks stack.pop stack'.pop := by
  obtain ⟨frames⟩ := stack
  obtain ⟨frames'⟩ := stack'
  cases h with
  | nil => exact .nil
  | cons _ hbelow => exact hbelow

/-- A declaration may start on both sides or on neither, since that takes one block in its
column. -/
theorem Stacks.startsTopDecl_eq (h : like.Stacks stack stack') (hp : like.Same p p') :
    stack.startsTopDecl p = stack'.startsTopDecl p' := by
  obtain ⟨frames⟩ := stack
  obtain ⟨frames'⟩ := stack'
  cases h with
  | nil => rfl
  | cons hframe hbelow =>
    cases hbelow with
    | nil =>
      unfold Stack.startsTopDecl
      dsimp only
      rw [hframe.delimiter, Bool.eq_iff_iff, Bool.and_eq_true, Bool.and_eq_true, beq_iff_eq,
        beq_iff_eq, beq_iff_eq, column_eq hframe.position hp]
    | cons => rfl

/-- The innermost blocks are alike, or neither stack has one. -/
theorem Stacks.innermostBlock? (h : like.Stacks stack stack') :
    Option.Rel (Frame.Alike like.Same) stack.innermostBlock? stack'.innermostBlock? := by
  obtain ⟨frames⟩ := stack
  obtain ⟨frames'⟩ := stack'
  unfold Stack.innermostBlock? Stack.find? Stack.toList
  change List.Forall₂ _ frames frames' at h
  induction h with
  | nil => exact .none
  | @cons frame frame' _ _ hframe _ ih =>
    rw [List.cons_append, List.cons_append, List.find?_cons, List.find?_cons, hframe.delimiter]
    cases frame'.delimiter.isIndent with
    | true => exact .some hframe
    | false => exact ih

-- ================================================================== closings

variable (like) in
/-- The decision comes out the same on both sides. -/
def Decides (closes : Closing) : Prop :=
  ∀ {p p' : Position} {frame frame' : Frame}, like.Same p p' → frame.Alike like.Same frame' →
    closes p frame = closes p' frame'

theorem decides_indented : like.Decides .indented := fun _ hframe => isIndent_eq hframe

/-- A block lies right of the token on both sides or on neither. -/
theorem decides_offside : like.Decides .offside := by
  intro p p' frame frame' hp hframe
  unfold Closing.offside
  rw [isIndent_eq hframe, decide_eq_decide.mpr (like.column_lt hp hframe.position)]

theorem decides_offsideEnd : like.Decides .offsideEnd := by
  intro p p' frame frame' hp hframe
  unfold Closing.offsideEnd
  rw [isIndent_eq hframe, decide_eq_decide.mpr (column_le hp hframe.position)]

/-- What a `where` closes is decided by reasons and columns. -/
theorem decides_beforeWhere : like.Decides .beforeWhere := by
  intro p p' frame frame' hp hframe
  unfold Closing.beforeWhere
  rw [hframe.delimiter, decides_offsideEnd hp hframe]

theorem decides_beforeIn : like.Decides .beforeIn := by
  intro p p' frame frame' hp hframe
  unfold Closing.beforeIn
  rw [hframe.delimiter, isIndent_eq hframe]

theorem decides_beforeArrow : like.Decides .beforeArrow := by
  intro p p' frame frame' hp hframe
  unfold Closing.beforeArrow
  rw [hframe.delimiter, decides_offsideEnd hp hframe]

theorem decides_beforeEquals : like.Decides .beforeEquals := by
  intro p p' frame frame' hp hframe
  unfold Closing.beforeEquals
  rw [hframe.delimiter]

theorem decides_always : like.Decides fun _ _ => true := fun _ _ => rfl

-- ===================================================================== moves

variable {closes : Closing}

/-- The same number of frames closes on both sides. -/
theorem Stacks.dropWhile (h : like.Stacks stack stack') (hcloses : like.Decides closes)
    (hp : like.Same p p') :
    like.Stacks ⟨stack.frames.dropWhile (closes p)⟩ ⟨stack'.frames.dropWhile (closes p')⟩ := by
  obtain ⟨frames⟩ := stack
  obtain ⟨frames'⟩ := stack'
  change List.Forall₂ _ frames frames' at h
  unfold Stacks
  dsimp only
  induction h with
  | nil => exact .nil
  | @cons frame frame' _ _ hframe hbelow ih =>
    rw [List.dropWhile_cons, List.dropWhile_cons, hcloses hp hframe]
    split
    · exact ih
    · exact .cons hframe hbelow

theorem States.collapsed (h : like.States state other) (hcloses : like.Decides closes)
    (hp : like.Same p p') : like.Stacks (state.collapsed closes p) (other.collapsed closes p') :=
  h.stack.dropWhile hcloses hp

/-- Contexts opened for one reason at positions that correspond keep the states alike. -/
theorem States.push (h : like.States state other) (delimiter : Delimiter) (hp : like.Same p p') :
    like.States (state.push delimiter p) (other.push delimiter p') :=
  ⟨.cons ⟨rfl, hp⟩ h.stack, h.emitted⟩

/-- A conditional pop looks at the reason alone, so it drops a frame on both sides or on neither. -/
theorem States.popIf (h : like.States state other) (keeps : Delimiter → Bool) :
    like.States (state.popIf keeps) (other.popIf keeps) := by
  obtain ⟨⟨frames⟩, emitted⟩ := state
  obtain ⟨⟨frames'⟩, emitted'⟩ := other
  cases h.stack with
  | nil => exact h
  | cons hframe hbelow =>
    unfold State.popIf
    dsimp only
    rw [hframe.delimiter]
    split
    · exact ⟨hbelow, h.emitted⟩
    · exact h

theorem States.popAny (h : like.States state other) : like.States state.popAny other.popAny :=
  h.popIf _

theorem States.endLabel (h : like.States state other) : like.States state.endLabel other.endLabel :=
  h.popIf _

/-- Tokens that correspond are written under stacks that are alike. -/
theorem States.emit (h : like.States state other) {token token' : LayoutToken}
    (htoken : token.Alike like.Same like.Tokens token') :
    like.States (state.emit token) (other.emit token') :=
  ⟨h.stack, like.cons h.emitted htoken h.stack⟩

theorem States.emitRaw (h : like.States state other) (htoken : like.Tokens token token') :
    like.States (state.emit (.raw token)) (other.emit (.raw token')) :=
  h.emit (.raw htoken)

theorem States.emitStop (h : like.States state other) (hp : like.Same p p') :
    like.States (state.emitStop p) (other.emitStop p') :=
  h.emit (.stop hp)

/-- A block opens on both sides or on neither, since its column is compared with that of the
innermost block. -/
theorem States.openBlock (h : like.States state other) (delimiter : Delimiter)
    (hp : like.Same p p') :
    like.States (state.openBlock delimiter p) (other.openBlock delimiter p') := by
  have hopen : like.States ((state.push delimiter p).emit (.start p))
      ((other.push delimiter p').emit (.start p')) := (h.push delimiter hp).emit (.start hp)
  have hblock := h.stack.innermostBlock?
  unfold State.openBlock
  cases hstate : state.stack.innermostBlock? with
  | none =>
    cases hother : other.stack.innermostBlock? with
    | none => exact hopen
    | some block' =>
      rw [hstate, hother] at hblock
      cases hblock
  | some block =>
    cases hother : other.stack.innermostBlock? with
    | none =>
      rw [hstate, hother] at hblock
      cases hblock
    | some block' =>
      rw [hstate, hother] at hblock
      cases hblock with
      | some hframe =>
        have hcolumn := like.column_lt hframe.position hp
        simp only [decide_eq_true_iff, hcolumn]
        split
        · exact hopen
        · exact h

/-- Frames close side by side, with an end for each block on both sides. -/
theorem collapseFrames (hcloses : like.Decides closes) (hp : like.Same p p')
    {frames frames' : List Frame} (hframes : List.Forall₂ (Frame.Alike like.Same) frames frames') :
    ∀ {emitted emitted' : List Entry}, like.Written emitted emitted' →
      like.States (State.collapseFrames closes p emitted frames)
        (State.collapseFrames closes p' emitted' frames') := by
  induction hframes with
  | nil => exact fun hemitted => ⟨.nil, hemitted⟩
  | cons hframe hbelow ih =>
    intro emitted emitted' hemitted
    unfold State.collapseFrames
    rw [hcloses hp hframe, isIndent_eq hframe]
    split
    · refine ih ?_
      split
      · exact like.cons hemitted (.stop hp) hbelow
      · exact hemitted
    · exact ⟨.cons hframe hbelow, hemitted⟩

/-- Closing by a rule keeps the states alike if the rule decides the same on both sides. -/
theorem States.collapse (h : like.States state other) (hcloses : like.Decides closes)
    (hp : like.Same p p') : like.States (state.collapse closes p) (other.collapse closes p') :=
  collapseFrames hcloses hp h.stack h.emitted

/-- The token is separated on both sides or on neither, and in the same way. -/
theorem States.separate (h : like.States state other) (hp : like.Same p p') :
    like.States (state.separate p) (other.separate p') := by
  rcases h.stack.top with htop | ⟨htop, htop'⟩
  · have haligned : (p.column ≠ state.stack.top.position.column
          ∨ p.line = state.stack.top.position.line)
        ↔ (p'.column ≠ other.stack.top.position.column
          ∨ p'.line = other.stack.top.position.line) := by
      rw [Ne, column_eq hp htop.position, like.line_eq hp htop.position]
    unfold State.separate
    dsimp only
    rw [htop.delimiter, isIndent_eq htop]
    simp only [haligned]
    split
    · exact h
    · split
      · exact h.popAny.emit (.sep hp)
      · split
        · exact (h.emit (.sep hp)).push .caseBinders hp
        · split
          · exact h.emit (.sep hp)
          · exact h
  · -- behind the root nothing is separated, wherever the token stands
    have hroot : ∀ {state : State} {p : Position}, state.stack.top = .root →
        state.separate p = state := by
      intro state p hroot
      unfold State.separate
      dsimp only
      rw [hroot]
      exact ite_self state
    rw [hroot htop, hroot htop']
    exact h

theorem States.emitDefault (h : like.States state other) (htoken : like.Tokens token token') :
    like.States (state.emitDefault token) (other.emitDefault token') :=
  ((h.collapse decides_offside (like.start htoken)).separate (like.start htoken)).emitRaw htoken

-- =================================================================== actions

/-- The word is a plain label on both sides or on neither. -/
theorem States.emitKeyword (h : like.States state other) (htoken : like.Tokens token token')
    {after after' : State → State}
    (hafter : ∀ {state other}, like.States state other → like.States (after state) (after' other)) :
    like.States (state.emitKeyword token after) (other.emitKeyword token' after') := by
  unfold State.emitKeyword
  rw [h.stack.delimiter_eq]
  split
  · exact (h.emitDefault htoken).popAny
  · exact hafter (h.emitDefault htoken)

/-- A declaration starts on both sides or on neither. -/
theorem States.stepDefault (h : like.States state other) (htoken : like.Tokens token token') :
    like.States (state.stepDefault token) (other.stepDefault token') := by
  have hemitted := h.emitDefault htoken
  unfold State.stepDefault
  dsimp only
  rw [hemitted.stack.startsTopDecl_eq (like.start htoken)]
  split
  · exact hemitted.push .topDecl (like.start htoken)
  · exact hemitted

/-- The context of a head opens on both sides, or a label ends on both. -/
theorem States.stepHead (h : like.States state other) (htoken : like.Tokens token token')
    (delimiter : Delimiter) :
    like.States (state.stepHead token delimiter) (other.stepHead token' delimiter) := by
  have hemitted := h.emitDefault htoken
  unfold State.stepHead
  dsimp only
  rw [hemitted.stack.startsTopDecl_eq (like.start htoken)]
  split
  · exact hemitted.push delimiter (like.start htoken)
  · exact hemitted.endLabel

/-- The innermost contexts decide what a `where` ends, and they are alike. -/
theorem States.stepWhere (h : like.States state other) (htoken : like.Tokens token token')
    (hp : like.Same p p') : like.States (state.stepWhere token p) (other.stepWhere token' p') := by
  unfold State.stepWhere
  rw [h.stack.delimiter_eq]
  split
  · exact (h.popAny.emitRaw htoken).openBlock .whereBlock hp
  · exact h.popAny.emitRaw htoken
  · exact ((h.collapse decides_beforeWhere (like.start htoken)).emitRaw htoken).openBlock
      .whereBlock hp

/-- What an `in` ends is read off the stacks that closing would leave. -/
theorem States.stepIn (h : like.States state other) (htoken : like.Tokens token token') :
    like.States (state.stepIn token) (other.stepIn token') := by
  have hp := like.start htoken
  have hclosed := h.collapsed decides_beforeIn hp
  have hcollapse := h.collapse decides_beforeIn hp
  unfold State.stepIn
  dsimp only
  rw [hclosed.delimiter_eq, hclosed.pop.delimiter_eq, hclosed.isIndent_top]
  split
  · exact ((hcollapse.popAny.popAny.emitStop hp).emitStop hp).emitRaw htoken
  · split
    · exact (hcollapse.popAny.emitStop hp).emitRaw htoken
    · exact (h.emitDefault htoken).endLabel

/-- A `let` is a statement on both sides, or on neither. -/
theorem Stacks.isStatement_eq (h : like.Stacks stack stack') (hp : like.Same p p') :
    ((stack.top.delimiter == .doBlock || stack.top.delimiter == .adoBlock)
        && stack.top.position.column == p.column)
      = ((stack'.top.delimiter == .doBlock || stack'.top.delimiter == .adoBlock)
        && stack'.top.position.column == p'.column) := by
  rcases h.top with htop | ⟨htop, htop'⟩
  · rw [htop.delimiter, Bool.eq_iff_iff, Bool.and_eq_true, Bool.and_eq_true, beq_iff_eq,
      beq_iff_eq, column_eq htop.position hp]
  · rw [htop, htop']
    rfl

/-- A `let` opens statements on both sides or on neither. -/
theorem States.stepLet (h : like.States state other) (htoken : like.Tokens token token')
    (hp : like.Same p p') : like.States (state.stepLet token p) (other.stepLet token' p') := by
  refine h.emitKeyword htoken fun {state other} hemitted => ?_
  dsimp only
  rw [hemitted.stack.isStatement_eq (like.start htoken)]
  exact hemitted.openBlock _ hp

/-- An `of` ends the head of a `case` on both sides or on neither. -/
theorem States.stepOf (h : like.States state other) (htoken : like.Tokens token token')
    (hp : like.Same p p') : like.States (state.stepOf token p) (other.stepOf token' p') := by
  have hcollapse := h.collapse decides_indented (like.start htoken)
  unfold State.stepOf
  dsimp only
  rw [hcollapse.stack.delimiter_eq]
  split
  · exact ((hcollapse.popAny.emitRaw htoken).openBlock .ofBlock hp).push .caseBinders hp
  · exact (hcollapse.emitDefault htoken).endLabel

/-- A `then` ends the condition of an `if` on both sides or on neither. -/
theorem States.stepThen (h : like.States state other) (htoken : like.Tokens token token') :
    like.States (state.stepThen token) (other.stepThen token') := by
  have hp := like.start htoken
  unfold State.stepThen
  rw [(h.collapsed decides_indented hp).delimiter_eq]
  split
  · exact ((h.collapse decides_indented hp).popAny.emitRaw htoken).push .thenBranch hp
  · exact (h.emitDefault htoken).endLabel

/-- A chain of instances goes on at an `else` on both sides or on neither. -/
theorem Stacks.continuesInstances_eq (h : like.Stacks state.stack other.stack)
    (hp : like.Same p p') : state.continuesInstances p = other.continuesInstances p' := by
  unfold State.continuesInstances
  dsimp only
  rw [h.startsTopDecl_eq hp, h.pop.startsTopDecl_eq hp, h.delimiter_eq]

/-- An `else` ends the branch of a `then` on both sides or on neither. -/
theorem States.stepElse (h : like.States state other) (htoken : like.Tokens token token') :
    like.States (state.stepElse token) (other.stepElse token') := by
  have hp := like.start htoken
  have hcollapse := h.collapse decides_offside hp
  unfold State.stepElse
  dsimp only
  rw [(h.collapsed decides_indented hp).delimiter_eq, hcollapse.stack.continuesInstances_eq hp]
  split
  · exact (h.collapse decides_indented hp).popAny.emitRaw htoken
  · split
    · exact hcollapse.emitRaw htoken
    · exact ((hcollapse.separate hp).emitRaw htoken).endLabel

theorem States.stepArrow (h : like.States state other) (htoken : like.Tokens token token') :
    like.States (state.stepArrow token) (other.stepArrow token') :=
  ((h.collapse decides_beforeArrow (like.start htoken)).popIf _).emitRaw htoken

/-- An equals sign ends the guard of a local declaration on both sides or on neither. -/
theorem States.stepEquals (h : like.States state other) (htoken : like.Tokens token token') :
    like.States (state.stepEquals token) (other.stepEquals token') := by
  have hp := like.start htoken
  unfold State.stepEquals
  rw [(h.collapsed decides_beforeEquals hp).delimiter_eq]
  split
  · exact (h.collapse decides_beforeEquals hp).popAny.emitRaw htoken
  · exact h.emitDefault htoken

/-- The block that a bar stands in decides which guard it opens. -/
theorem States.stepPipe (h : like.States state other) (htoken : like.Tokens token token') :
    like.States (state.stepPipe token) (other.stepPipe token') := by
  have hp := like.start htoken
  have hcollapse := h.collapse decides_offsideEnd hp
  unfold State.stepPipe
  rw [(h.collapsed decides_offsideEnd hp).delimiter_eq]
  split
  · exact (hcollapse.push .caseGuard hp).emitRaw htoken
  · exact (hcollapse.push .declGuard hp).emitRaw htoken
  · exact (hcollapse.push .declGuard hp).emitRaw htoken
  · exact (hcollapse.push .declGuard hp).emitRaw htoken
  · exact h.emitDefault htoken

theorem States.stepOperator (h : like.States state other) (htoken : like.Tokens token token') :
    like.States (state.stepOperator token) (other.stepOperator token') :=
  ((h.collapse decides_offsideEnd (like.start htoken)).separate (like.start htoken)).emitRaw htoken

/-- A backquote ends an infix section on both sides, or opens one on both. -/
theorem States.stepTick (h : like.States state other) (htoken : like.Tokens token token') :
    like.States (state.stepTick token) (other.stepTick token') := by
  have hp := like.start htoken
  unfold State.stepTick
  rw [(h.collapsed decides_indented hp).delimiter_eq]
  split
  · exact (h.collapse decides_indented hp).popAny.emitRaw htoken
  · exact (h.stepOperator htoken).push .tick hp

/-- A comma is in a record on both sides or on neither. -/
theorem States.stepComma (h : like.States state other) (htoken : like.Tokens token token') :
    like.States (state.stepComma token) (other.stepComma token') := by
  have hp := like.start htoken
  have hemitted := (h.collapse decides_indented hp).emitRaw htoken
  unfold State.stepComma
  dsimp only
  rw [hemitted.stack.delimiter_eq]
  split
  · exact hemitted.push .property hp
  · exact hemitted

/-- A point ends the binders of a `forall` on both sides or on neither. -/
theorem States.stepDot (h : like.States state other) (htoken : like.Tokens token token') :
    like.States (state.stepDot token) (other.stepDot token') := by
  have hemitted := h.emitDefault htoken
  unfold State.stepDot
  dsimp only
  rw [hemitted.stack.delimiter_eq]
  split
  · exact hemitted.popAny
  · exact hemitted.push .property (like.start htoken)

theorem States.stepClose (h : like.States state other) (htoken : like.Tokens token token')
    (delimiter : Delimiter) :
    like.States (state.stepClose token delimiter) (other.stepClose token' delimiter) :=
  ((h.collapse decides_indented (like.start htoken)).popIf _).emitRaw htoken

theorem States.stepCloseBrace (h : like.States state other) (htoken : like.Tokens token token') :
    like.States (state.stepCloseBrace token) (other.stepCloseBrace token') :=
  ((h.collapse decides_indented (like.start htoken)).endLabel.popIf _).emitRaw htoken

-- ================================================================== the step

/-- Whatever the action, corresponding tokens keep the states alike. -/
theorem States.step (h : like.States state other) (htoken : like.Tokens token token')
    (hp : like.Same p p') (action : Action) :
    like.States (state.step token p action) (other.step token' p' action) := by
  have hstart := like.start htoken
  cases action with
  | default => exact h.stepDefault htoken
  | label => exact h.stepHead htoken .topDecl
  | declHead => exact h.stepHead htoken .topDeclHead
  | whereKeyword => exact h.stepWhere htoken hp
  | inKeyword => exact h.stepIn htoken
  | letKeyword => exact h.stepLet htoken hp
  | doKeyword => exact h.emitKeyword htoken (·.openBlock .doBlock hp)
  | adoKeyword => exact h.emitKeyword htoken (·.openBlock .adoBlock hp)
  | caseKeyword => exact h.emitKeyword htoken (·.push .caseHead hstart)
  | ofKeyword => exact h.stepOf htoken hp
  | ifKeyword => exact h.emitKeyword htoken (·.push .ifHead hstart)
  | thenKeyword => exact h.stepThen htoken
  | elseKeyword => exact h.stepElse htoken
  | forallKeyword => exact h.emitKeyword htoken (·.push .forallBinders hstart)
  | backslash => exact (h.emitDefault htoken).push .lambdaBinders hstart
  | arrow => exact h.stepArrow htoken
  | equals => exact h.stepEquals htoken
  | pipe => exact h.stepPipe htoken
  | tick => exact h.stepTick htoken
  | comma => exact h.stepComma htoken
  | dot => exact h.stepDot htoken
  | openParen => exact (h.emitDefault htoken).push .paren hstart
  | openBrace => exact ((h.emitDefault htoken).push .brace hstart).push .property hstart
  | openSquare => exact (h.emitDefault htoken).push .square hstart
  | closeParen => exact h.stepClose htoken .paren
  | closeBrace => exact h.stepCloseBrace htoken
  | closeSquare => exact h.stepClose htoken .square
  | operator => exact h.stepOperator htoken

/-- At the end all contexts are closed on both sides. -/
theorem States.unwind (h : like.States state other) (hp : like.Same p p') :
    like.States (state.unwind p) (other.unwind p') :=
  h.collapse decides_always hp

end Likeness

end Layout

end Offside
