import Mathlib.Data.List.Chain
import Offside.Proofs.Layout.Moves

/-!
Which tokens may stand next to each other in a layout.

`LayoutToken.MayPrecede` says it for two significant tokens in a row: a
separator stands right before the token of the source that it belongs to, and
an end before what was settled at the same place; a start is followed by no
separator and by no other start.

# The invariant

While a step settles the contexts at the position of its token, the newest
significant token is no separator, and an end only at that position
(`State.Settling`). That no separator follows a start takes more: as long as
the newest token is a start, the innermost context stands where the next token
does (`State.Ready`), on the same line, and so separates nothing. The first
block that closes puts an end behind the start.
-/

namespace Offside

/-- The tokens may stand in a row, the older one first. -/
def LayoutToken.MayPrecede (older newer : LayoutToken) : Prop :=
  match older, newer with
  | .start _, .start _ | .start _, .sep _ => False
  | .start _, _ => True
  | .sep position, .raw token => token.start = position
  | .sep _, _ => False
  | .stop _, .start _ => False
  | .stop position, newer => newer.position = position
  | .raw _, _ => True

namespace Layout

/-- The significant tokens of what was emitted, newest first. -/
def significant (emitted : List Entry) : List LayoutToken :=
  (emitted.map Entry.token).filter fun token => !token.isTrivia

/-- Significant tokens in a row may stand in a row. -/
def Shaped (emitted : List Entry) : Prop :=
  (significant emitted).IsChain fun newer older => older.MayPrecede newer

theorem significant_cons {token : LayoutToken} (h : token.isTrivia = false) (stack : Stack)
    (emitted : List Entry) :
    significant (⟨token, stack⟩ :: emitted) = token :: significant emitted := by
  unfold significant
  rw [List.map_cons, List.filter_cons_of_pos (by rw [h]; rfl)]

/-- One more token keeps the shape if the newest one so far may precede it. -/
theorem shaped_cons {token : LayoutToken} (htoken : token.isTrivia = false) (stack : Stack)
    {emitted : List Entry} (h : Shaped emitted)
    (hnewest : ∀ older, (significant emitted).head? = some older → older.MayPrecede token) :
    Shaped (⟨token, stack⟩ :: emitted) := by
  unfold Shaped
  rw [significant_cons htoken]
  exact List.isChain_cons.mpr ⟨hnewest, h⟩

namespace State

/-- While contexts settle at a position, the newest token is no separator, and an
end only if it stands there. -/
structure Settling (position : Position) (state : State) : Prop where
  shaped : Shaped state.emitted
  not_sep : ∀ sep, (significant state.emitted).head? ≠ some (.sep sep)
  stop_eq : ∀ stop, (significant state.emitted).head? = some (.stop stop) → stop = position

/-- Nothing has changed since a block was opened: the innermost context stands where
the next token does. -/
structure Ready (position : Position) (state : State) : Prop extends Settling position state where
  opened : ∀ start, (significant state.emitted).head? = some (.start start) →
    state.stack.position = position

variable {position : Position} {state after : State}

-- ============================================================ settling

theorem Settling.withStack (h : Settling position state) (stack : Stack) :
    Settling position ⟨stack, state.emitted⟩ :=
  ⟨h.shaped, h.not_sep, h.stop_eq⟩

/-- Behind an end nothing is left of a start. -/
theorem Settling.stop (h : Settling position state) (stack recorded : Stack) :
    Ready position ⟨stack, ⟨.stop position, recorded⟩ :: state.emitted⟩ := by
  have hhead : (significant (⟨.stop position, recorded⟩ :: state.emitted)).head?
      = some (.stop position) := by
    rw [significant_cons rfl, List.head?_cons]
  refine ⟨⟨shaped_cons rfl recorded h.shaped fun older holder => ?_, ?_, ?_⟩, ?_⟩
  · cases older with
    | start => trivial
    | sep sep => exact absurd holder (h.not_sep sep)
    | stop stop => exact (h.stop_eq stop holder).symm
    | raw => trivial
  · intro sep hsep
    cases hhead.symm.trans hsep
  · intro stop hstop
    cases hhead.symm.trans hstop
    rfl
  · intro start hstart
    cases hhead.symm.trans hstart

theorem Settling.emitStop (h : Settling position state) :
    Settling position (state.emitStop position) :=
  (h.stop state.stack state.stack).toSettling

theorem Settling.popAny (h : Settling position state) : Settling position state.popAny := by
  obtain ⟨⟨frames⟩, emitted⟩ := state
  cases frames with
  | nil => exact h
  | cons frame below => exact h.withStack _

/-- Each block that closes is an end at the same place, which may stand behind another. -/
theorem Settling.collapseFrames (closes : Closing) (frames : List Frame) :
    ∀ {emitted : List Entry}, Settling position ⟨⟨frames⟩, emitted⟩ →
      Settling position (State.collapseFrames closes position emitted frames) := by
  induction frames with
  | nil => exact fun h => h
  | cons frame below ih =>
    intro emitted h
    unfold State.collapseFrames
    split
    case isFalse => exact h
    case isTrue =>
      by_cases hblock : frame.isIndent = true
      · rw [if_pos hblock]
        exact ih (h.stop ⟨below⟩ ⟨below⟩).toSettling
      · rw [if_neg hblock]
        exact ih (h.withStack ⟨below⟩)

/-- Where nothing but blocks closes, either nothing does or an end is emitted. -/
theorem Ready.collapseFrames {closes : Closing}
    (hblocks : ∀ frame, closes position frame = true → frame.isIndent = true)
    (frames : List Frame) : ∀ {emitted : List Entry}, Ready position ⟨⟨frames⟩, emitted⟩ →
      Ready position (State.collapseFrames closes position emitted frames) := by
  induction frames with
  | nil => exact fun h => h
  | cons frame below ih =>
    intro emitted h
    unfold State.collapseFrames
    split
    case isFalse => exact h
    case isTrue hcloses =>
      rw [if_pos (hblocks frame hcloses)]
      exact ih (h.toSettling.stop ⟨below⟩ ⟨below⟩)

/-- No frame but blocks closes, so the first thing that happens to a start is an end behind it. -/
theorem Ready.collapses (h : Ready position state) (collapses : Collapses position state after) :
    Ready position after := by
  induction collapses with
  | refl => exact h
  | collapse hblocks _ ih => exact ih.collapseFrames hblocks _

/-- Contexts that close by hand emit nothing but ends at the place. -/
theorem Settling.closes (h : Ready position state) (closes : Closes position state after) :
    Settling position after := by
  induction closes with
  | collapses collapses => exact (h.collapses collapses).toSettling
  | popMask _ _ ih => exact ih.popAny
  | pushMask _ _ ih => exact ih.withStack _
  | stop _ _ ih => exact ih.popAny.emitStop
  | stops _ _ _ ih => exact ih.popAny.popAny.emitStop.emitStop

-- ==================================================== the token itself

/-- The output takes a token that is emitted next. -/
def Takes (state : State) (token : LayoutToken) : Prop :=
  Shaped state.emitted
    ∧ ∀ older, (significant state.emitted).head? = some older → older.MayPrecede token

/-- The token itself may stand behind all that settles at its place. -/
theorem Settling.takes {token : Token} (h : Settling token.start state) :
    state.Takes (.raw token) := by
  refine ⟨h.shaped, fun older holder => ?_⟩
  cases older with
  | start => trivial
  | sep sep => exact absurd holder (h.not_sep sep)
  | stop stop => exact (h.stop_eq stop holder).symm
  | raw => trivial

/-- A separator stands behind no start, and takes the token at its place. -/
theorem Ready.takes_sep {token : Token} (h : Ready token.start state)
    (hline : token.start.line ≠ state.stack.top.position.line) (stack recorded : Stack) :
    Takes ⟨stack, ⟨.sep token.start, recorded⟩ :: state.emitted⟩ (.raw token) := by
  refine ⟨shaped_cons rfl recorded h.shaped fun older holder => ?_, fun older holder => ?_⟩
  · cases older with
    | start start => exact absurd (congrArg Position.line (h.opened start holder).symm) hline
    | sep sep => exact absurd holder (h.not_sep sep)
    | stop stop => exact (h.stop_eq stop holder).symm
    | raw => trivial
  · rw [significant_cons rfl, List.head?_cons] at holder
    cases holder
    rfl

/-- A separator goes in front of the token where nothing else has just started. -/
theorem Ready.separate {token : Token} (h : Ready token.start state) :
    (state.separate token.start).Takes (.raw token) := by
  have hpop : state.popAny.emitted = state.emitted := emitted_popIf state _
  have hsep := fun (hline : ¬(token.start.column ≠ state.stack.top.position.column
      ∨ token.start.line = state.stack.top.position.line)) =>
    h.takes_sep (fun hsame => hline (Or.inr hsame))
  fun_cases State.separate state token.start with
  | case1 => exact h.takes
  | case2 top hplace hdecl =>
    have htakes := hsep hplace state.popAny.stack state.popAny.stack
    rw [← hpop] at htakes
    exact htakes
  | case3 top hplace => exact hsep hplace _ _
  | case4 top hplace => exact hsep hplace _ _
  | case5 => exact h.takes

/-- However the contexts settle, the token can be emitted behind it. -/
theorem Ready.settles {token : Token} (h : Ready token.start state)
    (settles : Settles token.start state after) : after.Takes (.raw token) := by
  cases settles with
  | closes closes => exact (Settling.closes h closes).takes
  | separate collapses => exact (h.collapses collapses).separate

-- =================================================== behind the token

/-- Between two significant tokens: the newest is a token of the source, or the start
of a block at the place of the next one. -/
structure Rested (next : Position) (state : State) : Prop where
  shaped : Shaped state.emitted
  newest : ∀ token, (significant state.emitted).head? = some token →
    (∃ raw, token = .raw raw) ∨ (∃ start, token = .start start) ∧ state.stack.position = next

/-- A start is newest only right after it was emitted, and its context still stands at the
next token. -/
theorem Rested.ready {next : Position} (h : Rested next state) : Ready next state := by
  refine ⟨⟨h.shaped, ?_, ?_⟩, ?_⟩
  · intro sep hsep
    rcases h.newest _ hsep with ⟨raw, hraw⟩ | ⟨⟨start, hstart⟩, _⟩
    · cases hraw
    · cases hstart
  · intro stop hstop
    rcases h.newest _ hstop with ⟨raw, hraw⟩ | ⟨⟨start, hstart⟩, _⟩
    · cases hraw
    · cases hstart
  · intro start hstart
    rcases h.newest _ hstart with ⟨raw, hraw⟩ | ⟨_, hposition⟩
    · cases hraw
    · exact hposition

theorem rested_initial (next : Position) : Rested next initial :=
  ⟨List.isChain_nil, nofun⟩

/-- A token of the source that is emitted last. -/
theorem Takes.rested {token : Token} (h : state.Takes (.raw token))
    (htoken : (LayoutToken.raw token).isTrivia = false) (next : Position) (stack : Stack) :
    Rested next ⟨stack, (state.emit (.raw token)).emitted⟩ := by
  refine ⟨shaped_cons htoken state.stack h.1 h.2, fun newest hnewest => Or.inl ⟨token, ?_⟩⟩
  unfold emit at hnewest
  rw [significant_cons htoken, List.head?_cons] at hnewest
  exact (Option.some.inj hnewest).symm

/-- A block that opens behind a token, or not. Where it does, every context that
comes with it stands at the next token. -/
theorem Takes.openBlock {token : Token} (h : state.Takes (.raw token))
    (htoken : (LayoutToken.raw token).isTrivia = false) (delimiter : Delimiter) (next : Position)
    (stack : Stack) (hstack : stack.position = next) :
    Rested next ⟨stack, ((state.emit (.raw token)).openBlock delimiter next).emitted⟩ := by
  rcases openBlock_cases (state.emit (.raw token)) delimiter next with hsame | hopen
  · rw [hsame]
    exact h.rested htoken next stack
  · rw [hopen]
    have hrested := h.rested htoken next state.stack
    refine ⟨shaped_cons rfl _ hrested.shaped fun older holder => ?_, fun newest hnewest => ?_⟩
    · unfold push emit at holder
      rw [significant_cons htoken, List.head?_cons] at holder
      cases holder
      trivial
    · unfold push emit at hnewest
      rw [significant_cons rfl, List.head?_cons] at hnewest
      cases hnewest
      exact Or.inr ⟨⟨next, rfl⟩, hstack⟩

/-- What follows the token is masks, or a block that opens at the next one. -/
theorem Takes.follows {token : Token} (h : state.Takes (.raw token))
    (htoken : (LayoutToken.raw token).isTrivia = false) {next : Position}
    (follows : Follows next (state.emit (.raw token)) after) : Rested next after := by
  cases follows with
  | masks masks =>
    have hrested := h.rested htoken next after.stack
    rw [← emitted_masks masks] at hrested
    exact hrested
  | @openBlock delimiter hblock =>
    rcases openBlock_cases (state.emit (.raw token)) delimiter next with hsame | hopen
    · rw [hsame]
      exact h.rested htoken next state.stack
    · have hplace : ((state.emit (.raw token)).openBlock delimiter next).stack.position = next := by
        rw [hopen]
        rfl
      exact h.openBlock htoken delimiter next _ hplace
  | openMasked => exact h.openBlock htoken _ next _ rfl

/-- From one token to the next: the contexts settle, the token is emitted, and a block may open. -/
theorem Rested.step {token : Token} (h : Rested token.start state)
    (htoken : (LayoutToken.raw token).isTrivia = false) (next : Position) (action : Action) :
    Rested next (state.step token next action) := by
  obtain ⟨settled, hsettles, hfollows⟩ := step_settles token next state action
  exact (h.ready.settles hsettles).follows htoken hfollows

-- ================================================================ the run

/-- Trivia does not show among the significant tokens. -/
theorem significant_emitTrivia (state : State) {token : Token} (h : token.isTrivia = true) :
    significant (state.emitTrivia token).emitted = significant state.emitted := by
  have happend : ∀ entries more : List Entry,
      significant (entries ++ more) = significant entries ++ significant more := by
    intro entries more
    unfold significant
    rw [List.map_append, List.filter_append]
  have htrivia : ∀ (stack : Stack) (entries : List Entry),
      significant (⟨.raw token, stack⟩ :: entries) = significant entries := by
    intro stack entries
    unfold significant
    rw [List.map_cons, List.filter_cons_of_neg]
    show ¬(!token.isTrivia) = true
    rw [h]
    exact Bool.false_ne_true
  have hemitted : state.emitted = state.emitted.takeWhile (opensPast token.span.stop)
      ++ state.emitted.dropWhile (opensPast token.span.stop) :=
    List.takeWhile_append_dropWhile.symm
  unfold emitTrivia
  rw [happend, htrivia, ← happend, ← hemitted]

/-- Comments and blanks are not significant, wherever they go. -/
theorem Rested.emitTrivia {next : Position} (h : Rested next state) {token : Token}
    (htoken : token.isTrivia = true) : Rested next (state.emitTrivia token) := by
  have hsame := significant_emitTrivia state htoken
  refine ⟨?_, ?_⟩
  · have hshaped := h.shaped
    unfold Shaped at hshaped ⊢
    rwa [hsame]
  · rw [hsame]
    exact h.newest

/-- The shape lasts through the run, and at its end the next place is that of the end of the
file. -/
theorem Rested.run (rules : Rules) (eof : Position) (tokens : List Token) :
    ∀ {state : State}, Rested (nextStart tokens eof) state →
      Rested eof (state.run rules eof tokens) := by
  induction tokens with
  | nil => exact fun h => h
  | cons token rest ih =>
    intro state h
    unfold State.run
    cases htrivia : token.isTrivia with
    | true =>
      rw [nextStart_of_trivia htrivia] at h
      exact ih (h.emitTrivia htrivia)
    | false =>
      rw [nextStart_of_significant htrivia] at h
      exact ih (h.step htrivia _ _)

end State

/-- The significant tokens of a layout, in order. -/
def significantOf (tokens : List LayoutToken) : List LayoutToken :=
  tokens.filter fun token => !token.isTrivia

/-- They are the significant tokens that the pass has emitted when all contexts are closed. -/
theorem significantOf_tokensOf (rules : Rules) (tokens : List Token) (eof : Position) :
    significantOf (tokensOf rules tokens eof)
      = (significant ((State.initial.run rules eof tokens).unwind eof).emitted).reverse := by
  unfold significantOf tokensOf annotate State.output significant
  rw [List.map_reverse, List.filter_reverse]

/-- Significant tokens that stand in a row in a layout may do so, and the last of
them is no separator. -/
theorem tokensOf_shaped (rules : Rules) (tokens : List Token) (eof : Position) :
    (significantOf (tokensOf rules tokens eof)).IsChain LayoutToken.MayPrecede
      ∧ ∀ sep, (significantOf (tokensOf rules tokens eof)).getLast? ≠ some (.sep sep) := by
  have hrested := (State.rested_initial (nextStart tokens eof)).run rules eof
  have hend : State.Settling eof ((State.initial.run rules eof tokens).unwind eof) :=
    hrested.ready.toSettling.collapseFrames _ _
  rw [significantOf_tokensOf, List.getLast?_reverse]
  exact ⟨List.isChain_reverse.mpr hend.shaped, hend.not_sep⟩

end Layout

end Offside
