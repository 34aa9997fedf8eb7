import Offside.Proofs.Layout.Content
import Offside.Proofs.Layout.Shape

/-!
Where the first block of a text opens.

While nothing but parentheses is open, most tokens make no virtual ones: no
block is there to be closed or separated. So if the significant tokens of a
layout start with tokens of the source that are quiet in this sense, and a
`where` behind them, then this `where` has met no enclosing block, and the token
behind it is the start of the block that it has opened.

What was emitted stays, so that the start is found in the layout as a whole
(`suffix_run`).
-/

namespace Offside.Layout

/-- Whether the action inserts nothing as long as no block is open. -/
def Action.isQuiet : Action → Bool
  | .default | .label | .declHead | .openParen | .closeParen | .comma | .operator => true
  | _ => false

namespace State

variable {state after : State} {position : Position}

-- =============================================== what was emitted stays

/-- Ends and separators are put on top of what was emitted. -/
theorem Marked.suffix {earlier emitted : List Entry} (marked : Marked position earlier emitted) :
    earlier <:+ emitted := by
  induction marked with
  | refl => exact List.suffix_rfl
  | stop _ _ ih | sep _ _ ih => exact ih.trans (List.suffix_cons _ _)

theorem suffix_step (state : State) (token : Token) (next : Position) (action : Action) :
    state.emitted <:+ (state.step token next action).emitted := by
  obtain ⟨settled, stack, opened, hmarked, hemitted, _⟩ := emitted_step token next state action
  rw [hemitted]
  exact (hmarked.suffix.trans (List.suffix_cons _ _)).trans (List.suffix_append _ _)

theorem suffix_significant {emitted more : List Entry} (h : emitted <:+ more) :
    significant emitted <:+ significant more :=
  (h.map _).filter _

/-- Of the significant tokens, those that were emitted stay in place. -/
theorem suffix_run (rules : Rules) (eof : Position) (tokens : List Token) : ∀ state : State,
    significant state.emitted <:+ significant (state.run rules eof tokens).emitted := by
  induction tokens with
  | nil => exact fun _ => List.suffix_rfl
  | cons token rest ih =>
    intro state
    unfold run
    split
    case isTrue htrivia =>
      rw [← significant_emitTrivia state htrivia]
      exact ih _
    case isFalse => exact (suffix_significant (suffix_step state _ _ _)).trans (ih _)

-- ====================================================== no block is open

/-- Nothing is open but parentheses. -/
def OnlyParens (state : State) : Prop := ∀ frame ∈ state.stack.frames, frame.delimiter = .paren

/-- The innermost context is a parenthesis, or there is none. -/
theorem OnlyParens.top (h : state.OnlyParens) :
    state.stack.delimiter = .paren ∨ state.stack.delimiter = .root := by
  obtain ⟨⟨frames⟩, emitted⟩ := state
  cases frames with
  | nil => exact .inr rfl
  | cons frame below => exact .inl (h frame List.mem_cons_self)

/-- With no block open there is nothing for a collapse of blocks to close. -/
theorem OnlyParens.collapse (h : state.OnlyParens) {closes : Closing}
    (hblocks : ∀ frame, closes position frame = true → frame.isIndent = true) :
    state.collapse closes position = state := by
  obtain ⟨⟨frames⟩, emitted⟩ := state
  cases frames with
  | nil => rfl
  | cons frame below =>
    have hframe : frame.delimiter = .paren := h frame List.mem_cons_self
    unfold State.collapse collapseFrames
    rw [if_neg]
    intro hcloses
    have hblock := hblocks frame hcloses
    rw [Frame.isIndent, hframe] at hblock
    cases hblock

/-- With no block open there is nothing to separate. -/
theorem OnlyParens.separate (h : state.OnlyParens) (position : Position) :
    state.separate position = state := by
  have htop : state.stack.top.delimiter = .paren ∨ state.stack.top.delimiter = .root := h.top
  fun_cases State.separate state position with
  | case1 | case5 => rfl
  | case2 top _ hdecl =>
    rcases htop with htop | htop
    · rw [htop] at hdecl
      rcases hdecl with hdecl | hdecl <;> cases hdecl
    · rw [htop] at hdecl
      rcases hdecl with hdecl | hdecl <;> cases hdecl
  | case3 top _ _ hof =>
    rcases htop with htop | htop
    · rw [htop] at hof
      cases hof
    · rw [htop] at hof
      cases hof
  | case4 top _ _ _ hblock =>
    rw [Frame.isIndent] at hblock
    rcases htop with htop | htop
    · rw [htop] at hblock
      cases hblock
    · rw [htop] at hblock
      cases hblock

theorem OnlyParens.emitDefault (h : state.OnlyParens) (token : Token) :
    state.emitDefault token = state.emit (.raw token) := by
  unfold State.emitDefault
  rw [h.collapse fun _ => isIndent_of_offside, h.separate]

/-- With no block open no declaration starts. -/
theorem OnlyParens.startsTopDecl (h : state.OnlyParens) (position : Position) :
    state.stack.startsTopDecl position = false := by
  obtain ⟨⟨frames⟩, emitted⟩ := state
  match frames with
  | [] | _ :: _ :: _ => rfl
  | [frame] =>
    have hframe : frame.delimiter = .paren := h frame List.mem_cons_self
    show (frame.delimiter == .whereBlock && frame.position.column == position.column) = false
    rw [hframe]
    rfl

/-- Dropping a context leaves parentheses only. -/
theorem OnlyParens.popIf (h : state.OnlyParens) (p : Delimiter → Bool) :
    (state.popIf p).OnlyParens := by
  rcases popIf_cases state p with hsame | ⟨frame, below, hframes, _, hpop⟩
  · rw [hsame]
    exact h
  · rw [hpop]
    exact fun inner hinner => h inner (by rw [hframes]; exact List.mem_cons_of_mem _ hinner)

/-- A token with the common action is emitted, and nothing else happens. -/
theorem OnlyParens.step_default (h : state.OnlyParens) (token : Token) (next : Position) :
    state.step token next .default = state.emit (.raw token) := by
  have hemitted : (state.emit (.raw token)).OnlyParens := h
  show state.stepDefault token = _
  unfold stepDefault
  rw [h.emitDefault token]
  exact if_neg (by rw [hemitted.startsTopDecl]; exact Bool.false_ne_true)

/-- A quiet token emits itself alone. -/
theorem OnlyParens.step_quiet (h : state.OnlyParens) (token : Token) (next : Position)
    {action : Action} (hquiet : action.isQuiet = true) :
    (state.step token next action).OnlyParens
      ∧ ∃ stack, (state.step token next action).emitted = ⟨.raw token, stack⟩ :: state.emitted := by
  have hemitted : (state.emit (.raw token)).OnlyParens := h
  have hhead : ∀ delimiter, state.stepHead token delimiter
      = (state.emit (.raw token)).endLabel := by
    intro delimiter
    unfold stepHead
    rw [h.emitDefault token]
    exact if_neg (by rw [hemitted.startsTopDecl]; exact Bool.false_ne_true)
  have hlabel : (state.emit (.raw token)).endLabel.OnlyParens
      ∧ ∃ stack, (state.emit (.raw token)).endLabel.emitted
        = ⟨.raw token, stack⟩ :: state.emitted :=
    ⟨hemitted.popIf _, state.stack, emitted_popIf _ _⟩
  cases action with
  | default =>
    rw [h.step_default]
    exact ⟨h, state.stack, rfl⟩
  | label =>
    rw [show state.step token next .label = _ from hhead .topDecl]
    exact hlabel
  | declHead =>
    rw [show state.step token next .declHead = _ from hhead .topDeclHead]
    exact hlabel
  | comma =>
    have hstep : state.step token next .comma = state.emit (.raw token) := by
      show state.stepComma token = _
      unfold stepComma
      rw [h.collapse fun _ => id]
      -- a comma opens the place of a label inside braces only, and these are open nowhere
      refine if_neg fun hbrace => ?_
      rcases h.top with htop | htop
      · cases htop.symm.trans hbrace
      · cases htop.symm.trans hbrace
    rw [hstep]
    exact ⟨h, state.stack, rfl⟩
  | operator =>
    have hstep : state.step token next .operator = state.emit (.raw token) := by
      show state.stepOperator token = _
      unfold stepOperator
      rw [h.collapse fun _ => isIndent_of_offsideEnd, h.separate]
    rw [hstep]
    exact ⟨h, state.stack, rfl⟩
  | openParen =>
    have hstep : state.step token next .openParen
        = (state.emit (.raw token)).push .paren token.start := by
      show (state.emitDefault token).push .paren token.start = _
      rw [h.emitDefault token]
    rw [hstep]
    -- the new context is a parenthesis itself
    refine ⟨fun frame hframe => ?_, state.stack, rfl⟩
    cases hframe with
    | head => rfl
    | tail _ hframe => exact h frame hframe
  | closeParen =>
    have hstep : state.step token next .closeParen
        = (state.popIf (· == .paren)).emit (.raw token) := by
      show state.stepClose token .paren = _
      unfold stepClose
      rw [h.collapse fun _ => id]
    rw [hstep]
    exact ⟨h.popIf _, _, congrArg (_ :: ·) (emitted_popIf state _)⟩
  | _ => cases hquiet

/-- A `where` opens a block, as none encloses it. -/
theorem OnlyParens.step_where (h : state.OnlyParens) (token : Token) (next : Position) :
    state.step token next .whereKeyword
      = ((state.emit (.raw token)).push .whereBlock next).emit (.start next) := by
  have hnone : (state.emit (.raw token)).stack.innermostBlock? = none := by
    unfold Stack.innermostBlock? Stack.find? Stack.toList
    refine List.find?_eq_none.mpr fun frame hframe => ?_
    rcases List.mem_append.mp hframe with hframe | hframe
    · rw [h frame hframe]
      exact Bool.false_ne_true
    · rw [List.mem_singleton.mp hframe]
      exact Bool.false_ne_true
  have hopen : (state.emit (.raw token)).openBlock .whereBlock next
      = ((state.emit (.raw token)).push .whereBlock next).emit (.start next) := by
    unfold openBlock
    rw [hnone]
    rfl
  show state.stepWhere token next = _
  unfold stepWhere
  rw [h.collapse fun _ => isIndent_of_beforeWhere, hopen]
  rcases h.top with htop | htop
  · rw [htop]
  · rw [htop]

/-- Quiet tokens with a `where` behind them stand in the output as they are, and
then comes the start of a block. -/
theorem OnlyParens.run_where (rules : Rules) (eof : Position) (keyword : Token)
    (hwhere : rules.action keyword.kind = .whereKeyword) (more tokens : List Token) :
    ∀ (heads : List Token) (state : State), state.OnlyParens →
      (∀ head ∈ heads, (rules.action head.kind).isQuiet = true) →
      tokens.filter (!·.isTrivia) = heads ++ keyword :: more →
      ∃ next, .start next :: .raw keyword :: (heads.reverse.map .raw ++ significant state.emitted)
        <:+ significant (state.run rules eof tokens).emitted := by
  induction tokens with
  | nil =>
    intro heads state _ _ htokens
    cases heads <;> cases htokens
  | cons token rest ih =>
    intro heads state h hquiet htokens
    unfold run
    by_cases htrivia : token.isTrivia = true
    · rw [if_pos htrivia, ← significant_emitTrivia state htrivia]
      rw [List.filter_cons_of_neg (by rw [htrivia]; exact Bool.false_ne_true)] at htokens
      exact ih heads (state.emitTrivia token) h hquiet htokens
    · have hsignificant : (LayoutToken.raw token).isTrivia = false := Bool.eq_false_iff.mpr htrivia
      rw [if_neg htrivia]
      rw [List.filter_cons_of_pos (by simpa using htrivia)] at htokens
      cases heads with
      | nil =>
        obtain ⟨rfl, _⟩ := List.cons.inj htokens
        -- behind the `where` the block opens; what comes later leaves it where it is
        refine ⟨nextStart rest eof, List.IsSuffix.trans ?_ (suffix_run rules eof rest _)⟩
        rw [hwhere, h.step_where token (nextStart rest eof)]
        unfold State.emit State.push
        rw [significant_cons rfl, significant_cons hsignificant]
        exact List.suffix_rfl
      | cons head heads =>
        obtain ⟨rfl, hrest⟩ := List.cons.inj htokens
        obtain ⟨hstep, stack, hemitted⟩ := h.step_quiet token (nextStart rest eof)
          (hquiet token List.mem_cons_self)
        obtain ⟨next, hsuffix⟩ := ih heads _ hstep
          (fun head hmem => hquiet head (List.mem_cons_of_mem _ hmem)) hrest
        rw [hemitted, significant_cons hsignificant] at hsuffix
        refine ⟨next, ?_⟩
        rw [List.reverse_cons, List.map_append, List.append_assoc]
        exact hsuffix

end State

-- ============================================================ the layout

/-- The significant tokens of a layout hold the significant tokens of the source. -/
theorem content_significantOf (tokens : List LayoutToken) :
    content (significantOf tokens) = (content tokens).filter (!·.isTrivia) := by
  induction tokens with
  | nil => rfl
  | cons token rest ih =>
    unfold content significantOf at ih ⊢
    cases token with
    | start | sep | stop => exact ih
    | raw token =>
      rw [List.filterMap_cons_some (f := LayoutToken.raw?) rfl]
      cases htrivia : token.isTrivia with
      | true =>
        have hraw : (LayoutToken.raw token).isTrivia = true := htrivia
        rw [List.filter_cons_of_neg (by rw [hraw]; exact Bool.false_ne_true),
          List.filter_cons_of_neg (by rw [htrivia]; exact Bool.false_ne_true)]
        exact ih
      | false =>
        have hraw : (LayoutToken.raw token).isTrivia = false := htrivia
        rw [List.filter_cons_of_pos (by rw [hraw]; rfl),
          List.filter_cons_of_pos (by rw [htrivia]; rfl),
          List.filterMap_cons_some (f := LayoutToken.raw?) rfl, ih]

/-- The first layout tokens, if they are tokens of the source. -/
theorem exists_raw_front {tokens : List LayoutToken} {p : Token → Prop} (place : Nat)
    (h : ∀ index < place, ∃ token, tokens[index]? = some (.raw token) ∧ p token) :
    ∃ heads : List Token, heads.length = place ∧ (∀ head ∈ heads, p head)
      ∧ tokens.take place = heads.map .raw := by
  induction place with
  | zero => exact ⟨[], rfl, nofun, rfl⟩
  | succ place ih =>
    obtain ⟨heads, hlength, hheads, htake⟩ := ih fun index hlt => h index (Nat.lt_succ_of_lt hlt)
    obtain ⟨token, htoken, hp⟩ := h place (Nat.lt_succ_self place)
    refine ⟨heads ++ [token], by rw [List.length_append, hlength]; rfl, ?_, ?_⟩
    · intro head hmem
      rcases List.mem_append.mp hmem with hmem | hmem
      · exact hheads head hmem
      · rw [List.mem_singleton.mp hmem]
        exact hp
    · rw [List.take_add_one, htoken, htake, List.map_append]
      rfl

/-- Behind quiet tokens and a `where` stands the start of a block. -/
theorem start_behind_where (rules : Rules) (tokens : List Token) (eof : Position) {place : Nat}
    {keyword : Token} (hwhere : rules.action keyword.kind = .whereKeyword)
    (hkeyword : (significantOf (tokensOf rules tokens eof))[place]? = some (.raw keyword))
    (hheads : ∀ index < place, ∃ token,
      (significantOf (tokensOf rules tokens eof))[index]? = some (.raw token)
        ∧ (rules.action token.kind).isQuiet = true) :
    ∃ next, (significantOf (tokensOf rules tokens eof))[place + 1]? = some (.start next) := by
  obtain ⟨heads, hlength, hquiet, htake⟩ := exists_raw_front place hheads
  have hfront : tokens.filter (!·.isTrivia)
      = heads ++ keyword
        :: content ((significantOf (tokensOf rules tokens eof)).drop (place + 1)) := by
    have hsplit := List.take_append_drop (place + 1) (significantOf (tokensOf rules tokens eof))
    have hcontent := congrArg content hsplit
    rw [content_significantOf, content_tokensOf, List.take_add_one, hkeyword, htake] at hcontent
    rw [← hcontent]
    unfold content
    rw [List.filterMap_append, List.filterMap_append, List.filterMap_map, List.append_assoc]
    congr 1
    exact List.filterMap_some
  obtain ⟨next, hsuffix⟩ := State.OnlyParens.run_where rules eof keyword hwhere _ tokens heads
    State.initial nofun hquiet hfront
  have hall := hsuffix.trans (State.suffix_significant
    (State.marked_unwind (State.initial.run rules eof tokens) eof).suffix)
  obtain ⟨rest, hrest⟩ := List.reverse_prefix.mpr hall
  have holdest : (LayoutToken.start next :: .raw keyword :: (heads.reverse.map .raw
      ++ significant State.initial.emitted)).reverse
        = heads.map .raw ++ [.raw keyword, .start next] := by
    simp [significant, State.initial]
  refine ⟨next, ?_⟩
  rw [significantOf_tokensOf, ← hrest, holdest, ← hlength, List.append_assoc,
    List.getElem?_append_right (by simp)]
  simp

end Offside.Layout
