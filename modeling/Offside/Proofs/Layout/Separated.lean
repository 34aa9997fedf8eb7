import Offside.Language.Rules
import Offside.Proofs.Layout.Frames
import Offside.Proofs.Layout.Opening
import Offside.Proofs.Layout.Spared

/-!
When a name in the column of the module's block starts a new declaration.

The separator in front of it is emitted if the block of the module, or the frame of
a declaration over it, is what the offside rule leaves on top. Blocks inside the
module lie right of its column and are closed; a mask is not, and stays in the way.
So it is a matter of the contexts that the tokens in front of the name have left
open (`Stack.Unmasked`), and `separates_iff` says that it is a matter of nothing else.

# The shape of the proof

`Nested.dropWhile_offside` is what the offside rule leaves, from the invariant on the
columns of blocks. A declaration that it leaves started on an earlier line, since it
has the column of the name and stands in front of it (`DeclaresBefore`). The other
way round, a separator right in front of the name was emitted with the name, as no
step leaves one behind at the end of the output (`Rested`).
-/

namespace Offside

namespace Layout

/-- The `where` block that starts at `start` is the outermost context, and nothing is open
inside it but blocks and declarations. -/
def Stack.Unmasked (stack : Stack) (start : Position) : Prop :=
  ∃ inner, stack.frames = inner ++ [⟨.whereBlock, start⟩]
    ∧ ∀ frame ∈ inner, frame.isIndent = true ∨ frame.delimiter.isDeclaration = true

/-- What the offside rule spares holds no mask. -/
theorem Stack.Spared.unmasked {stack : Stack} {start : Position} (h : stack.Spared start) :
    stack.Unmasked start := by
  obtain ⟨inner, hframes, hplain⟩ := h
  refine ⟨inner, hframes, fun frame hmem => ?_⟩
  have hframe := hplain frame hmem
  unfold Frame.isIndent
  cases hdelimiter : frame.delimiter with
  | topDecl | topDeclHead => exact .inr rfl
  | letBlock | letStmt | whereBlock | doBlock | adoBlock => exact .inl rfl
  | _ =>
    rw [hdelimiter] at hframe
    cases hframe

-- ======================================== what the offside rule leaves

/-- Blocks lie right of the block at the bottom. -/
theorem Nested.column_lt {inner : List Frame} {block : Frame} (h : Nested (inner ++ [block]))
    (hblock : block.isIndent = true) :
    ∀ frame ∈ inner, frame.isIndent = true → block.position.column < frame.position.column := by
  intro frame hmem hindent
  have hcolumns := h.columns
  rw [List.filter_append, List.filter_cons_of_pos hblock] at hcolumns
  exact (List.pairwise_append.mp hcolumns).2.2 frame (List.mem_filter.mpr ⟨hmem, hindent⟩) block
    List.mem_cons_self

/-- In the column of the block at the bottom, the blocks inside it are offside: what is
left is the block, or a declaration over it. -/
theorem Nested.dropWhile_offside {block : Frame} (hblock : block.isIndent = true)
    {position : Position} (hcolumn : position.column = block.position.column)
    {inner : List Frame} (hunmasked : ∀ frame ∈ inner,
      frame.isIndent = true ∨ frame.delimiter.isDeclaration = true) :
    Nested (inner ++ [block]) →
      (inner ++ [block]).dropWhile (Closing.offside position) = [block]
        ∨ ∃ decl ∈ inner, decl.delimiter.isDeclaration = true
          ∧ decl.position.column = block.position.column
          ∧ (inner ++ [block]).dropWhile (Closing.offside position) = [decl, block] := by
  induction inner with
  | nil =>
    intro _
    refine .inl (List.dropWhile_cons_of_neg ?_)
    simp [Closing.offside, hcolumn]
  | cons frame inner ih =>
    intro h
    have hlater := fun frame hmem => hunmasked frame (List.mem_cons_of_mem _ hmem)
    cases h with
    | cons mayOpen nested =>
      rcases hunmasked frame List.mem_cons_self with hindent | hdecl
      · -- a block inside starts right of the one at the bottom, so it closes
        have hall : Nested (frame :: inner ++ [block]) := .cons mayOpen nested
        have hright := hall.column_lt hblock frame List.mem_cons_self hindent
        have hoffside : Closing.offside position frame = true := by
          unfold Closing.offside
          rw [hindent, hcolumn, decide_eq_true hright]
          rfl
        rw [List.cons_append, List.dropWhile_cons_of_pos hoffside]
        refine (ih hlater nested).imp_right ?_
        rintro ⟨decl, hmem, hdecl⟩
        exact ⟨decl, List.mem_cons_of_mem _ hmem, hdecl⟩
      · -- a declaration opens over the block of the module alone, so there is nothing else inside
        obtain ⟨only, honly, -, hcolumns⟩ := Stack.eq_of_startsTopDecl (mayOpen.startsTopDecl hdecl)
        have hinner : inner = [] := by
          cases inner with
          | nil => rfl
          | cons next inner => cases inner <;> cases honly
        subst hinner
        cases honly
        refine .inr ⟨frame, List.mem_cons_self, hdecl, hcolumns.symm, ?_⟩
        refine List.dropWhile_cons_of_neg ?_
        simp [Closing.offside, isIndent_of_isDeclaration hdecl]

namespace State

variable {state : State} {position start : Position}

theorem separate_block (hstack : state.stack = ⟨[⟨.whereBlock, start⟩]⟩)
    (hcolumn : position.column = start.column) (hline : position.line ≠ start.line) :
    state.separate position = state.emit (.sep position) := by
  unfold State.separate
  simp [hstack, Stack.top, hcolumn, hline, Frame.isIndent, Delimiter.isIndent]

/-- A separator in the column of a declaration ends the declaration. -/
theorem separate_declaration {decl block : Frame} (hstack : state.stack = ⟨[decl, block]⟩)
    (hdecl : decl.delimiter.isDeclaration = true)
    (hcolumn : position.column = decl.position.column)
    (hline : position.line ≠ decl.position.line) :
    state.separate position = ⟨⟨[block]⟩, ⟨.sep position, ⟨[block]⟩⟩ :: state.emitted⟩ := by
  obtain ⟨stack, emitted⟩ := state
  cases hstack
  have hplace : ¬(position.column ≠ decl.position.column ∨ position.line = decl.position.line) :=
    fun hor => hor.elim (fun hne => hne hcolumn) hline
  unfold State.separate
  dsimp only [Stack.top, List.headD_cons]
  rw [if_neg hplace, if_pos (Delimiter.eq_of_isDeclaration hdecl)]
  rfl

/-- Nothing but blocks and declarations is in the way of the separator. -/
theorem head?_of_unmasked (hnested : Nested state.stack.frames)
    (hbefore : state.DeclaresBefore position) (hcolumn : position.column = start.column)
    (hline : start.line < position.line) (h : state.stack.Unmasked start) :
    ((state.collapse .offside position).separate position).emitted.head?
      = some ⟨.sep position, ⟨[⟨.whereBlock, start⟩]⟩⟩ := by
  obtain ⟨inner, hframes, hinner⟩ := h
  have hstack := stack_collapse state .offside position
  unfold collapsed at hstack
  rw [hframes] at hnested hstack
  rcases Nested.dropWhile_offside rfl hcolumn hinner hnested with
    hleft | ⟨decl, hmem, hdecl, hplace, hleft⟩
  · rw [hleft] at hstack
    rw [separate_block hstack hcolumn (Nat.ne_of_gt hline)]
    unfold State.emit
    rw [hstack]
    rfl
  · have hearlier := Position.compare_eq_lt_iff.mp
      (hbefore decl (by rw [hframes]; exact List.mem_append_left _ hmem) hdecl)
    have hsame : position.column = decl.position.column := hcolumn.trans hplace.symm
    rw [hleft] at hstack
    rw [separate_declaration hstack hdecl hsame (by omega)]
    rfl

/-- A separator right in front of the token was emitted with it. -/
theorem unmasked_of_head? (hready : Ready position state)
    (h : ((state.collapse .offside position).separate position).emitted.head?
      = some ⟨.sep position, ⟨[⟨.whereBlock, start⟩]⟩⟩) :
    state.stack.Unmasked start := by
  have hcollapsed := hready.collapses (collapses_once state fun _ => isIndent_of_offside)
  have hstack := stack_collapse state .offside position
  generalize hcollapse : state.collapse .offside position = settled at *
  have hnone : settled.emitted.head? ≠ some ⟨.sep position, ⟨[⟨.whereBlock, start⟩]⟩⟩ := by
    intro hhead
    refine hcollapsed.not_sep position ?_
    obtain ⟨earlier, hearlier⟩ := List.head?_eq_some_iff.mp hhead
    rw [hearlier, significant_cons rfl]
    rfl
  -- the contexts that the offside rule has closed are blocks
  have hleft : ∀ inner : List Frame, (∀ frame ∈ inner, frame.delimiter.isDeclaration = true) →
      settled.stack.frames = inner ++ [⟨.whereBlock, start⟩] →
      state.stack.Unmasked start := by
    intro inner hinner hframes
    have hsplit := List.takeWhile_append_dropWhile (p := Closing.offside position)
      (l := state.stack.frames)
    have hdrop :
        state.stack.frames.dropWhile (Closing.offside position) = settled.stack.frames := by
      rw [hstack]
      rfl
    refine ⟨state.stack.frames.takeWhile (Closing.offside position) ++ inner, ?_, ?_⟩
    · rw [List.append_assoc, ← hframes, ← hdrop, hsplit]
    · intro frame hmem
      rcases List.mem_append.mp hmem with hmem | hmem
      · exact .inl (isIndent_of_offside (List.all_eq_true.mp List.all_takeWhile frame hmem))
      · exact .inr (hinner frame hmem)
  revert h
  fun_cases State.separate settled position with
  | case1 | case5 => exact fun h => absurd h hnone
  | case2 top hplace hdecl =>
    intro h
    have hpop : settled.popAny.stack = ⟨[⟨.whereBlock, start⟩]⟩ :=
      congrArg Entry.stack (Option.some.inj h)
    obtain ⟨⟨frames⟩, emitted⟩ := settled
    cases frames with
    | nil => rcases hdecl with hdecl | hdecl <;> cases hdecl
    | cons decl below =>
      have hbelow : below = [⟨.whereBlock, start⟩] := congrArg Stack.frames hpop
      refine hleft [decl] (fun frame hmem => ?_) (congrArg (decl :: ·) hbelow)
      rw [List.mem_singleton.mp hmem]
      rcases hdecl with hdecl | hdecl
      · exact congrArg Delimiter.isDeclaration hdecl
      · exact congrArg Delimiter.isDeclaration hdecl
  | case3 top hplace _ hof =>
    intro h
    have hblock : settled.stack = ⟨[⟨.whereBlock, start⟩]⟩ :=
      congrArg Entry.stack (Option.some.inj h)
    have htop : top.delimiter = .whereBlock := congrArg Stack.delimiter hblock
    cases htop.symm.trans hof
  | case4 =>
    intro h
    have hblock : settled.stack = ⟨[⟨.whereBlock, start⟩]⟩ :=
      congrArg Entry.stack (Option.some.inj h)
    refine hleft [] (fun frame hmem => ?_) (congrArg Stack.frames hblock)
    cases hmem

/-- A token in the column of the block gets its separator if nothing but blocks and
declarations is open in the block, and only then. -/
theorem separates_iff (hnested : Nested state.stack.frames) (hready : Ready position state)
    (hbefore : state.DeclaresBefore position) (hcolumn : position.column = start.column)
    (hline : start.line < position.line) :
    ((state.collapse .offside position).separate position).emitted.head?
        = some ⟨.sep position, ⟨[⟨.whereBlock, start⟩]⟩⟩
      ↔ state.stack.Unmasked start :=
  ⟨unmasked_of_head? hready, head?_of_unmasked hnested hbefore hcolumn hline⟩

end State

-- ======================================================= the whole layout

namespace State

variable {state : State}

/-- Behind a header of plain tokens and a `where`, the block of the module is open, and
nothing else. -/
theorem run_header (rules : Rules) (eof : Position) {opener first : Token} {items : List Token}
    (hopener : rules.action opener.kind = .whereKeyword) {tokens : List Token} :
    ∀ {heads : List Token} {state : State}, state.stack = .empty →
      (∀ head ∈ heads, rules.action head.kind = .default) →
      tokens.filter (!·.isTrivia) = heads ++ opener :: first :: items →
      ∃ (opened : State) (rest : List Token), opened.stack = ⟨[⟨.whereBlock, first.start⟩]⟩
        ∧ rest.filter (!·.isTrivia) = first :: items
        ∧ state.run rules eof tokens = opened.run rules eof rest := by
  induction tokens with
  | nil =>
    intro heads state _ _ htokens
    cases heads <;> cases htokens
  | cons token rest ih =>
    intro heads state hempty hheads htokens
    have hparens : state.OnlyParens := by
      unfold OnlyParens
      rw [hempty]
      exact nofun
    rw [run]
    by_cases htrivia : token.isTrivia = true
    · rw [if_pos htrivia]
      rw [List.filter_cons_of_neg (by rw [htrivia]; exact Bool.false_ne_true)] at htokens
      have hsame : (state.emitTrivia token).stack = .empty := hempty
      exact ih hsame hheads htokens
    · rw [if_neg htrivia]
      rw [List.filter_cons_of_pos (by simpa using htrivia)] at htokens
      cases heads with
      | nil =>
        obtain ⟨rfl, hrest⟩ := List.cons.inj htokens
        -- the block opens at the token that comes first behind the `where`
        have hnext : nextStart rest eof = first.start := by
          unfold nextStart
          rw [← List.head?_filter, hrest]
          rfl
        rw [hopener, hparens.step_where, hnext]
        refine ⟨_, rest, ?_, hrest, rfl⟩
        unfold State.push State.emit Stack.push
        rw [hempty]
        rfl
      | cons head heads =>
        obtain ⟨rfl, hrest⟩ := List.cons.inj htokens
        refine ih ?_ (fun head hmem => hheads head (List.mem_cons_of_mem _ hmem)) hrest
        rw [hheads token List.mem_cons_self, hparens.step_default]
        exact hempty

-- =============================================== what was emitted stays

/-- Trivia goes behind a token of the source that was emitted. -/
theorem suffix_emitTrivia {token : Token} {stack : Stack} {earlier : List Entry}
    (h : ⟨.raw token, stack⟩ :: earlier <:+ state.emitted) (trivia : Token) :
    ⟨.raw token, stack⟩ :: earlier <:+ (state.emitTrivia trivia).emitted := by
  obtain ⟨later, hlater⟩ := h
  unfold emitTrivia
  refine List.IsSuffix.trans ?_ (List.suffix_append _ _)
  refine List.IsSuffix.trans ?_ (List.suffix_cons _ _)
  rw [← hlater, List.dropWhile_append, List.dropWhile_cons_of_neg (by exact Bool.false_ne_true)]
  split
  · exact List.suffix_rfl
  · exact List.suffix_append _ _

/-- A token of the source and what was emitted before it stay as they are. -/
theorem suffix_run_raw (rules : Rules) (eof : Position) {token : Token} {stack : Stack}
    {earlier : List Entry} (tokens : List Token) : ∀ {state : State},
      ⟨.raw token, stack⟩ :: earlier <:+ state.emitted →
      ⟨.raw token, stack⟩ :: earlier <:+ (state.run rules eof tokens).emitted := by
  induction tokens with
  | nil => exact fun h => h
  | cons next rest ih =>
    intro state h
    unfold run
    split
    · exact ih (suffix_emitTrivia h next)
    · exact ih (h.trans (suffix_step state next _ _))

/-- What a name or the head of a declaration writes. -/
theorem emitted_stepHead (state : State) (token : Token) (delimiter : Delimiter) :
    let settled := (state.collapse .offside token.start).separate token.start
    (state.stepHead token delimiter).emitted = ⟨.raw token, settled.stack⟩ :: settled.emitted := by
  intro settled
  fun_cases State.stepHead state token delimiter with
  | case1 => rfl
  | case2 => exact emitted_popIf _ _

/-- A separator and the ends of blocks are not of the source. -/
theorem content_separate (state : State) (position : Position) :
    ((state.collapse .offside position).separate position).content = state.content :=
  (marked_separate (marked_collapses (collapses_once state fun _ => isIndent_of_offside))).content

/-- The layout up to a name is what the pass has emitted when the contexts at the name are
settled. -/
theorem annotate_eq_append (rules : Rules) (eof : Position) (before after : List Token)
    {token : Token} (htoken : token.isTrivia = false)
    (hlabel : rules.action token.kind = .label) :
    let state := initial.run rules token.start before
    let settled := (state.collapse .offside token.start).separate token.start
    ∃ later, annotate rules (before ++ token :: after) eof
      = settled.output ++ ⟨.raw token, settled.stack⟩ :: later := by
  intro state settled
  have hrun : initial.run rules eof (before ++ token :: after)
      = (state.stepHead token .topDecl).run rules eof after := by
    rw [run_append, nextStart_of_significant htoken, run,
      if_neg (by rw [htoken]; exact Bool.false_ne_true), hlabel]
    rfl
  have hstep : ⟨.raw token, settled.stack⟩ :: settled.emitted
      <:+ (state.stepHead token .topDecl).emitted :=
    ⟨[], (emitted_stepHead state token .topDecl).symm⟩
  obtain ⟨later, hlater⟩ :=
    (suffix_run_raw rules eof after hstep).trans (marked_unwind _ eof).suffix
  refine ⟨later.reverse, ?_⟩
  unfold annotate output
  rw [hrun, ← hlater, List.reverse_append, List.reverse_cons, List.append_assoc]
  rfl

/-- Behind the header of a module, tokens that spare its block leave it open. -/
theorem spared_run_header {rules : Rules} (eof : Position) {heads items tokens : List Token}
    {opener first : Token} (hheads : ∀ head ∈ heads, rules.action head.kind = .default)
    (hopener : rules.action opener.kind = .whereKeyword)
    (htokens : tokens.filter (!·.isTrivia) = heads ++ opener :: first :: items)
    (hspares : ∀ item ∈ first :: items,
      (rules.action item.kind).spares first.start item.start = true) :
    (initial.run rules eof tokens).stack.Spared first.start := by
  have hempty : initial.stack = .empty := rfl
  obtain ⟨opened, rest, hopened, hrest, hrun⟩ := run_header rules eof hopener hempty hheads htokens
  have hblock : opened.stack.Spared first.start := ⟨[], by rw [hopened]; rfl, nofun⟩
  rw [hrun]
  refine hblock.run rules eof fun token hmem htoken => hspares token ?_
  rw [← hrest]
  exact List.mem_filter.mpr ⟨hmem, by rw [htoken]; rfl⟩

end State

/-- A module's text, and a name on a later line in the column of the first token of the
body. A separator of the module's block stands right in front of the name exactly if
the tokens before it have left that block open, and in it nothing but blocks and
declarations. So it does if these tokens spare the block, whatever else is wrong
with them. -/
theorem separated_iff_unmasked (source : String) {before after items : List Token}
    {keyword name opener first token : Token}
    (htokens : (Reading.ofSource source).tokens = before ++ token :: after)
    (hbefore : before.filter (!·.isTrivia) = keyword :: name :: opener :: first :: items)
    (hkeyword : keyword.kind = .kwModule)
    (hname : name.kind = .upper ∨ name.kind = .qualifiedUpper) (hopener : opener.kind = .kwWhere)
    (htoken : token.kind = .lower) (hcolumn : token.start.column = first.start.column)
    (hline : first.start.line < token.start.line) :
    ∃ earlier stack later,
      annotate Language.layoutRules (Reading.ofSource source).tokens (Reading.ofSource source).eof
          = earlier ++ ⟨.raw token, stack⟩ :: later
        ∧ content (earlier.map Entry.token) = before
        ∧ (earlier.getLast? = some ⟨.sep token.start, ⟨[⟨.whereBlock, first.start⟩]⟩⟩
          ↔ (State.initial.run Language.layoutRules token.start before).stack.Unmasked first.start)
        ∧ ((∀ item ∈ first :: items,
            (Language.layoutRules.action item.kind).spares first.start item.start = true) →
          earlier.getLast? = some ⟨.sep token.start, ⟨[⟨.whereBlock, first.start⟩]⟩⟩) := by
  have hcovers := (Reading.ofSource_covers source).1
  -- the tokens in front of the name are themselves the whole of a text that ends where it starts
  have htile : Token.Tile .start before token.start := by
    have hall := hcovers.tile
    rw [htokens, Position.after_zero] at hall
    exact hall.before
  have hwidth : ∀ earlier ∈ before, earlier.start.compare earlier.stop = .lt := by
    intro earlier hmem
    obtain ⟨_, _, hholds⟩ := hcovers.holds earlier
      (by rw [htokens]; exact List.mem_append_left _ hmem)
    exact hholds.increasing
  have hsignificant : token.isTrivia = false := congrArg TokenKind.isTrivia htoken
  have hlabel : Language.layoutRules.action token.kind = .label := by rw [htoken]; rfl
  obtain ⟨later, hlater⟩ := State.annotate_eq_append Language.layoutRules
    (Reading.ofSource source).eof before after hsignificant hlabel
  have hready := (State.rested_initial (nextStart before token.start)).run Language.layoutRules
    token.start before |>.ready
  have hdeclares : (State.initial.run Language.layoutRules token.start before).DeclaresBefore
      token.start := State.DeclaresBefore.run Language.layoutRules hwidth htile nofun
  have hiff := State.separates_iff (nested_run Language.layoutRules token.start before) hready
    hdeclares hcolumn hline
  refine ⟨_, _, later, by rw [htokens]; exact hlater, ?_, ?_, fun hspares => ?_⟩
  · exact (State.content_separate _ token.start).trans (State.content_run _ _ before)
  · rw [State.output, List.getLast?_reverse]
    exact hiff
  · rw [State.output, List.getLast?_reverse]
    -- the header opens no context but the block of the module
    have hheads : ∀ head ∈ [keyword, name], Language.layoutRules.action head.kind = .default := by
      intro head hmem
      rcases List.mem_cons.mp hmem with rfl | hmem
      · rw [hkeyword]
        rfl
      · rw [List.mem_singleton.mp hmem]
        rcases hname with hname | hname <;> rw [hname] <;> rfl
    exact hiff.mpr (State.spared_run_header token.start hheads (by rw [hopener]; rfl) hbefore
      hspares).unmasked

/-- The tokens of `module M where`, up to the next line. -/
def moduleHeader : List Token :=
  [⟨.kwModule, ⟨1, 1, 0⟩, ⟨1, 7, 6⟩⟩, ⟨.whitespace, ⟨1, 7, 6⟩, ⟨1, 8, 7⟩⟩,
   ⟨.upper, ⟨1, 8, 7⟩, ⟨1, 9, 8⟩⟩, ⟨.whitespace, ⟨1, 9, 8⟩, ⟨1, 10, 9⟩⟩,
   ⟨.kwWhere, ⟨1, 10, 9⟩, ⟨1, 15, 14⟩⟩, ⟨.newline, ⟨1, 15, 14⟩, ⟨2, 1, 15⟩⟩]

/-- A declaration with an equals sign too many and an empty `do` does not hide the next. -/
theorem separated_iff_unmasked_malformed :
    let reading := Reading.ofSource "module M where\nx = = do\ny"
    ∃ earlier stack later,
      annotate Language.layoutRules reading.tokens reading.eof
          = earlier ++ ⟨.raw ⟨.lower, ⟨3, 1, 24⟩, ⟨3, 2, 25⟩⟩, stack⟩ :: later
        ∧ earlier.getLast? = some ⟨.sep ⟨3, 1, 24⟩, ⟨[⟨.whereBlock, ⟨2, 1, 15⟩⟩]⟩⟩ := by
  intro reading
  have htokens : reading.tokens = (moduleHeader
      ++ [⟨.lower, ⟨2, 1, 15⟩, ⟨2, 2, 16⟩⟩, ⟨.whitespace, ⟨2, 2, 16⟩, ⟨2, 3, 17⟩⟩,
        ⟨.equals, ⟨2, 3, 17⟩, ⟨2, 4, 18⟩⟩, ⟨.whitespace, ⟨2, 4, 18⟩, ⟨2, 5, 19⟩⟩,
        ⟨.equals, ⟨2, 5, 19⟩, ⟨2, 6, 20⟩⟩, ⟨.whitespace, ⟨2, 6, 20⟩, ⟨2, 7, 21⟩⟩,
        ⟨.kwDo, ⟨2, 7, 21⟩, ⟨2, 9, 23⟩⟩, ⟨.newline, ⟨2, 9, 23⟩, ⟨3, 1, 24⟩⟩])
      ++ [⟨.lower, ⟨3, 1, 24⟩, ⟨3, 2, 25⟩⟩] := by
    decide +kernel
  obtain ⟨earlier, stack, later, hlayout, -, -, hspared⟩ :=
    separated_iff_unmasked _ htokens rfl rfl (.inl rfl) rfl rfl rfl (by decide)
  exact ⟨earlier, stack, later, hlayout, hspared (by decide)⟩

/-- A bracket that is never closed hides the declaration behind it: the text is laid out
without a single separator, although the name starts its line in the column of the
body. -/
theorem bracket_hides_declaration :
    let reading := Reading.ofSource "module M where\nx = (\ny"
    (∀ token ∈ tokensOf Language.layoutRules reading.tokens reading.eof, token.kind ≠ .layoutSep)
      ∧ ¬∀ (source : String) (before after items : List Token)
          (keyword name opener first token : Token),
        (Reading.ofSource source).tokens = before ++ token :: after →
        before.filter (!·.isTrivia) = keyword :: name :: opener :: first :: items →
        keyword.kind = .kwModule → name.kind = .upper → opener.kind = .kwWhere →
        (∀ other ∈ first :: items ++ token :: after.filter (!·.isTrivia),
          first.start.column ≤ other.start.column) →
        token.kind = .lower → (∀ item ∈ first :: items, item.stop.line < token.start.line) →
        token.start.column = first.start.column → first.start.line < token.start.line →
        ∃ earlier stack later,
          annotate Language.layoutRules (Reading.ofSource source).tokens
              (Reading.ofSource source).eof = earlier ++ ⟨.raw token, stack⟩ :: later
            ∧ earlier.getLast? = some ⟨.sep token.start, ⟨[⟨.whereBlock, first.start⟩]⟩⟩ := by
  intro reading
  have hnone : ∀ token ∈ tokensOf Language.layoutRules reading.tokens reading.eof,
      token.kind ≠ .layoutSep := by
    decide +kernel
  refine ⟨hnone, fun h => ?_⟩
  have htokens : reading.tokens = (moduleHeader
      ++ [⟨.lower, ⟨2, 1, 15⟩, ⟨2, 2, 16⟩⟩, ⟨.whitespace, ⟨2, 2, 16⟩, ⟨2, 3, 17⟩⟩,
        ⟨.equals, ⟨2, 3, 17⟩, ⟨2, 4, 18⟩⟩, ⟨.whitespace, ⟨2, 4, 18⟩, ⟨2, 5, 19⟩⟩,
        ⟨.leftParen, ⟨2, 5, 19⟩, ⟨2, 6, 20⟩⟩, ⟨.newline, ⟨2, 6, 20⟩, ⟨3, 1, 21⟩⟩])
      ++ [⟨.lower, ⟨3, 1, 21⟩, ⟨3, 2, 22⟩⟩] := by
    decide +kernel
  obtain ⟨earlier, stack, later, hlayout, hlast⟩ := h _ _ _ _ _ _ _ _ _ htokens rfl rfl rfl rfl
    (by decide) rfl (by decide) rfl (by decide)
  have hsep := List.mem_append_left (⟨.raw ⟨.lower, ⟨3, 1, 21⟩, ⟨3, 2, 22⟩⟩, stack⟩ :: later)
    (List.mem_of_getLast? hlast)
  rw [← hlayout] at hsep
  exact hnone _ (List.mem_map_of_mem hsep) rfl

end Layout

end Offside
