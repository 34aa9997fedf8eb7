import Offside.Proofs.Layout.Balance
import Offside.Proofs.Layout.Shape

/-!
How the virtual tokens of a layout stand among the others.

Between two tokens of the source stand, of the significant tokens, only virtual ones.
`Arranged` says which and in what order: the ends of the blocks that close, then at most
one separator, then the token that closed them; and behind a token at most one start, with
no separator behind it. So no item between separators is empty, and what starts or follows
an item is a token of the source.

Most of it is a matter of neighbours, and follows from which tokens may stand in a row
(`tokensOf_shaped`) by induction on a stretch of virtual tokens. Only that the first token is
no start looks at the pass again: whatever has been emitted, the oldest token stays
(`State.Fronted`).
-/

namespace Offside.Layout

/-- The token separates two items of a block. -/
def isSep : LayoutToken → Bool
  | .sep _ => true
  | _ => false

/-- How virtual tokens stand in a row of significant ones. -/
structure Arranged (tokens : List LayoutToken) : Prop where
  /-- A start stands behind a token of the source, and in front of no separator. -/
  start : ∀ before position later, tokens = before ++ .start position :: later →
    (∃ front token, before = front ++ [.raw token])
      ∧ ∀ place rest, later ≠ .sep place :: rest
  /-- A separator stands where the token of the source behind it starts. -/
  sep : ∀ before position later, tokens = before ++ .sep position :: later →
    ∃ token rest, later = .raw token :: rest ∧ token.start = position
  /-- A row of ends that goes on no further stands where the token of the source behind it
  starts, with at most one separator between them, or at the end. -/
  stops : ∀ before ends later, tokens = before ++ (ends ++ later) → ends ≠ [] →
    (∀ token ∈ ends, isStop token = true) →
    (∀ token rest, later = token :: rest → isStop token = false) →
    later = []
      ∨ ∃ token rest, (later = .raw token :: rest ∨ later = .sep token.start :: .raw token :: rest)
        ∧ ∀ stop ∈ ends, stop = .stop token.start
  /-- Between two tokens of the source stands at most one separator and at most one start. -/
  between : ∀ before gap later, tokens = before ++ (gap ++ later) →
    (∀ token ∈ gap, token.isVirtual = true) →
    gap.countP isSep ≤ 1 ∧ gap.countP isStart ≤ 1

-- ================================================== the oldest token

namespace State

/-- The oldest significant token that was emitted is no start. -/
def Fronted (emitted : List Entry) : Prop :=
  ∀ position, (significant emitted).getLast? ≠ some (.start position)

variable {emitted earlier : List Entry} {position : Position}

/-- A token may be the oldest if it is no start; behind another it does not matter. -/
theorem Fronted.cons (h : Fronted emitted) {token : LayoutToken} (htoken : token.isTrivia = false)
    (hstart : isStart token = false ∨ significant emitted ≠ []) (stack : Stack) :
    Fronted (⟨token, stack⟩ :: emitted) := by
  intro place hplace
  rw [significant_cons htoken, List.getLast?_cons, Option.some.injEq] at hplace
  cases holdest : (significant emitted).getLast? with
  | none =>
    rw [holdest, Option.getD_none] at hplace
    rcases hstart with hother | hsome
    · rw [hplace] at hother
      cases hother
    · exact hsome (List.getLast?_eq_none_iff.mp holdest)
  | some oldest =>
    rw [holdest, Option.getD_some] at hplace
    exact h place (holdest.trans (congrArg some hplace))

/-- Ends and separators are no starts. -/
theorem Fronted.marked (h : Fronted earlier) (marked : Marked position earlier emitted) :
    Fronted emitted := by
  induction marked with
  | refl => exact h
  | stop stack _ ih => exact ih.cons rfl (.inl rfl) stack
  | sep stack _ ih => exact ih.cons rfl (.inl rfl) stack

/-- Before a step opens a block it emits its token. -/
theorem Fronted.step {state : State} (h : Fronted state.emitted) {token : Token}
    (htoken : (LayoutToken.raw token).isTrivia = false) (next : Position) (action : Action) :
    Fronted (state.step token next action).emitted := by
  obtain ⟨settled, stack, opened, hmarked, hemitted, hopened⟩ :=
    emitted_step token next state action
  have hraw : Fronted (⟨.raw token, stack⟩ :: settled) :=
    (h.marked hmarked).cons htoken (.inl rfl) stack
  rw [hemitted]
  rcases hopened with rfl | ⟨inner, rfl⟩
  · exact hraw
  · refine hraw.cons rfl (.inr ?_) inner
    rw [significant_cons htoken]
    exact List.cons_ne_nil _ _

/-- In a run no start is the oldest significant token, since none opens before a token is
emitted. -/
theorem Fronted.run (rules : Rules) (eof : Position) (tokens : List Token) :
    ∀ {state : State}, Fronted state.emitted → Fronted (state.run rules eof tokens).emitted := by
  induction tokens with
  | nil => exact fun h => h
  | cons token rest ih =>
    intro state h
    unfold State.run
    cases htrivia : token.isTrivia with
    | true =>
      refine ih fun position => ?_
      rw [significant_emitTrivia state htrivia]
      exact h position
    | false => exact ih (h.step htrivia _ _)

end State

/-- A layout does not begin with a start. -/
theorem head?_significantOf (rules : Rules) (tokens : List Token) (eof : Position) :
    ∀ position, (significantOf (tokensOf rules tokens eof)).head? ≠ some (.start position) := by
  intro position
  have hinitial : State.Fronted State.initial.emitted := fun _ hnone => nomatch hnone
  have hfronted : State.Fronted ((State.initial.run rules eof tokens).unwind eof).emitted :=
    (hinitial.run rules eof tokens).marked (State.marked_unwind _ eof)
  rw [significantOf_tokensOf, List.head?_reverse]
  exact hfronted position

-- ================================================ tokens in a row

variable {tokens before rest later : List LayoutToken} {position : Position}

/-- In front of a start nothing may stand but a token of the source. -/
theorem raw_of_mayPrecede_start {older : LayoutToken} (h : older.MayPrecede (.start position)) :
    ∃ token, older = .raw token := by
  cases older with
  | raw token => exact ⟨token, rfl⟩
  | start | sep | stop => cases h

/-- Behind a separator nothing may stand but the token of the source that it belongs to. -/
theorem raw_of_sep_mayPrecede {newer : LayoutToken}
    (h : (LayoutToken.sep position).MayPrecede newer) :
    ∃ token, newer = .raw token ∧ token.start = position := by
  cases newer with
  | raw token => exact ⟨token, rfl, h⟩
  | start | sep | stop => cases h

/-- Behind an end stands what was settled at its place. -/
theorem position_of_stop_mayPrecede {newer : LayoutToken}
    (h : (LayoutToken.stop position).MayPrecede newer) :
    isStart newer = false ∧ newer.position = position := by
  cases newer with
  | start => cases h
  | sep | stop | raw => exact ⟨rfl, h⟩

/-- A row of ends stands where the token behind it does. -/
theorem eq_stop_of_isChain {ends : List LayoutToken} {newer : LayoutToken}
    (hends : ∀ token ∈ ends, isStop token = true)
    (h : (ends ++ newer :: rest).IsChain LayoutToken.MayPrecede) :
    ∀ stop ∈ ends, stop = .stop newer.position := by
  induction ends with
  | nil => exact fun _ hmem => nomatch hmem
  | cons first ends ih =>
    have hfirst := hends first List.mem_cons_self
    have hlater := ih (fun token hmem => hends token (List.mem_cons_of_mem _ hmem)) h.tail
    have hnext : first.position = newer.position := by
      cases first with
      | start | sep | raw => cases hfirst
      | stop place =>
        cases ends with
        | nil => exact (position_of_stop_mayPrecede (List.isChain_cons_cons.mp h).1).2.symm
        | cons second ends =>
          rw [← (position_of_stop_mayPrecede (List.isChain_cons_cons.mp h).1).2,
            hlater second List.mem_cons_self]
          rfl
    intro stop hmem
    rcases List.mem_cons.mp hmem with rfl | hmem
    · cases stop with
      | start | sep | raw => cases hfirst
      | stop place => rw [← hnext]; rfl
    · exact hlater stop hmem

/-- In a row of virtual tokens a start can only be the first. -/
theorem countP_isStart_eq_zero {older : LayoutToken} {gap : List LayoutToken}
    (hvirtual : ∀ token ∈ older :: gap, token.isVirtual = true)
    (h : (older :: gap).IsChain LayoutToken.MayPrecede) : gap.countP isStart = 0 := by
  induction gap generalizing older with
  | nil => rfl
  | cons newer gap ih =>
    rw [List.countP_cons_of_neg, ih (fun token hmem => hvirtual token (List.mem_cons_of_mem _ hmem))
      h.tail]
    intro hstart
    cases newer with
    | start place =>
      obtain ⟨token, rfl⟩ := raw_of_mayPrecede_start (List.isChain_cons_cons.mp h).1
      cases hvirtual _ List.mem_cons_self
    | sep | stop | raw => cases hstart

/-- Between two tokens of the source there is one start at most. -/
theorem countP_isStart_le {gap : List LayoutToken}
    (hvirtual : ∀ token ∈ gap, token.isVirtual = true)
    (h : gap.IsChain LayoutToken.MayPrecede) : gap.countP isStart ≤ 1 := by
  cases gap with
  | nil => exact Nat.zero_le 1
  | cons first gap =>
    rw [List.countP_cons, countP_isStart_eq_zero hvirtual h]
    split <;> omega

/-- In a row of virtual tokens a separator can only be the last. -/
theorem countP_isSep_le {gap : List LayoutToken} (hvirtual : ∀ token ∈ gap, token.isVirtual = true)
    (h : gap.IsChain LayoutToken.MayPrecede) : gap.countP isSep ≤ 1 := by
  induction gap with
  | nil => exact Nat.zero_le 1
  | cons older gap ih =>
    have hlater := ih (fun token hmem => hvirtual token (List.mem_cons_of_mem _ hmem)) h.tail
    cases older with
    | start | stop | raw => exact hlater
    | sep place =>
      cases gap with
      | nil => exact Nat.le_refl 1
      | cons newer gap =>
        obtain ⟨token, rfl, _⟩ := raw_of_sep_mayPrecede (List.isChain_cons_cons.mp h).1
        cases hvirtual _ (List.mem_cons_of_mem _ List.mem_cons_self)

section Chain

variable (h : tokens.IsChain LayoutToken.MayPrecede)
include h

/-- A start has its token right before it, and no separator behind it. -/
theorem arranged_start (hfirst : ∀ position, tokens.head? ≠ some (.start position))
    (hsplit : tokens = before ++ .start position :: later) :
    (∃ front token, before = front ++ [.raw token]) ∧ ∀ place rest, later ≠ .sep place :: rest := by
  subst hsplit
  refine ⟨?_, ?_⟩
  · rcases List.eq_nil_or_concat' before with rfl | ⟨front, older, rfl⟩
    · exact absurd rfl (hfirst position)
    · rw [List.append_assoc] at h
      obtain ⟨token, rfl⟩ := raw_of_mayPrecede_start
        (List.isChain_cons_cons.mp h.right_of_append).1
      exact ⟨front, token, rfl⟩
  · rintro place rest rfl
    exact (List.isChain_cons_cons.mp h.right_of_append).1

/-- A separator has its token right behind it. -/
theorem arranged_sep (hlast : ∀ position, tokens.getLast? ≠ some (.sep position))
    (hsplit : tokens = before ++ .sep position :: later) :
    ∃ token rest, later = .raw token :: rest ∧ token.start = position := by
  subst hsplit
  cases later with
  | nil => exact absurd List.getLast?_concat (hlast position)
  | cons newer rest =>
    obtain ⟨token, rfl, hstart⟩ := raw_of_sep_mayPrecede
      (List.isChain_cons_cons.mp h.right_of_append).1
    exact ⟨token, rest, rfl, hstart⟩

/-- A run of ends is followed by the token at whose place the blocks closed, by nothing, or by
a separator there. -/
theorem arranged_stops (hlast : ∀ position, tokens.getLast? ≠ some (.sep position))
    {ends : List LayoutToken} (hsplit : tokens = before ++ (ends ++ later)) (hsome : ends ≠ [])
    (hends : ∀ token ∈ ends, isStop token = true)
    (hmost : ∀ token rest, later = token :: rest → isStop token = false) :
    later = []
      ∨ ∃ token rest, (later = .raw token :: rest ∨ later = .sep token.start :: .raw token :: rest)
        ∧ ∀ stop ∈ ends, stop = .stop token.start := by
  cases later with
  | nil => exact .inl rfl
  | cons newer rest =>
    have hrow := (hsplit ▸ h).right_of_append
    have heq := eq_stop_of_isChain hends hrow
    cases newer with
    | stop => cases hmost _ rest rfl
    | raw token => exact .inr ⟨token, rest, .inl rfl, heq⟩
    | start place =>
      obtain ⟨front, newest, rfl⟩ := (List.eq_nil_or_concat' ends).resolve_left hsome
      rw [heq newest (List.mem_append_right _ List.mem_cons_self), List.append_assoc] at hrow
      cases (List.isChain_cons_cons.mp hrow.right_of_append).1
    | sep place =>
      rw [← List.append_assoc] at hsplit
      obtain ⟨token, rest, rfl, rfl⟩ := arranged_sep h hlast hsplit
      exact .inr ⟨token, rest, .inr rfl, heq⟩

/-- Tokens that may stand in a row are arranged, unless the first is a start or the last a
separator. -/
theorem arranged_of_isChain (hfirst : ∀ position, tokens.head? ≠ some (.start position))
    (hlast : ∀ position, tokens.getLast? ≠ some (.sep position)) : Arranged tokens where
  start _ _ _ hsplit := arranged_start h hfirst hsplit
  sep _ _ _ hsplit := arranged_sep h hlast hsplit
  stops _ _ _ hsplit hsome hends hmost := arranged_stops h hlast hsplit hsome hends hmost
  between before gap later hsplit hvirtual := by
    have hgap := (hsplit ▸ h).right_of_append.left_of_append
    exact ⟨countP_isSep_le hvirtual hgap, countP_isStart_le hvirtual hgap⟩

end Chain

-- ============================================================ the layout

/-- The virtual tokens of a layout are arranged as the parser expects them, whatever the rules
and the tokens. -/
theorem virtual_tokens_arranged (rules : Rules) (tokens : List Token) (eof : Position) :
    Arranged (significantOf (tokensOf rules tokens eof)) :=
  have hshaped := tokensOf_shaped rules tokens eof
  arranged_of_isChain hshaped.1 (head?_significantOf rules tokens eof) hshaped.2

end Offside.Layout
