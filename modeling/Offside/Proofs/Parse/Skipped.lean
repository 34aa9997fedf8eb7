import Offside.Parse.Recovery
import Offside.Proofs.Grammar.Laid

/-!
What skipping passes over.

Skipping a token tree passes over a token or over a block up to the end that
matches its start: whole trees leave the depth that it counts as it was
(`skipBlocks_trees`). Where blocks are balanced, skipping up to a
synchronisation point passes over whole trees, and stops at the end of the
tokens, at the end of the block that it started in, or where the point matches.
-/

namespace Offside

variable {input : Input}

namespace Context

variable {ctx : Context input} {roots : TokenKind → Bool} {last : Nat}

theorem place_advance (h : ctx.place < input.size) : ctx.advance.place = ctx.place + 1 := by
  unfold advance atEnd
  rw [if_neg (by simpa using h)]

theorem skipTokenTree_eq (h : ctx.place < input.size) :
    ctx.skipTokenTree.2 = ctx.skipBlocks 0 := by
  unfold skipTokenTree atEnd
  rw [if_neg (by simpa using h)]

/-- A token of the kind that the end of the input has is not passed. -/
theorem skipBlocks_of_eof (h : ctx.kind = .eof) (depth : Nat) : ctx.skipBlocks depth = ctx := by
  by_cases hend : ctx.atEnd = true
  · rw [skipBlocks, dif_pos hend]
  · rw [skipBlocks, dif_neg hend]
    exact if_pos h

/-- The step of skipping at a token that is not the end of the outermost block. -/
theorem skipBlocks_eq {depth inner : Nat} (h : ctx.kind ≠ .eof)
    (hinner : (match ctx.kind with
      | .layoutStart => depth + 1
      | .layoutEnd => depth - 1
      | _ => depth) = inner) :
    ctx.skipBlocks depth = if inner = 0 then ctx.advance else ctx.advance.skipBlocks inner := by
  have hplace : ctx.place < input.size := Input.lt_size_of_kindAt h
  rw [skipBlocks, dif_neg (by unfold atEnd; simpa using hplace)]
  dsimp only
  rw [if_neg h]
  generalize hkind : ctx.kind = kind at hinner
  subst hinner
  rfl

/-- A token that opens and closes nothing leaves the depth as it is. -/
theorem skipBlocks_token {depth : Nat} (h : ctx.kind ≠ .eof)
    (hkind : ctx.kind.isBracket = false) :
    ctx.skipBlocks depth = if depth = 0 then ctx.advance else ctx.advance.skipBlocks depth := by
  refine skipBlocks_eq h ?_
  generalize ctx.kind = current at hkind
  cases current <;> first | rfl | cases hkind

/-- Behind a start one more block is to be closed. -/
theorem skipBlocks_start {depth : Nat} (hstart : ctx.kind = .layoutStart) :
    ctx.skipBlocks depth = ctx.advance.skipBlocks (depth + 1) := by
  exact (skipBlocks_eq (by rw [hstart]; exact nofun) (by rw [hstart])).trans
    (if_neg (Nat.succ_ne_zero depth))

/-- Behind an end one block less is to be closed, and behind the last one none. -/
theorem skipBlocks_stop {depth : Nat} (hstop : ctx.kind = .layoutEnd) :
    ctx.skipBlocks (depth + 1)
      = if depth = 0 then ctx.advance else ctx.advance.skipBlocks depth := by
  exact skipBlocks_eq (by rw [hstop]; exact nofun) (by rw [hstop]; rfl)

/-- Whole trees are skipped, whatever block they stand in, if no token among them is of the kind
that the end of the input has. -/
theorem skipBlocks_trees_or_eof {first : Nat} (trees : input.Trees roots first last)
    (depth : Nat) : ∀ ctx : Context input, ctx.place = first →
      (∃ after : Context input, after.place = last
        ∧ ctx.skipBlocks (depth + 1) = after.skipBlocks (depth + 1))
      ∨ ((ctx.skipBlocks (depth + 1)).kind = .eof
        ∧ (ctx.skipBlocks (depth + 1)).place < last) := by
  induction trees generalizing depth with
  | nil => exact fun ctx hplace => .inl ⟨ctx, hplace, rfl⟩
  | token inside _ hkind rest ih =>
    intro ctx hplace
    subst hplace
    by_cases heof : ctx.kind = .eof
    · rw [skipBlocks_of_eof heof]
      exact .inr ⟨heof, rest.first_le⟩
    · rw [skipBlocks_token heof hkind, if_neg (Nat.succ_ne_zero depth)]
      exact ih depth ctx.advance (place_advance inside)
  | block _ hstart _ hstop rest ihbody ihrest =>
    intro ctx hplace
    subst hplace
    rw [skipBlocks_start hstart]
    rcases ihbody (depth + 1) ctx.advance (place_advance (Input.lt_size_of_start hstart))
      with ⟨inner, rfl, heq⟩ | ⟨heof, hinner⟩
    · rw [heq, skipBlocks_stop hstop, if_neg (Nat.succ_ne_zero _)]
      exact ihrest depth inner.advance (place_advance (Input.lt_size_of_stop hstop))
    · exact .inr ⟨heof, Nat.lt_trans hinner rest.first_le⟩

/-- A token that opens and closes nothing is skipped alone. -/
theorem place_skipTokenTree_token (h : ctx.kind ≠ .eof)
    (hkind : ctx.kind.isBracket = false) : ctx.skipTokenTree.2.place = ctx.place + 1 := by
  have hplace : ctx.place < input.size := Input.lt_size_of_kindAt h
  rw [skipTokenTree_eq hplace, skipBlocks_token h hkind, if_pos rfl, place_advance hplace]

section Trees

variable (hinside : ∀ place, place < input.size → input.kindAt place ≠ .eof)
include hinside

/-- Whole trees are skipped, whatever block they stand in. -/
theorem skipBlocks_trees {first : Nat} (trees : input.Trees roots first last)
    (hlast : last ≤ input.size) (depth : Nat) (ctx : Context input) (hplace : ctx.place = first) :
    ∃ after : Context input, after.place = last
      ∧ ctx.skipBlocks (depth + 1) = after.skipBlocks (depth + 1) := by
  rcases skipBlocks_trees_or_eof trees depth ctx hplace with hafter | ⟨heof, hbefore⟩
  · exact hafter
  · exact absurd heof (hinside _ (Nat.lt_of_lt_of_le hbefore hlast))

/-- A block is skipped up to the end that closes it. -/
theorem place_skipTokenTree_block {stop : Nat} (closes : input.Closes ctx.place stop) :
    ctx.skipTokenTree.2.place = stop + 1 := by
  have hstart : ctx.kind = .layoutStart := closes.start_kind
  have h : ctx.place < input.size := Input.lt_size_of_start closes.start_kind
  have hstop : stop < input.size := Input.lt_size_of_stop closes.stop_kind
  obtain ⟨after, rfl, heq⟩ :=
    skipBlocks_trees hinside closes.body (Nat.le_of_lt hstop) 0 ctx.advance (place_advance h)
  rw [skipTokenTree_eq h, skipBlocks_start hstart, heq, skipBlocks_stop closes.stop_kind,
    if_pos rfl, place_advance hstop]

end Trees

/-- A token tree is skipped. -/
theorem trees_skipTokenTree (hlaid : input.Laid) (h : ctx.place < input.size)
    (hstop : ctx.kind ≠ .layoutEnd) (hroot : roots ctx.kind = true) :
    input.Trees roots ctx.place ctx.skipTokenTree.2.place
      ∧ ctx.place < ctx.skipTokenTree.2.place := by
  by_cases hstart : ctx.kind = .layoutStart
  · obtain ⟨stop, closes⟩ := hlaid.closes ctx.place hstart
    rw [place_skipTokenTree_block hlaid.inside closes]
    rw [hstart] at hroot
    have hbehind := closes.body.first_le
    exact ⟨.block hroot hstart closes.body closes.stop_kind (.nil _ _), by omega⟩
  · have hplain := TokenKind.isBracket_of_ne hstart hstop
    rw [place_skipTokenTree_token (hlaid.inside _ h) hplain]
    exact ⟨.single hroot h hplain, Nat.lt_succ_self _⟩

end Context

namespace Form

open Context

variable {run : Runner input} {ctx after : Context input} {sync : Grammar} {matched : Bool}

/-- A trial leaves the place as it was. -/
theorem place_syncMatches (h : syncMatches run sync ctx = some (matched, after)) :
    after.place = ctx.place := by
  unfold syncMatches at h
  dsimp only at h
  split at h
  case h_1 => cases h
  case h_2 =>
    cases h
    rfl

/-- Where skipping stops. -/
def StopsAt (run : Runner input) (sync : Grammar) (place : Nat) : Prop :=
  input.size ≤ place ∨ input.kindAt place = .layoutEnd
    ∨ ∃ ctx after : Context input, ctx.place = place ∧ syncMatches run sync ctx = some (true, after)

/-- Skipping passes over trees whose roots are no synchronisation points. -/
theorem trees_skipTo {roots : TokenKind → Bool} (hlaid : input.Laid)
    (hroots : ∀ ctx after : Context input, syncMatches run sync ctx = some (false, after) →
      roots ctx.kind = true) (ctx : Context input) : ∀ after : Context input,
      skipTo run sync ctx = some after →
        input.Trees roots ctx.place after.place ∧ StopsAt run sync after.place := by
  fun_induction skipTo run sync ctx with
  | case1 ctx hend =>
    intro _ h
    cases h
    exact ⟨.nil _ _, .inl (by simpa [Context.atEnd] using hend)⟩
  | case2 ctx _ hstop =>
    intro _ h
    cases h
    exact ⟨.nil _ _, .inr (.inl (eq_of_beq hstop))⟩
  | case3 =>
    intro _ h
    cases h
  | case4 ctx _ _ last hsync =>
    intro _ h
    cases h
    rw [place_syncMatches hsync]
    exact ⟨.nil _ _, .inr (.inr ⟨ctx, last, rfl, hsync⟩)⟩
  | case5 ctx hend hstop last hsync place skipped hprogress ih =>
    intro after h
    have hplace := place_syncMatches hsync
    have hinside : last.place < input.size := hplace ▸ place_lt_size hend
    have hkind : last.kind = ctx.kind := by
      unfold Context.kind
      rw [hplace]
    -- a tree that is passed over has a root at which the synchronisation point did not match
    have hskipped := (trees_skipTokenTree hlaid hinside
      (by rw [hkind]; exact fun heq => hstop (by unfold Context.isAt; rw [heq]; rfl))
      (by rw [hkind]; exact hroots _ _ hsync)).1
    rw [hplace] at hskipped
    obtain ⟨hrest, hstops⟩ := ih after h
    exact ⟨hskipped.append hrest, hstops⟩
  | case6 =>
    intro _ h
    cases h

end Form

end Offside
