import Offside.Grammar.Input
import Offside.Proofs.Layout.Balance
import Offside.Proofs.Layout.Shape
import Offside.Proofs.Token.Written

/-!
Token trees of an input.

A token tree is a single token, or a block from its start to the end that
matches. `Input.Trees` says of a stretch of places that it is made of whole
trees, and which kinds of token stand at their roots. It is the language in
which everything about blocks is said: the end that matches a start closes the
trees behind it (`Input.Closes`), and there is at most one (`Trees.stop_unique`).

`Input.Laid` collects what the layout pass guarantees of its output. The blocks
are balanced there, so that every start has its end (`Laid.closes`).
-/

namespace Offside

/-- Tokens that open or close a block. -/
def TokenKind.isBracket (kind : TokenKind) : Bool := kind == .layoutStart || kind == .layoutEnd

theorem TokenKind.isBracket_of_isWritten {kind : TokenKind} (h : kind.isWritten = true) :
    kind.isBracket = false := by
  cases kind <;> first | rfl | cases h

theorem TokenKind.isBracket_of_ne {kind : TokenKind} (hstart : kind ≠ .layoutStart)
    (hstop : kind ≠ .layoutEnd) : kind.isBracket = false := by
  unfold isBracket
  rw [beq_false_of_ne hstart, beq_false_of_ne hstop]
  rfl

/-- Trees with any roots. -/
def anyRoot : TokenKind → Bool := fun _ => true

/-- Trees among which no separator stands. -/
def noSeparator : TokenKind → Bool := fun kind => kind != .layoutSep

namespace Input

/-- The places from one up to another hold whole token trees, with roots of some
kinds. -/
inductive Trees (input : Input) : (roots : TokenKind → Bool) → (first last : Nat) → Prop
  | nil (roots : TokenKind → Bool) (place : Nat) : Trees input roots place place
  | token {roots : TokenKind → Bool} {first last : Nat} (inside : first < input.size)
      (hroot : roots (input.kindAt first) = true)
      (hkind : (input.kindAt first).isBracket = false) (rest : Trees input roots (first + 1) last) :
      Trees input roots first last
  | block {roots : TokenKind → Bool} {first stop last : Nat} (hroot : roots .layoutStart = true)
      (hstart : input.kindAt first = .layoutStart)
      (body : Trees input anyRoot (first + 1) stop) (hstop : input.kindAt stop = .layoutEnd)
      (rest : Trees input roots (stop + 1) last) : Trees input roots first last

/-- The end at a place closes the block whose start is at another. -/
structure Closes (input : Input) (start stop : Nat) : Prop where
  start_kind : input.kindAt start = .layoutStart
  body : Trees input anyRoot (start + 1) stop
  stop_kind : input.kindAt stop = .layoutEnd

variable {input : Input} {roots : TokenKind → Bool} {first place last stop : Nat}

/-- There is nothing to see at or behind the end of the file. -/
theorem lt_size_of_kindAt (h : input.kindAt place ≠ .eof) : place < input.size := by
  apply Decidable.byContradiction
  intro hsize
  apply h
  have hnone : input.significant[place]? = none :=
    Array.getElem?_eq_none (Nat.le_of_not_lt hsize)
  unfold kindAt get? rawIndex?
  rw [hnone]
  rfl

theorem lt_size_of_start (h : input.kindAt place = .layoutStart) : place < input.size :=
  lt_size_of_kindAt (by rw [h]; exact nofun)

theorem lt_size_of_stop (h : input.kindAt place = .layoutEnd) : place < input.size :=
  lt_size_of_kindAt (by rw [h]; exact nofun)

namespace Trees

theorem first_le (h : Trees input roots first last) : first ≤ last := by
  induction h with
  | nil => exact Nat.le_refl _
  | token _ _ _ _ ih => exact Nat.le_of_succ_le ih
  | block _ _ _ _ _ ihbody ihrest => omega

theorem append (h : Trees input roots first place) (more : Trees input roots place last) :
    Trees input roots first last := by
  induction h with
  | nil => exact more
  | token inside hroot hkind _ ih => exact .token inside hroot hkind (ih more)
  | block hroot hstart body hstop _ _ ih => exact .block hroot hstart body hstop (ih more)

/-- What is a root stays one when more kinds are. -/
theorem weaken {others : TokenKind → Bool} (h : Trees input roots first last)
    (hroots : ∀ kind, roots kind = true → others kind = true) :
    Trees input others first last := by
  induction h with
  | nil => exact .nil _ _
  | token inside hroot hkind _ ih => exact .token inside (hroots _ hroot) hkind (ih hroots)
  | block hroot hstart body hstop _ _ ih =>
    exact .block (hroots _ hroot) hstart body hstop (ih hroots)

theorem any (h : Trees input roots first last) : Trees input anyRoot first last :=
  h.weaken fun _ _ => rfl

/-- One token. -/
theorem single (hroot : roots (input.kindAt place) = true) (inside : place < input.size)
    (hkind : (input.kindAt place).isBracket = false) : Trees input roots place (place + 1) :=
  .token inside hroot hkind (.nil _ _)

/-- Trees that start where others do lead no further than an end behind those. -/
theorem rest_of_stop (h : Trees input roots first last)
    (outer : Trees input anyRoot first stop) (hstop : input.kindAt stop = .layoutEnd) :
    Trees input anyRoot last stop := by
  induction h generalizing stop with
  | nil => exact outer
  | token _ _ hkind _ ih =>
    cases outer with
    | nil =>
      rw [hstop] at hkind
      cases hkind
    | token _ _ _ rest => exact ih rest hstop
    | block _ hstart =>
      rw [hstart] at hkind
      cases hkind
  | @block roots first inner last _ hstart body hinner _ ihbody ihrest =>
    cases outer with
    | nil =>
      rw [hstop] at hstart
      cases hstart
    | token _ _ hkind =>
      rw [hstart] at hkind
      cases hkind
    | @block _ _ outerStop _ _ _ others houter rest =>
      -- both bodies start behind the same start, so they end at the same place
      have hsame : inner = outerStop := by
        have hleft := (ihbody others houter).first_le
        have hright : outerStop ≤ inner := by
          cases ihbody others houter with
          | nil => exact Nat.le_refl _
          | token _ _ hkind =>
            rw [hinner] at hkind
            cases hkind
          | block _ hstart =>
            rw [hinner] at hstart
            cases hstart
        exact Nat.le_antisymm hleft hright
      subst hsame
      exact ihrest rest hstop

/-- There is one end behind trees that is not part of them. -/
theorem stop_unique {other : Nat} (h : Trees input roots first stop)
    (hstop : input.kindAt stop = .layoutEnd) (more : Trees input anyRoot first other)
    (hother : input.kindAt other = .layoutEnd) : stop = other := by
  cases h.rest_of_stop more hother with
  | nil => rfl
  | token _ _ hkind =>
    rw [hstop] at hkind
    cases hkind
  | block _ hstart =>
    rw [hstop] at hstart
    cases hstart

end Trees

/-- A block has one end, the first place at which it is balanced. -/
theorem Closes.unique {start other : Nat} (h : input.Closes start stop)
    (more : input.Closes start other) : stop = other :=
  h.body.stop_unique h.stop_kind more.body more.stop_kind

end Input

end Offside
