import Offside.Proofs.Grammar.Matches

/-!
How deep runs nest.

Without left recursion a run nests only so deep before it consumes a token.
`Grammar.isBounded` checks a bound on that depth, given one for each rule and one
that does for everything behind a token. It also checks that what is repeated
consumes tokens, and where a grammar recovers: not in an attempt, where nothing is
recovered, and only from children that take whole token trees.
-/

namespace Offside

/-- Bounds on the nesting of runs. -/
structure Bounds where
  /-- The levels that any run needs until it consumes a token. -/
  levels : Nat
  /-- The levels that a rule needs until then. -/
  rule : Nat → Nat
  /-- Whether a rule is free of recovery, so that an attempt may refer to it. -/
  isPlain : Nat → Bool

namespace Grammar

mutual

/-- Whether a run of the grammar, speculative or not, needs no more than `height`
levels until it consumes a token. -/
def isBounded (bounds : Bounds) : Grammar → (attempted : Bool) → (height : Nat) → Bool
  | _, _, 0 => false
  | .token _, _, _ + 1 | .literal _, _, _ + 1 | .succeed, _, _ + 1 => true
  | .seq parts, attempted, height + 1 => seqBounded bounds parts attempted height
  | .choice alternatives, attempted, height + 1 => allBounded bounds alternatives attempted height
  | .attempt child, _, height + 1 => child.isBounded bounds true height
  | .relax _ child, attempted, height + 1 => !attempted && child.isBounded bounds false height
  | .relaxTo _ child sync, attempted, height + 1 =>
    !attempted && child.isBounded bounds false height && sync.isBounded bounds true height
      && child.takesTrees noSeparator
  | .many child _, attempted, height + 1 =>
    child.isBounded bounds attempted height && child.consumes
  | .fold _ start next, attempted, height + 1 =>
    start.isBounded bounds attempted height && start.consumes
      && next.isBounded bounds attempted bounds.levels && next.consumes
  | .continuation _ start rest, attempted, height + 1 =>
    start.isBounded bounds attempted height && start.consumes
      && rest.isBounded bounds attempted bounds.levels
  | .reference _ rule, attempted, height + 1 =>
    bounds.rule rule ≤ height && (!attempted || bounds.isPlain rule)
  | .capture .., _, _ + 1 => false
  | .optional child, attempted, height + 1 | .heal child, attempted, height + 1
  | .guard child .., attempted, height + 1 | .node _ child, attempted, height + 1
  | .labeled _ child, attempted, height + 1 | .lookahead _ child, attempted, height + 1 =>
    child.isBounded bounds attempted height

/-- Whether the parts need no more than `height` levels each, and the general bound
once a part has consumed a token. -/
def seqBounded (bounds : Bounds) : List Grammar → (attempted : Bool) → (height : Nat) → Bool
  | [], _, _ => true
  | part :: rest, attempted, height =>
    part.isBounded bounds attempted height
      && seqBounded bounds rest attempted (if part.consumes then bounds.levels else height)

/-- Whether all alternatives need no more than `height` levels. -/
def allBounded (bounds : Bounds) : List Grammar → (attempted : Bool) → (height : Nat) → Bool
  | [], _, _ => true
  | alternative :: rest, attempted, height =>
    alternative.isBounded bounds attempted height && allBounded bounds rest attempted height

end

end Grammar

end Offside
