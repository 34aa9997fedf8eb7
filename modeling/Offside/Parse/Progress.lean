/-!
Whether a grammar consumed tokens.

A failure that consumed nothing leaves the choice open; one that consumed
something commits to the alternative that failed.
-/

namespace Offside

/-- Whether tokens were consumed. -/
inductive Progress
  | made
  | none
  deriving DecidableEq, Inhabited

namespace Progress

/-- The progress from one place to another. -/
def between (before after : Nat) : Progress := if before < after then .made else .none

/-- Progress in either of two steps. -/
def or : Progress → Progress → Progress
  | .none, .none => .none
  | _, _ => .made

/-- Whether there was progress. -/
def isMade : Progress → Bool
  | .made => true
  | .none => false

end Progress

end Offside
