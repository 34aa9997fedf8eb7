import Offside.Diagnostic.Code
import Offside.Grammar.Describe

/-!
Outcomes of running a grammar.

Besides success, an outcome remembers the furthest place at which something
was expected, and which grammars expected it, so that the report on a failure
lists everything that could have stood there. Merging two outcomes in a row
keeps the further one; at the same place it joins the expectations and keeps
the first message.
-/

namespace Offside

/-- A report that takes the place of the list of expectations. -/
structure FailureMessage where
  code : ErrorCode
  text : String
  deriving DecidableEq, Inhabited

/-- The outcome of running a grammar. -/
structure Outcome where
  /-- The furthest place where something was expected, or where the run ended. -/
  place : Nat
  /-- The grammars that did not match at that place. -/
  expected : List Grammar
  /-- The first report made at that place. -/
  message : Option FailureMessage
  success : Bool
  deriving Inhabited

namespace Outcome

/-- A match that ended at a place. -/
def matched (place : Nat) : Outcome := ⟨place, [], none, true⟩

/-- A grammar did not match at a place. -/
def failed (place : Nat) (grammar : Grammar) : Outcome := ⟨place, [grammar], none, false⟩

/-- A failure with a report of its own. -/
def rejected (place : Nat) (grammar : Option Grammar) (code : ErrorCode) (text : String) :
    Outcome :=
  ⟨place, grammar.toList, some ⟨code, text⟩, false⟩

/-- The outcome with another success flag. -/
def withSuccess (outcome : Outcome) (success : Bool) : Outcome :=
  { outcome with success := success }

/-- The outcome of two runs in a row; the second decides on success. -/
def merge (earlier later : Outcome) : Outcome :=
  if later.place < earlier.place then earlier.withSuccess later.success
  else if earlier.place < later.place then later
  else
    ⟨earlier.place, earlier.expected ++ later.expected, earlier.message <|> later.message,
      later.success⟩

/-- Everything expected at the outcome's place, sorted and each once. -/
def descriptions (outcome : Outcome) : List String :=
  sortedOnce (outcome.expected.flatMap Grammar.startDescriptions)

end Outcome

end Offside
