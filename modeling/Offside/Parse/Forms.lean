import Offside.Parse.Context
import Offside.Parse.Outcome
import Offside.Parse.Progress

/-!
What each form of grammar does, given how its children run.

There is one function for each form that runs children; the forms that recover
from errors have a module of their own. All of them take the way to run a
child as the parameter `run`, which may give no answer; so a fact that `run`
keeps is shown to be kept form by form. Two rules hold throughout. A failure
that consumed nothing leaves no trace: no token, node or diagnostic. A failure
that consumed something stands until an `attempt`, a `heal` or a recovery
takes it back.
-/

namespace Offside

/-- The outcome of a run and the context after it; none where the run gives no
answer. -/
abbrev Reply (input : Input) := Option (Outcome × Context input)

/-- A way to run grammars. -/
abbrev Runner (input : Input) := Grammar → Context input → Reply input

namespace Form

variable {input : Input} (run : Runner input)

-- ========================================================== tokens

/-- Consumes the current token if there is one and it is a match. -/
def single (self : Grammar) (isMatch : Bool) (ctx : Context input) : Outcome × Context input :=
  if !ctx.atEnd && isMatch then
    let ctx := ctx.advance
    (.matched ctx.place, ctx)
  else (.failed ctx.place self, ctx)

-- ============================================= sequence and choice

/-- Runs the parts in order, up to the first that fails. -/
def seq (outcome : Outcome) : List Grammar → Context input → Reply input
  | [], ctx => some (outcome, ctx)
  | part :: rest, ctx =>
    match run part ctx with
    | none => none
    | some (step, ctx) =>
      let outcome := outcome.merge step
      if outcome.success then seq outcome rest ctx else some (outcome, ctx)

/-- The outcome of the alternatives tried so far, with one more. -/
def joined (sofar : Option Outcome) (outcome : Outcome) : Outcome :=
  match sofar with
  | none => outcome
  | some earlier => earlier.merge outcome

/-- Runs the alternatives in order, up to the first that succeeds or consumes a
token. The others leave no trace but their expectations. -/
def choose (sofar : Option Outcome) : List Grammar → Context input → Reply input
  | [], ctx => some (sofar.getD ((Outcome.matched ctx.place).withSuccess false), ctx)
  | alternative :: rest, ctx =>
    let place := ctx.place
    let (transaction, ctx) := ctx.start
    match run alternative ctx with
    | none => none
    | some (outcome, ctx) =>
      if outcome.success || (Progress.between place ctx.place).isMade then
        some (joined sofar outcome, ctx.commit transaction)
      else choose (some (joined sofar outcome)) rest (ctx.rollback transaction)

/-- Runs the alternatives that the current token admits. Where it admits none,
the choice itself is what was expected. -/
def choice (self : Grammar) (alternatives : List Grammar) (ctx : Context input) : Reply input :=
  let candidates := Grammar.candidates alternatives ctx.kind
  if self.hasDispatch && candidates.isEmpty then some (.failed ctx.place self, ctx)
  else choose run none candidates ctx

-- ====================================================== repetition

/-- What a step that was taken back adds to an outcome: its expectations if it
failed at once, and nothing if it went further. -/
def absorb (outcome step : Outcome) (progress : Progress) : Outcome :=
  if !progress.isMade && !step.success then outcome.merge (step.withSuccess true) else outcome

/-- The report on a repetition whose child matches without consuming. -/
def stuckMessage (self : Grammar) : String :=
  "grammar error: " ++ Text.backquoted self.name ++ " repeats a parser that consumed nothing"

/-- Runs the child until it fails or the tokens end. `count` matches went
before, and `least` are needed. -/
def repeatFrom (self child : Grammar) (least count : Nat) (outcome : Outcome)
    (ctx : Context input) : Reply input :=
  if _ : ctx.atEnd then
    some (if count < least then outcome.merge (.failed ctx.place child) else outcome, ctx)
  else
    let place := ctx.place
    let (transaction, opened) := ctx.start
    match run child opened with
    | none => none
    | some (step, after) =>
      if step.success then
        if _ : place < after.place then
          repeatFrom self child least (count + 1) (outcome.merge step) (after.commit transaction)
        else
          some (outcome.merge (.rejected place (some self) .grammarFault (stuckMessage self)),
            after.rollback transaction)
      else if (Progress.between place after.place).isMade then
        some (outcome.merge step, after.commit transaction)
      else
        some ((outcome.merge step).withSuccess (decide (least ≤ count)),
          after.rollback transaction)
termination_by input.size - ctx.place
decreasing_by
  have inside := Context.place_lt_size ‹_›
  simp only [Context.place_commit]
  omega

/-- Gives up the marker in front of a fold's start, if no step has matched. -/
def abandonUnwrapped (node : Marker ⊕ CompletedMarker) (ctx : Context input) : Context input :=
  match node with
  | .inl marker => ctx.abandon marker
  | .inr _ => ctx

/-- Runs the step of a fold until it fails, makes no progress, or the tokens
end. `node` is the node completed by the step before, or the marker in front
of the start while no step has matched. -/
def foldFrom (kind : NodeKind) (next : Grammar) (node : Marker ⊕ CompletedMarker)
    (outcome : Outcome) (ctx : Context input) : Reply input :=
  if _ : ctx.atEnd then some (outcome, abandonUnwrapped node ctx)
  else
    let place := ctx.place
    let (transaction, opened) := ctx.start
    match run next opened with
    | none => none
    | some (step, after) =>
      if _ : step.success ∧ place < after.place then
        match _ : (after.commit transaction).wrap node kind with
        | (done, wrapped) => foldFrom kind next (.inr done) (outcome.merge step) wrapped
      else
        let progress := Progress.between place after.place
        some (absorb outcome step progress,
          abandonUnwrapped node (after.rollback transaction))
termination_by input.size - ctx.place
decreasing_by
  have inside := Context.place_lt_size ‹_›
  have kept := Context.place_wrap (after.commit transaction) node kind
  simp_all only [Context.place_commit]
  omega

/-- A start, then steps that each wrap everything before them in a node. -/
def fold (kind : NodeKind) (start next : Grammar) (ctx : Context input) : Reply input :=
  let (marker, ctx) := ctx.mark
  match run start ctx with
  | none => none
  | some (outcome, ctx) =>
    if outcome.success then foldFrom run kind next (.inl marker) outcome ctx
    else some (outcome, ctx.abandon marker)

/-- A start that is wrapped in a node if the rest follows it. -/
def continuation (kind : NodeKind) (start rest : Grammar) (ctx : Context input) : Reply input :=
  let (marker, ctx) := ctx.mark
  match run start ctx with
  | none => none
  | some (outcome, ctx) =>
    if outcome.success then
      let place := ctx.place
      let (transaction, ctx) := ctx.start
      match run rest ctx with
      | none => none
      | some (more, ctx) =>
        if more.success then
          some (outcome.merge more, ((ctx.commit transaction).complete marker kind).2)
        else
          let progress := Progress.between place ctx.place
          some (absorb outcome more progress, (ctx.rollback transaction).abandon marker)
    else some (outcome, ctx.abandon marker)

-- ==================================================== taking back

/-- The child, or nothing where it fails without consuming. -/
def optional (child : Grammar) (ctx : Context input) : Reply input :=
  let place := ctx.place
  let (transaction, ctx) := ctx.start
  match run child ctx with
  | none => none
  | some (outcome, ctx) =>
    if outcome.success || (Progress.between place ctx.place).isMade then
      some (outcome, ctx.commit transaction)
    else some (outcome.withSuccess true, ctx.rollback transaction)

/-- The child, or no trace of it. A failure that had consumed something is
reported as the failure of the whole at its start. -/
def whole (self child : Grammar) (ctx : Context input) : Reply input :=
  let place := ctx.place
  let (transaction, ctx) := ctx.start
  match run child ctx with
  | none => none
  | some (outcome, ctx) =>
    if outcome.success then some (outcome, ctx.commit transaction)
    else
      let progress := Progress.between place ctx.place
      some (if progress.isMade then .failed place self else outcome, ctx.rollback transaction)

/-- Healing: the child or no trace of it, if the current token admits it. -/
def heal (self child : Grammar) (ctx : Context input) : Reply input :=
  if child.canStart ctx.kind then whole run self child ctx
  else some (.failed ctx.place self, ctx)

/-- An attempt: as healing, but speculative. -/
def attempt (self child : Grammar) (ctx : Context input) : Reply input :=
  if child.canStart ctx.kind then
    let before := ctx.inAttempt
    match whole run self child (ctx.setInAttempt true) with
    | none => none
    | some (outcome, ctx) => some (outcome, ctx.setInAttempt before)
  else some (.failed ctx.place self, ctx)

/-- The child, if the text it consumes is accepted. -/
def guard (self child : Grammar) (message : String) (accepts : String → Bool)
    (ctx : Context input) : Reply input :=
  let place := ctx.place
  let (transaction, ctx) := ctx.start
  match run child ctx with
  | none => none
  | some (outcome, ctx) =>
    if outcome.success then
      if accepts (input.textBetween place ctx.place) then some (outcome, ctx.commit transaction)
      else
        some (.rejected place (some self) .notAllowedHere message, ctx.rollback transaction)
    else if (Progress.between place ctx.place).isMade then
      some (outcome, ctx.commit transaction)
    else some (outcome, ctx.rollback transaction)

-- ================================================= nodes and labels

/-- The child in a node of its own, if the current token admits it. -/
def node (kind : NodeKind) (child : Grammar) (ctx : Context input) : Reply input :=
  if child.canStart ctx.kind then
    let (marker, ctx) := ctx.mark
    match run child ctx with
    | none => none
    | some (outcome, ctx) =>
      if outcome.success then some (outcome, (ctx.complete marker kind).2)
      else some (outcome, ctx.abandon marker)
  else some (.failed ctx.place child, ctx)

/-- The child; where it fails at its start, the label is what was expected. -/
def labeled (self child : Grammar) (ctx : Context input) : Reply input :=
  let place := ctx.place
  match run child ctx with
  | none => none
  | some (outcome, ctx) =>
    if !outcome.success && outcome.place == place then
      some ({ Outcome.failed place self with message := outcome.message }, ctx)
    else some (outcome, ctx)

/-- The child, if the condition holds. -/
def lookahead (self child : Grammar) (holds : View → Bool) (ctx : Context input) : Reply input :=
  if holds ctx.view then run child ctx else some (.failed ctx.place self, ctx)

/-- The grammar that the text of the current token selects. -/
def capture (self : Grammar) (select : String → Grammar) (ctx : Context input) : Reply input :=
  if ctx.atEnd then some (.failed ctx.place self, ctx) else run (select ctx.text) ctx

/-- The body of a rule. A rule that is not in the table is a fault of the
grammar. -/
def reference (self : Grammar) (name : String) (body : Option Grammar) (ctx : Context input) :
    Reply input :=
  match body with
  | some body => run body ctx
  | none =>
    let text := "rule " ++ Text.backquoted name ++ " was dropped while still referenced"
    some (.rejected ctx.place (some self) .grammarFault text, ctx)

end Form

end Offside
