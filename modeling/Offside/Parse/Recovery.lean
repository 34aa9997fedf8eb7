import Offside.Parse.Forms

/-!
The forms that recover from errors.

Where the child of a recovering form fails, the run goes on as if it had
matched: with nothing in its place, or with the malformed input in an error
node. Inside an attempt nothing is recovered, so that a speculative branch
fails cleanly and can be taken back.
-/

namespace Offside.Form

variable {input : Input} (run : Runner input)

/-- The child. Where it fails outside an attempt, nothing of it is kept and
`recover` goes on from its start. -/
def orRecover (child : Grammar) (recover : Context input → Reply input) (ctx : Context input) :
    Reply input :=
  if ctx.inAttempt then run child ctx
  else
    let (transaction, ctx) := ctx.start
    match run child ctx with
    | none => none
    | some (outcome, ctx) =>
      if outcome.success then some (outcome, ctx.commit transaction)
      else recover (ctx.rollback transaction)

/-- The child, or a report that it is missing. -/
def relax (message : String) (child : Grammar) (ctx : Context input) : Reply input :=
  orRecover run child (fun ctx =>
    some (.matched ctx.place, ctx.report (.missing ctx.point message child.expected))) ctx

/-- Whether `sync` would match here, with the context after the trial, in which
nothing of it is kept. -/
def syncMatches (sync : Grammar) (ctx : Context input) : Option (Bool × Context input) :=
  let (transaction, ctx) := ctx.start
  let before := ctx.inAttempt
  match run sync (ctx.setInAttempt true) with
  | none => none
  | some (outcome, ctx) =>
    some (outcome.success, (ctx.setInAttempt before).rollback transaction)

/-- Skips token trees up to the end of the tokens, the end of the block, or a
match of `sync`. A tree that is not consumed would be skipped for ever, which
gives no answer. -/
def skipTo (sync : Grammar) (ctx : Context input) : Option (Context input) :=
  if _ : ctx.atEnd then some ctx
  else if ctx.isAt .layoutEnd then some ctx
  else
    match syncMatches run sync ctx with
    | none => none
    | some (true, after) => some after
    | some (false, after) =>
      let place := ctx.place
      let skipped := after.skipTokenTree.2
      if _ : place < skipped.place then skipTo sync skipped else none
termination_by input.size - ctx.place
decreasing_by
  have inside := Context.place_lt_size ‹_›
  change input.size - skipped.place < input.size - place
  omega

/-- Skips malformed input, at least one token tree, in a node of its own, and
reports it. At the end of the tokens or of a block there is nothing to skip. -/
def skipMalformed (sync : Grammar) (message : String) (ctx : Context input) : Reply input :=
  if ctx.atEnd || ctx.isAt .layoutEnd then
    some (.matched ctx.place, ctx.report (.skipped ctx.point message))
  else
    let place := ctx.place
    let (marker, ctx) := ctx.mark
    match skipTo run sync ctx.skipTokenTree.2 with
    | none => none
    | some ctx =>
      let ctx := (ctx.complete marker .error).2
      some (.matched ctx.place,
        ctx.report (.skipped (ctx.spanBetween place ctx.place) message))

/-- The child, or a report on the input that is skipped up to where `sync`
matches. -/
def relaxTo (message : String) (child sync : Grammar) (ctx : Context input) : Reply input :=
  orRecover run child (skipMalformed run sync message) ctx

end Offside.Form
