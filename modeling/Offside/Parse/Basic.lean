import Offside.Parse.Replay
import Offside.Parse.Run

/-!
Parsing: from an input to a tree and diagnostics.

A parse runs the entry grammar from the start of the input. It always makes
a tree that holds all tokens: if the entry fails or stops early, what is left
goes into an error node under the root, and one diagnostic says what was
expected there.
-/

namespace Offside

/-- The tree of a text, and what is wrong with the text. -/
structure Parse where
  tree : Tree
  diagnostics : List Diagnostic
  deriving Inhabited

namespace Parse

/-- Whether a diagnostic is an error. -/
def hasErrors (parse : Parse) : Bool := parse.diagnostics.any (·.isError)

/-- How the token at a place reads in messages. -/
def describeAt (input : Input) (place : Nat) : String :=
  match input.get? place with
  | none => TokenKind.eof.describe
  | some (.raw token) => Text.backquoted (token.text input.source)
  | some token => token.kind.describe

/-- The diagnostic for an entry that failed. -/
def failureDiagnostic (input : Input) (outcome : Outcome) : Diagnostic :=
  let span := input.spanAt outcome.place
  let expected := outcome.descriptions
  match outcome.message with
  | some message =>
    let base := Diagnostic.error message.code message.text span message.text
    if expected.isEmpty then base else base.addNote ("expected " ++ Text.nameList expected)
  | none => .unexpected span expected (describeAt input outcome.place)

/-- The diagnostic for input that is left over at a place. -/
def leftoverDiagnostic (input : Input) (outcome : Outcome) (place : Nat) : Diagnostic :=
  let expected := if outcome.place = place then outcome.descriptions else []
  .unexpected (input.spanAt place) (sortedOnce (expected ++ [TokenKind.eof.describe]))
    (describeAt input place)

variable {input : Input}

/-- Consumes `count` tokens. -/
def advanceMany (ctx : Context input) : Nat → Context input
  | 0 => ctx
  | count + 1 => advanceMany ctx.advance count

/-- The log of a parse, after the entry has run with `outcome`: failure is
reported, what is left is put in an error node, and the root is completed. -/
def close (root : Marker) (outcome : Outcome) (ctx : Context input) : Context input :=
  let ctx := if outcome.success then ctx else ctx.report (failureDiagnostic input outcome)
  let ctx :=
    if ctx.atEnd then ctx
    else
      let ctx :=
        if outcome.success then ctx.report (leftoverDiagnostic input outcome ctx.place) else ctx
      let (leftover, ctx) := ctx.mark
      ((advanceMany ctx (input.size - ctx.place)).complete leftover .error).2
  (ctx.complete root .root).2

/-- The outcome of an entry that nests without end, which is a fault of the
grammar. -/
def endless (entry : Grammar) : Outcome :=
  .rejected 0 (some entry) .grammarFault
    ("grammar error: " ++ Text.backquoted entry.name ++ " nests without end")

/-- Runs an entry grammar from the start of an input, under the marker of the
root. An entry that nests without end fails where it starts. -/
def runEntry (rules : RuleTable) (entry : Grammar) (ctx : Context input) :
    Outcome × Context input :=
  (entry.run rules ctx).getD (endless entry, ctx)

/-- The parse of an input whose entry came to a reply under the marker of the
root. -/
def ofReply (reply : Outcome × Context input) : Parse :=
  let (tree, diagnostics) :=
    Event.replay input (close (Context.initial input).mark.1 reply.1 reply.2).events
  ⟨tree, diagnostics⟩

/-- The parse of an input with an entry grammar. -/
def ofInput (rules : RuleTable) (entry : Grammar) (input : Input) : Parse :=
  ofReply (runEntry rules entry (Context.initial input).mark.2)

/-- Puts diagnostics in front. -/
def prependDiagnostics (parse : Parse) (diagnostics : List Diagnostic) : Parse :=
  { parse with diagnostics := diagnostics ++ parse.diagnostics }

end Parse

end Offside
