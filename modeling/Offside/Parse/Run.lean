import Offside.Parse.Recovery

/-!
Running a grammar.

The run of a grammar runs its parts, and through a rule it can come back to
itself, so the nesting of runs has no bound that the grammar alone would
give. A run is therefore given a number of levels it may nest; it gives no
answer if they do not suffice. A parse uses a number of levels far beyond
what grammars without left recursion need.
-/

namespace Offside

namespace Grammar

variable {input : Input}

/-- One level of a run: what the grammar does, when `run` runs what is below. -/
def runLevel (rules : RuleTable) (run : Runner input) (grammar : Grammar) (ctx : Context input) :
    Reply input :=
  match grammar with
  | .token kind => some (Form.single grammar (ctx.isAt kind) ctx)
  | .literal text => some (Form.single grammar (ctx.text == text) ctx)
  | .seq parts => Form.seq run (.matched ctx.place) parts ctx
  | .choice alternatives => Form.choice run grammar alternatives ctx
  | .many child least => Form.repeatFrom run grammar child least 0 (.matched ctx.place) ctx
  | .optional child => Form.optional run child ctx
  | .attempt child => Form.attempt run grammar child ctx
  | .heal child => Form.heal run grammar child ctx
  | .guard child message accepts => Form.guard run grammar child message accepts ctx
  | .node kind child => Form.node run kind child ctx
  | .labeled _ child => Form.labeled run grammar child ctx
  | .relax message child => Form.relax run message child ctx
  | .relaxTo message child sync => Form.relaxTo run message child sync ctx
  | .fold kind start next => Form.fold run kind start next ctx
  | .continuation kind start rest => Form.continuation run kind start rest ctx
  | .reference name rule => Form.reference run grammar name (rules rule) ctx
  | .succeed => some (.matched ctx.place, ctx)
  | .lookahead holds child => Form.lookahead run grammar child holds ctx
  | .capture _ select => Form.capture run grammar select ctx

/-- The number of levels that one stack has room for. -/
def levelsPerStack : Nat := 4096

/-- The value of a computation, which runs on a stack of its own. -/
def onFreshStack {α : Type} (compute : Unit → α) : α :=
  (Task.spawn compute .dedicated).get

theorem onFreshStack_eq {α : Type} (compute : Unit → α) :
    onFreshStack compute = compute () := rfl

/-- Runs a grammar with at most `levels` runs nested in each other. Every so many
levels the run goes on with a fresh stack. -/
def runWithin (rules : RuleTable) : Nat → Runner input
  | 0, _, _ => none
  | levels + 1, grammar, ctx =>
    if levels % levelsPerStack = 0 then
      onFreshStack fun _ => runLevel rules (runWithin rules levels) grammar ctx
    else runLevel rules (runWithin rules levels) grammar ctx

theorem runWithin_succ (rules : RuleTable) (levels : Nat) (grammar : Grammar)
    (ctx : Context input) :
    runWithin rules (levels + 1) grammar ctx
      = runLevel rules (runWithin rules levels) grammar ctx := by
  rw [runWithin]
  split <;> rfl

/-- The number of levels between the consumption of one token and of the next
that a parse allows for. -/
def levelsPerToken : Nat := 1048576

/-- The number of levels that a parse of an input allows for. -/
def levelsFor (input : Input) : Nat := (input.size + 1) * levelsPerToken - 1

/-- Runs a grammar, with levels enough for its input. -/
def run (rules : RuleTable) : Runner input := runWithin rules (levelsFor input)

end Grammar

end Offside
