import Offside.Grammar.Describe
import Offside.Grammar.First
import Offside.Proofs.Parse.Log

/-!
What a grammar denotes.

Here grammars are evaluated without a context. An evaluation starts from what a
condition may look at, and comes to a `Yield`: whether the grammar matches, the
place behind what it has consumed, and the pieces that it adds to the tree.
There is no log to take back or to write into: what a rolled-back evaluation has
yielded is not used, a node is put around the pieces of its child, and a fold
puts one node around what it has so far and around each step in turn.

There is one function for each form of grammar, as for the runs. They nest as
deep as the runs do, so that levels suffice for both or for neither.
-/

namespace Offside

/-- What a grammar comes to. -/
structure Yield where
  success : Bool
  /-- The place behind what was consumed. -/
  place : Nat
  /-- What is added to the tree. -/
  pieces : List Piece

/-- The yield with pieces in front. -/
def Yield.behind (yield : Yield) (pieces : List Piece) : Yield :=
  { yield with pieces := pieces ++ yield.pieces }

namespace View

/-- What is to be seen at another place. -/
def movedTo (view : View) (place : Nat) : View := { view with place }

/-- What is to be seen inside an attempt. -/
def speculative (view : View) : View := { view with inAttempt := true }

/-- The point at which the current token starts. -/
def point (view : View) : Span := Span.point (view.input.spanAt view.place).start

end View

/-- A way to evaluate grammars. -/
abbrev Evaluator := Grammar → View → Option Yield

namespace Direct

/-- Nothing consumed and nothing added. -/
def nothing (success : Bool) (view : View) : Yield := ⟨success, view.place, []⟩

/-- The current token, if there is one and it is a match. -/
def single (isMatch : Bool) (view : View) : Yield :=
  if !view.atEnd && isMatch then ⟨true, view.place + 1, [.token view.place]⟩
  else nothing false view

variable (eval : Evaluator)

-- ============================================= sequence and choice

/-- The pieces of the parts, up to the first that fails. -/
def seq : List Grammar → View → Option Yield
  | [], view => some (nothing true view)
  | part :: rest, view => do
    let step ← eval part view
    if step.success then
      (seq rest (view.movedTo step.place)).map (·.behind step.pieces)
    else some step

/-- The first alternative that succeeds or consumes a token. -/
def choose : List Grammar → View → Option Yield
  | [], view => some (nothing false view)
  | alternative :: rest, view => do
    let step ← eval alternative view
    if step.success || decide (view.place < step.place) then some step else choose rest view

-- ====================================================== repetition

/-- The pieces of the matches, one behind the other. `count` matches went before,
and `least` are needed. -/
def repeatFrom (child : Grammar) (least count : Nat) (view : View) : Option Yield :=
  if _ : view.atEnd then some (nothing (decide (least ≤ count)) view)
  else do
    let step ← eval child view
    if step.success then
      if _ : view.place < step.place then
        (repeatFrom child least (count + 1) (view.movedTo step.place)).map (·.behind step.pieces)
      else some (nothing false view)
    else if view.place < step.place then some step
    else some (nothing (decide (least ≤ count)) view)
termination_by view.input.size - view.place
decreasing_by
  simp_all only [View.atEnd, View.movedTo, decide_eq_true_eq, Nat.not_le]
  omega

/-- The steps of a fold: each puts a node around the pieces so far and its own. -/
def foldFrom (kind : NodeKind) (next : Grammar) (sofar : List Piece) (view : View) :
    Option Yield :=
  if _ : view.atEnd then some ⟨true, view.place, sofar⟩
  else do
    let step ← eval next view
    if _ : step.success ∧ view.place < step.place then
      foldFrom kind next [.node kind (sofar ++ step.pieces)] (view.movedTo step.place)
    else some ⟨true, view.place, sofar⟩
termination_by view.input.size - view.place
decreasing_by
  simp_all only [View.atEnd, View.movedTo, decide_eq_true_eq, Nat.not_le]
  omega

/-- A start, then steps that each wrap everything before them. -/
def fold (kind : NodeKind) (start next : Grammar) (view : View) : Option Yield := do
  let first ← eval start view
  if first.success then foldFrom eval kind next first.pieces (view.movedTo first.place)
  else some first

/-- A start that is wrapped in a node if the rest follows it. -/
def continuation (kind : NodeKind) (start rest : Grammar) (view : View) : Option Yield := do
  let first ← eval start view
  if first.success then do
    let more ← eval rest (view.movedTo first.place)
    if more.success then some ⟨true, more.place, [.node kind (first.pieces ++ more.pieces)]⟩
    else some first
  else some first

-- ==================================================== taking back

/-- The child, or nothing where it fails without consuming. -/
def optional (child : Grammar) (view : View) : Option Yield := do
  let step ← eval child view
  if step.success || decide (view.place < step.place) then some step
  else some (nothing true view)

/-- The child, or nothing of it. -/
def whole (child : Grammar) (view : View) : Option Yield := do
  let step ← eval child view
  if step.success then some step else some (nothing false view)

/-- The child or nothing of it, if the current token admits it. -/
def heal (child : Grammar) (view : View) : Option Yield :=
  if child.canStart view.kind then whole eval child view else some (nothing false view)

/-- The child, if the text it consumes is accepted. -/
def guard (child : Grammar) (accepts : String → Bool) (view : View) : Option Yield := do
  let step ← eval child view
  if step.success then
    if accepts (view.input.textBetween view.place step.place) then some step
    else some (nothing false view)
  else if view.place < step.place then some step
  else some (nothing false view)

-- ================================================= nodes and labels

/-- The child in a node of its own; where it fails, what it has added. -/
def node (kind : NodeKind) (child : Grammar) (view : View) : Option Yield :=
  if child.canStart view.kind then do
    let step ← eval child view
    if step.success then some ⟨true, step.place, [.node kind step.pieces]⟩ else some step
  else some (nothing false view)

/-- The child, if the condition holds. -/
def lookahead (child : Grammar) (holds : View → Bool) (view : View) : Option Yield :=
  if holds view then eval child view else some (nothing false view)

/-- The grammar that the text of the current token selects. -/
def capture (select : String → Grammar) (view : View) : Option Yield :=
  if view.atEnd then some (nothing false view) else eval (select view.text) view

/-- The body of a rule; nothing if there is none. -/
def reference (body : Option Grammar) (view : View) : Option Yield :=
  match body with
  | some body => eval body view
  | none => some (nothing false view)

-- ========================================================= recovery

/-- The child; where it fails outside an attempt, `recover` instead. -/
def orRecover (child : Grammar) (recover : View → Option Yield) (view : View) : Option Yield :=
  if view.inAttempt then eval child view
  else do
    let step ← eval child view
    if step.success then some step else recover view

/-- The child, or a report that it is missing. -/
def relax (message : String) (child : Grammar) (view : View) : Option Yield :=
  orRecover eval child (fun view => some ⟨true, view.place,
    [.report (.missing view.point message child.expected)]⟩) view

/-- The place behind the end of the block that is `depth` blocks out. -/
def skipBlocks (input : Input) (place depth : Nat) : Nat :=
  if _ : input.size ≤ place then place
  else
    let depth := match input.kindAt place with
      | .layoutStart => depth + 1
      | .layoutEnd => depth - 1
      | _ => depth
    if input.kindAt place = .eof then place
    else if depth = 0 then place + 1
    else skipBlocks input (place + 1) depth
termination_by input.size - place

/-- The place where skipping token trees stops: at the end of the tokens, at the end
of the block, or where `sync` matches. -/
def skipTo (sync : Grammar) (view : View) : Option Nat :=
  if _ : view.atEnd then some view.place
  else if view.isAt .layoutEnd then some view.place
  else do
    let trial ← eval sync view.speculative
    if trial.success then some view.place
    else
      let skipped := skipBlocks view.input view.place 0
      if _ : view.place < skipped then skipTo sync (view.movedTo skipped) else none
termination_by view.input.size - view.place
decreasing_by
  simp_all only [View.atEnd, View.movedTo, decide_eq_true_eq, Nat.not_le]
  omega

/-- The skipped tokens, at least one token tree, in one error node, with a report. -/
def skipMalformed (sync : Grammar) (message : String) (view : View) : Option Yield :=
  if view.atEnd || view.isAt .layoutEnd then
    some ⟨true, view.place, [.report (.skipped view.point message)]⟩
  else do
    let last ← skipTo eval sync (view.movedTo (skipBlocks view.input view.place 0))
    some ⟨true, last, [.node .error (tokenPieces view.place last),
      .report (skippedReport view.input view.place last message)]⟩

/-- The child, or what is skipped up to where `sync` matches. -/
def relaxTo (message : String) (child sync : Grammar) (view : View) : Option Yield :=
  orRecover eval child (skipMalformed eval sync message) view

-- ====================================================== evaluation

/-- One level of an evaluation, when `eval` evaluates what is below. -/
def evalLevel (rules : RuleTable) (grammar : Grammar) (view : View) : Option Yield :=
  match grammar with
  | .token kind => some (single (view.isAt kind) view)
  | .literal text => some (single (view.text == text) view)
  | .seq parts => seq eval parts view
  | .choice alternatives => choose eval (Grammar.candidates alternatives view.kind) view
  | .many child least => repeatFrom eval child least 0 view
  | .optional child => optional eval child view
  | .attempt child => heal eval child view.speculative
  | .heal child => heal eval child view
  | .guard child _ accepts => guard eval child accepts view
  | .node kind child => node eval kind child view
  | .labeled _ child => eval child view
  | .relax message child => relax eval message child view
  | .relaxTo message child sync => relaxTo eval message child sync view
  | .fold kind start next => fold eval kind start next view
  | .continuation kind start rest => continuation eval kind start rest view
  | .reference _ rule => reference eval (rules rule) view
  | .succeed => some (nothing true view)
  | .lookahead holds child => lookahead eval child holds view
  | .capture _ select => capture eval select view

/-- Evaluates a grammar with at most `levels` evaluations nested in each other. -/
def evalWithin (rules : RuleTable) : Nat → Evaluator
  | 0, _, _ => none
  | levels + 1, grammar, view => evalLevel (evalWithin rules levels) rules grammar view

end Direct

end Offside
