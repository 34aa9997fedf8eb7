import Offside.Grammar.Input
import Offside.Parse.Event
import Offside.Tree.Basic

/-!
Replaying the log of a parse into a tree.

Trivia goes where it appears: in front of a token it joins the node of the
token, in front of a node it stays in the enclosing node, and after the last
token it falls to the root.
-/

namespace Offside

/-- A tree under construction: the index of the first token not yet placed, the
open nodes from the innermost out with their children so far (newest first),
the tree that is complete, and the diagnostics met so far (newest first). -/
structure Builder where
  nextRaw : Nat
  openNodes : List (NodeKind × List Tree)
  finished : Option Tree
  diagnostics : List Diagnostic
  deriving Inhabited

namespace Builder

variable (input : Input)

/-- Nothing placed and nothing open. -/
def initial : Builder := ⟨0, [], none, []⟩

/-- The builder with one more child in the innermost open node; without an open
node the child has no place. -/
def addChild (builder : Builder) (child : Tree) : Builder :=
  match builder.openNodes with
  | [] => builder
  | (kind, children) :: outer =>
    { builder with openNodes := (kind, child :: children) :: outer }

/-- Places the next token. -/
def placeNext (builder : Builder) : Builder :=
  let builder := match input.tokens[builder.nextRaw]? with
    | some token => builder.addChild (.leaf ⟨token.kind, token.span⟩)
    | none => builder
  { builder with nextRaw := builder.nextRaw + 1 }

/-- Places the next `count` tokens. -/
def placeMany (builder : Builder) : Nat → Builder
  | 0 => builder
  | count + 1 => (builder.placeNext input).placeMany count

/-- The number of trivia tokens in a row from `index` on, among `limit` tokens. -/
def triviaRun (index : Nat) : Nat → Nat
  | 0 => 0
  | limit + 1 =>
    if (input.tokens[index]?.map LayoutToken.isTrivia).getD false then
      triviaRun (index + 1) limit + 1
    else 0

/-- Places the trivia in front of the next token that is not trivia. -/
def placeTrivia (builder : Builder) : Builder :=
  builder.placeMany input (triviaRun input builder.nextRaw input.tokens.size)

/-- Places all tokens that are left. -/
def placeRest (builder : Builder) : Builder :=
  builder.placeMany input (input.tokens.size - builder.nextRaw)

/-- Opens a node. Trivia in front of it stays outside. -/
def openNode (builder : Builder) (kind : NodeKind) : Builder :=
  let builder := if builder.openNodes.isEmpty then builder else builder.placeTrivia input
  { builder with openNodes := (kind, []) :: builder.openNodes }

/-- The offset of the next token, or of the end of the source. -/
def nextOffset (builder : Builder) : Nat :=
  (input.tokens[builder.nextRaw]?.map (·.span.start)).getD input.endOffset

/-- The span from the first to the last of some children, given newest first; a
point at `offset` if there are none. -/
def spanOf (children : List Tree) (offset : Nat) : Span :=
  match children.getLast?, children.head? with
  | some first, some last => ⟨first.span.start, last.span.stop⟩
  | _, _ => Span.point offset

/-- Closes the innermost open node; the outermost takes all tokens that are left. -/
def closeNode (builder : Builder) : Builder :=
  let builder := if builder.openNodes.length = 1 then builder.placeRest input else builder
  match builder.openNodes with
  | [] => builder
  | (kind, children) :: outer =>
    let node := Tree.node kind (spanOf children (builder.nextOffset input)) children.reverse
    let builder := { builder with openNodes := outer }
    match outer with
    | [] => { builder with finished := some node }
    | _ :: _ => builder.addChild node

/-- Places the significant token of a place, with the trivia in front of it. -/
def placeToken (builder : Builder) (place : Nat) : Builder :=
  match input.rawIndex? place with
  | none => builder
  | some raw => builder.placeMany input (raw + 1 - builder.nextRaw)

/-- Closes all open nodes. -/
def closeAll (builder : Builder) : Builder :=
  builder.openNodes.foldl (fun builder _ => builder.closeNode input) builder

end Builder

namespace Event

/-- The kinds of the nodes that wrap the opening at `index`, outermost first, put
in front of `kinds`; and the log in which their own openings are blank, so
that they do not open again. -/
def wrappers (events : Array Event) (index : Nat) (kinds : List NodeKind) :
    Nat → Option Nat → List NodeKind × Array Event
  | 0, _ | _, none => (kinds, events)
  | limit + 1, some distance =>
    let outer := index + distance
    match events[outer]? with
    | some (.start kind wrapper) =>
      wrappers (events.setIfInBounds outer .blank) outer (kind.toList ++ kinds) limit wrapper
    | _ => (kinds, events.setIfInBounds outer .blank)

/-- Replays the event at `index`. -/
def replayAt (input : Input) (state : Array Event × Builder) (index : Nat) :
    Array Event × Builder :=
  let (events, builder) := state
  match events[index]? with
  | none | some (.start none _) => (events, builder)
  | some (.start (some kind) wrapper) =>
    let (kinds, events) := wrappers events index [kind] events.size wrapper
    (events, kinds.foldl (fun builder kind => builder.openNode input kind) builder)
  | some .finish => (events, builder.closeNode input)
  | some (.token place) => (events, builder.placeToken input place)
  | some (.report diagnostic) =>
    (events, { builder with diagnostics := diagnostic :: builder.diagnostics })

/-- Replays a log: the tree, and the diagnostics in order. A log that opens no
node yields an empty root. -/
def replay (input : Input) (events : Array Event) : Tree × List Diagnostic :=
  let builder :=
    ((List.range events.size).foldl (replayAt input) (events, Builder.initial)).2.closeAll input
  (builder.finished.getD (.node .root (Span.point 0) []), builder.diagnostics.reverse)

end Event

end Offside
