import Offside.Layout.Stack
import Offside.Layout.Token

/-!
The state of the layout pass and its moves.

A state is the stack of open contexts with the tokens emitted so far, each
beside the stack in force when it was emitted. The moves know nothing about
particular tokens of the language; which of them a token makes is decided in
the step of the pass.
-/

namespace Offside.Layout

/-- An emitted token and the stack it was emitted under. -/
structure Entry where
  token : LayoutToken
  stack : Stack
  deriving DecidableEq, Inhabited

/-- The open contexts, and what was emitted, newest first. -/
structure State where
  stack : Stack
  emitted : List Entry
  deriving DecidableEq, Inhabited

-- ================================================ which frames close

/-- Decides whether a frame closes before a token at a position. -/
abbrev Closing := Position → Frame → Bool

/-- A block whose column is right of the token. -/
def Closing.offside : Closing := fun position frame =>
  frame.isIndent && position.column < frame.position.column

/-- A block whose column is the token's or right of it. -/
def Closing.offsideEnd : Closing := fun position frame =>
  frame.isIndent && position.column ≤ frame.position.column

/-- Any block. -/
def Closing.indented : Closing := fun _ frame => frame.isIndent

namespace State

/-- Nothing open and nothing emitted. -/
def initial : State := ⟨.empty, []⟩

/-- What was emitted, oldest first. -/
def output (state : State) : List Entry := state.emitted.reverse

-- =========================================================== moves

/-- Opens a context. -/
def push (state : State) (delimiter : Delimiter) (position : Position) : State :=
  { state with stack := state.stack.push delimiter position }

/-- Closes the innermost context if its reason satisfies `p`, with no token;
the root stays. -/
def popIf (state : State) (p : Delimiter → Bool) : State :=
  match state.stack.frames with
  | [] => state
  | frame :: below => if p frame.delimiter then { state with stack := ⟨below⟩ } else state

/-- Closes the innermost context, with no token; the root stays. -/
def popAny (state : State) : State := state.popIf fun _ => true

/-- Emits a token under the current stack. -/
def emit (state : State) (token : LayoutToken) : State :=
  { state with emitted := ⟨token, state.stack⟩ :: state.emitted }

/-- Emits the end of a block. -/
def emitStop (state : State) (position : Position) : State := state.emit (.stop position)

/-- Whether a virtual opening lies at or past `offset`. -/
def opensPast (offset : Nat) (entry : Entry) : Bool :=
  match entry.token with
  | .start position => offset ≤ position.offset
  | _ => false

/-- Emits trivia. Openings at the end of the output that point past it stay
behind it, so that no virtual token precedes the blank in front of its
position; trivia that goes before some of them is recorded under the stack
of the token it follows. -/
def emitTrivia (state : State) (token : Token) : State :=
  let later := state.emitted.takeWhile (opensPast token.span.stop)
  let earlier := state.emitted.dropWhile (opensPast token.span.stop)
  let stack := match later, earlier with
    | _ :: _, before :: _ => before.stack
    | _, _ => state.stack
  { state with emitted := later ++ ⟨.raw token, stack⟩ :: earlier }

/-- Opens a block at the position of the token after its keyword. It opens
only if there is no enclosing block, or if the position is right of the
innermost one's column; otherwise the keyword stands without a block. -/
def openBlock (state : State) (delimiter : Delimiter) (next : Position) : State :=
  let opens := match state.stack.innermostBlock? with
    | none => true
    | some block => block.position.column < next.column
  if opens then (state.push delimiter next).emit (.start next) else state

/-- Closes frames from the top while `closes` holds, with an end for every
block among them. Each end is recorded under the stack that it leaves. -/
def collapseFrames (closes : Closing) (position : Position) (emitted : List Entry) :
    List Frame → State
  | [] => ⟨.empty, emitted⟩
  | frame :: below =>
    if closes position frame then
      let emitted := if frame.isIndent then ⟨.stop position, ⟨below⟩⟩ :: emitted else emitted
      collapseFrames closes position emitted below
    else ⟨⟨frame :: below⟩, emitted⟩

/-- Closes frames from the top while `closes` holds. -/
def collapse (state : State) (closes : Closing) (position : Position) : State :=
  collapseFrames closes position state.emitted state.stack.frames

/-- The stack that collapsing would leave. -/
def collapsed (state : State) (closes : Closing) (position : Position) : Stack :=
  ⟨state.stack.frames.dropWhile (closes position)⟩

/-- Emits a separator before a token in the column of the innermost context
and on another line: it ends a declaration, starts a branch of a `case` with
fresh binders, or separates the items of a block. -/
def separate (state : State) (position : Position) : State :=
  let top := state.stack.top
  if position.column ≠ top.position.column ∨ position.line = top.position.line then state
  else if top.delimiter = .topDecl ∨ top.delimiter = .topDeclHead then
    state.popAny.emit (.sep position)
  else if top.delimiter = .ofBlock then
    (state.emit (.sep position)).push .caseBinders position
  else if top.isIndent then state.emit (.sep position)
  else state

/-- The common case: closes the blocks that the token lies left of,
separates, and emits the token. -/
def emitDefault (state : State) (token : Token) : State :=
  ((state.collapse .offside token.start).separate token.start).emit (.raw token)

/-- Emits a reserved word. In the place of a record label it is a plain label
and ends that place; elsewhere `after` follows. -/
def emitKeyword (state : State) (token : Token) (after : State → State) : State :=
  if state.stack.delimiter = .property then (state.emitDefault token).popAny
  else after (state.emitDefault token)

/-- Closes all contexts, with an end for every block among them. -/
def unwind (state : State) (eof : Position) : State :=
  state.collapse (fun _ _ => true) eof

end State

end Offside.Layout
