import Offside.Layout.Rules
import Offside.Layout.State

/-!
One step of the layout pass.

`State.step` folds a significant token into the state, as its action says.
The blocks that the token opens start at `next`, the position of the next
significant token or of the end of the text.
-/

namespace Offside.Layout

namespace Closing

/-- What `where` closes: every `do` block, and the blocks that it does not
lie right of. -/
def beforeWhere : Closing := fun position frame =>
  frame.delimiter == .doBlock || offsideEnd position frame

/-- What `in` closes: the blocks that it does not end itself. -/
def beforeIn : Closing := fun _ frame =>
  frame.isIndent && frame.delimiter != .letBlock && frame.delimiter != .letStmt
    && frame.delimiter != .adoBlock

/-- What an arrow closes: every `do` block, no `of` block, and the other
blocks that it does not lie right of. -/
def beforeArrow : Closing := fun position frame =>
  frame.delimiter == .doBlock || (frame.delimiter != .ofBlock && offsideEnd position frame)

/-- What an equals sign closes to reach the guard that it ends. -/
def beforeEquals : Closing := fun _ frame =>
  frame.delimiter == .whereBlock || frame.delimiter == .letBlock || frame.delimiter == .letStmt

end Closing

namespace State

/-- An `else` that goes on with a chain of instances: it stands where a
declaration starts, whether or not the frame of the declaration before it is
still open. -/
def continuesInstances (state : State) (position : Position) : Bool :=
  let stack := state.stack
  stack.startsTopDecl position ||
    ((stack.delimiter == .topDecl || stack.delimiter == .topDeclHead)
      && stack.pop.startsTopDecl position)

/-- Ends a pending record label. -/
def endLabel (state : State) : State := state.popIf (· == .property)

-- ====================================================== the actions

/-- A token that starts a declaration opens its context. -/
def stepDefault (state : State) (token : Token) : State :=
  let state := state.emitDefault token
  if state.stack.startsTopDecl token.start then state.push .topDecl token.start else state

/-- A token that starts a declaration opens the context `delimiter`; any other
ends a pending record label. -/
def stepHead (state : State) (token : Token) (delimiter : Delimiter) : State :=
  let state := state.emitDefault token
  if state.stack.startsTopDecl token.start then state.push delimiter token.start
  else state.endLabel

/-- `where` ends the head of a declaration, is a plain label, or closes
blocks first; it opens a block unless it is a label. -/
def stepWhere (state : State) (token : Token) (next : Position) : State :=
  match state.stack.delimiter with
  | .topDeclHead => (state.popAny.emit (.raw token)).openBlock .whereBlock next
  | .property => state.popAny.emit (.raw token)
  | _ =>
    ((state.collapse .beforeWhere token.start).emit (.raw token)).openBlock .whereBlock next

/-- `in` closes the nearest block that it can end; where that is a `let`
directly inside an `ado`, it ends both. -/
def stepIn (state : State) (token : Token) : State :=
  let closed := state.collapsed .beforeIn token.start
  if closed.delimiter = .letStmt ∧ closed.pop.delimiter = .adoBlock then
    let state := (state.collapse .beforeIn token.start).popAny.popAny
    ((state.emitStop token.start).emitStop token.start).emit (.raw token)
  else if closed.top.isIndent then
    let state := (state.collapse .beforeIn token.start).popAny
    (state.emitStop token.start).emit (.raw token)
  else (state.emitDefault token).endLabel

/-- `let` opens a block, of statements where it stands in the column of a
`do` or an `ado` block. -/
def stepLet (state : State) (token : Token) (next : Position) : State :=
  state.emitKeyword token fun state =>
    let top := state.stack.top
    let isStatement := (top.delimiter == .doBlock || top.delimiter == .adoBlock)
      && top.position.column == token.start.column
    state.openBlock (if isStatement then .letStmt else .letBlock) next

/-- `of` ends the head of a `case` and opens a block with the binders of the
first branch. -/
def stepOf (state : State) (token : Token) (next : Position) : State :=
  let state := state.collapse .indented token.start
  if state.stack.delimiter = .caseHead then
    ((state.popAny.emit (.raw token)).openBlock .ofBlock next).push .caseBinders next
  else (state.emitDefault token).endLabel

/-- `then` ends the condition of an `if`, closing the blocks inside it. -/
def stepThen (state : State) (token : Token) : State :=
  if (state.collapsed .indented token.start).delimiter = .ifHead then
    ((state.collapse .indented token.start).popAny.emit (.raw token)).push .thenBranch token.start
  else (state.emitDefault token).endLabel

/-- `else` ends the branch of a `then`, closing the blocks inside it, or goes
on with a chain of instances. -/
def stepElse (state : State) (token : Token) : State :=
  if (state.collapsed .indented token.start).delimiter = .thenBranch then
    (state.collapse .indented token.start).popAny.emit (.raw token)
  else
    let state := state.collapse .offside token.start
    if state.continuesInstances token.start then state.emit (.raw token)
    else ((state.separate token.start).emit (.raw token)).endLabel

/-- An arrow ends the binders or the guard in front of it. -/
def stepArrow (state : State) (token : Token) : State :=
  ((state.collapse .beforeArrow token.start).popIf fun delimiter =>
    delimiter == .caseBinders || delimiter == .caseGuard || delimiter == .lambdaBinders).emit
      (.raw token)

/-- An equals sign ends the guard of a local declaration. -/
def stepEquals (state : State) (token : Token) : State :=
  if (state.collapsed .beforeEquals token.start).delimiter = .declGuard then
    (state.collapse .beforeEquals token.start).popAny.emit (.raw token)
  else state.emitDefault token

/-- A bar opens the guard of a branch or of a local declaration. -/
def stepPipe (state : State) (token : Token) : State :=
  match (state.collapsed .offsideEnd token.start).delimiter with
  | .ofBlock =>
    ((state.collapse .offsideEnd token.start).push .caseGuard token.start).emit (.raw token)
  | .letBlock | .letStmt | .whereBlock =>
    ((state.collapse .offsideEnd token.start).push .declGuard token.start).emit (.raw token)
  | _ => state.emitDefault token

/-- An operator closes the blocks that it does not lie right of. -/
def stepOperator (state : State) (token : Token) : State :=
  ((state.collapse .offsideEnd token.start).separate token.start).emit (.raw token)

/-- A backquote closes the infix section it ends, or opens one. -/
def stepTick (state : State) (token : Token) : State :=
  if (state.collapsed .indented token.start).delimiter = .tick then
    (state.collapse .indented token.start).popAny.emit (.raw token)
  else (state.stepOperator token).push .tick token.start

/-- A comma closes the blocks inside its bracket; between record fields a
label follows. -/
def stepComma (state : State) (token : Token) : State :=
  let state := (state.collapse .indented token.start).emit (.raw token)
  if state.stack.delimiter = .brace then state.push .property token.start else state

/-- A point ends the binders of a `forall`; elsewhere a label follows. -/
def stepDot (state : State) (token : Token) : State :=
  let state := state.emitDefault token
  if state.stack.delimiter = .forallBinders then state.popAny
  else state.push .property token.start

/-- A closing bracket closes the blocks inside it. -/
def stepClose (state : State) (token : Token) (delimiter : Delimiter) : State :=
  ((state.collapse .indented token.start).popIf (· == delimiter)).emit (.raw token)

/-- A closing brace also ends a pending record label. -/
def stepCloseBrace (state : State) (token : Token) : State :=
  ((state.collapse .indented token.start).endLabel.popIf (· == .brace)).emit (.raw token)

-- ========================================================= the step

/-- Folds a significant token into the state. -/
def step (state : State) (token : Token) (next : Position) (action : Action) : State :=
  match action with
  | .default => state.stepDefault token
  | .label => state.stepHead token .topDecl
  | .declHead => state.stepHead token .topDeclHead
  | .whereKeyword => state.stepWhere token next
  | .inKeyword => state.stepIn token
  | .letKeyword => state.stepLet token next
  | .doKeyword => state.emitKeyword token (·.openBlock .doBlock next)
  | .adoKeyword => state.emitKeyword token (·.openBlock .adoBlock next)
  | .caseKeyword => state.emitKeyword token (·.push .caseHead token.start)
  | .ofKeyword => state.stepOf token next
  | .ifKeyword => state.emitKeyword token (·.push .ifHead token.start)
  | .thenKeyword => state.stepThen token
  | .elseKeyword => state.stepElse token
  | .forallKeyword => state.emitKeyword token (·.push .forallBinders token.start)
  | .backslash => (state.emitDefault token).push .lambdaBinders token.start
  | .arrow => state.stepArrow token
  | .equals => state.stepEquals token
  | .pipe => state.stepPipe token
  | .tick => state.stepTick token
  | .comma => state.stepComma token
  | .dot => state.stepDot token
  | .openParen => (state.emitDefault token).push .paren token.start
  | .openBrace =>
    ((state.emitDefault token).push .brace token.start).push .property token.start
  | .openSquare => (state.emitDefault token).push .square token.start
  | .closeParen => state.stepClose token .paren
  | .closeBrace => state.stepCloseBrace token
  | .closeSquare => state.stepClose token .square
  | .operator => state.stepOperator token

end State

end Offside.Layout
