import Offside.Layout.Delimiter
import Offside.Source.Position
import Offside.Text.Quoted

/-!
Stacks of open layout contexts.

A stack is the list of its frames from the top down. Under the last frame
lies the root, which belongs to every stack: an empty list shows it as its
top, and popping an empty list leaves it empty.
-/

namespace Offside.Layout

/-- An open context: why and where it was opened. -/
structure Frame where
  delimiter : Delimiter
  position : Position
  deriving DecidableEq, Inhabited

/-- The frame under every stack. -/
def Frame.root : Frame := ⟨.root, ⟨0, 0, 0⟩⟩

/-- Whether the frame is a block. -/
def Frame.isIndent (frame : Frame) : Bool := frame.delimiter.isIndent

/-- `Delimiter@line:column`. -/
def Frame.render (frame : Frame) : String :=
  frame.delimiter.name ++ "@" ++ frame.position.render

/-- The open contexts above the root, innermost first. -/
structure Stack where
  frames : List Frame
  deriving DecidableEq, Inhabited

namespace Stack

/-- The stack with no context but the root. -/
def empty : Stack := ⟨[]⟩

/-- Opens a context. -/
def push (stack : Stack) (delimiter : Delimiter) (position : Position) : Stack :=
  ⟨⟨delimiter, position⟩ :: stack.frames⟩

/-- Closes the innermost context; the root stays. -/
def pop (stack : Stack) : Stack := ⟨stack.frames.tail⟩

/-- Whether no context but the root is open. -/
def isRoot (stack : Stack) : Bool := stack.frames.isEmpty

/-- The innermost context. -/
def top (stack : Stack) : Frame := stack.frames.headD Frame.root

/-- Why the innermost context is open. -/
def delimiter (stack : Stack) : Delimiter := stack.top.delimiter

/-- Where the innermost context was opened. -/
def position (stack : Stack) : Position := stack.top.position

/-- The stack under the innermost context, if that is not the root. -/
def tail? (stack : Stack) : Option Stack :=
  match stack.frames with
  | [] => none
  | _ :: below => some ⟨below⟩

/-- All frames from the top down, the root last. -/
def toList (stack : Stack) : List Frame := stack.frames ++ [Frame.root]

/-- The number of contexts above the root. -/
def depth (stack : Stack) : Nat := stack.frames.length

/-- The innermost context whose reason satisfies `p`, the root included. -/
def find? (stack : Stack) (p : Delimiter → Bool) : Option Frame :=
  stack.toList.find? fun frame => p frame.delimiter

/-- The innermost block. -/
def innermostBlock? (stack : Stack) : Option Frame := stack.find? Delimiter.isIndent

/-- Whether `position` starts a declaration of the module: a `where` block
is the only context, and the position is in its column. -/
def startsTopDecl (stack : Stack) (position : Position) : Bool :=
  match stack.frames with
  | [block] => block.delimiter == .whereBlock && block.position.column == position.column
  | _ => false

/-- The frames from the top down to the root, on one line. -/
def render (stack : Stack) : String :=
  String.intercalate " " (stack.toList.map Frame.render)

/-- The frames as a bracketed list of quoted texts. -/
def renderList (stack : Stack) : String :=
  "[" ++ String.intercalate ", " (stack.toList.map fun frame => Text.quoted frame.render) ++ "]"

end Stack

end Offside.Layout
