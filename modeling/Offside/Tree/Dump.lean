import Offside.Text.Quoted
import Offside.Tree.Basic

/-!
Trees as text.

A dump has one line for each node and leaf, indented by two blanks for every
level. The nested form shows a tree as one expression.
-/

namespace Offside.Tree

/-- `Kind@start..end`. -/
def headline (name : String) (span : Span) : String := name ++ "@" ++ span.render

/-- The line of a node, or of a leaf with its text, without its indentation. -/
def dumpLine (source : String) : Tree → String
  | .leaf token =>
    headline token.kind.name token.span ++ " "
      ++ Text.quoted (Text.slice source token.span.start token.span.stop)
  | .node kind span _ => headline kind.name span

/-- A line of a dump, indented for its depth. -/
def indented (depth : Nat) (line : String) : String := "".pushn ' ' (2 * depth) ++ line ++ "\n"

/-- The line that is taken from the stack is a part of its weight. -/
theorem pendingWeight_pop {stack : Array (Nat × Tree)} {top : Nat × Tree}
    (h : stack.back? = some top) :
    pendingWeight stack.toList = pendingWeight stack.pop.toList + top.2.weight := by
  obtain ⟨rest, rfl⟩ := Array.back?_eq_some_iff.mp h
  simp [pendingWeight, totalWeight_append, totalWeight]

/-- What is dumped so far, and the lines of the trees on the stack. -/
def dumpFrom (source : String) (withTrivia : Bool) (stack : Array (Nat × Tree))
    (dumped : String) : String :=
  match _ : stack.back? with
  | none => dumped
  | some (depth, .node kind span children) =>
    dumpFrom source withTrivia (stack.pop ++ deepen depth children.reverse)
      (dumped ++ indented depth (dumpLine source (.node kind span children)))
  | some (depth, .leaf token) =>
    if token.kind.isTrivia && !withTrivia then dumpFrom source withTrivia stack.pop dumped
    else
      dumpFrom source withTrivia stack.pop
        (dumped ++ indented depth (dumpLine source (.leaf token)))
termination_by pendingWeight stack.toList
decreasing_by
  · rw [pendingWeight_pop ‹stack.back? = some _›, Array.toList_appendList, pendingWeight_append,
      pendingWeight_deepen, totalWeight_reverse]
    simp only [weight]
    omega
  all_goals
    rw [pendingWeight_pop ‹stack.back? = some _›]
    simp only [weight]
    omega

/-- The dump of a tree; trivia are shown only on request. -/
def dump (tree : Tree) (source : String) (withTrivia : Bool) : String :=
  match tree with
  | .leaf token => dumpFrom source withTrivia #[(0, .leaf token)] ""
  | .node kind span children =>
    dumpFrom source withTrivia (deepen 0 children.reverse).toArray
      (indented 0 (dumpLine source (.node kind span children)))

-- ================================================ the nested form

/-- Fields of a record, by name, between braces. -/
def record (name : String) (fields : List (String × String)) : String :=
  let field (entry : String × String) := entry.1 ++ ": " ++ entry.2
  name ++ " \x7b " ++ String.intercalate ", " (fields.map field) ++ " \x7d"

/-- A leaf as an expression. -/
def nestedLeaf (token : Leaf) : String :=
  record "SyntaxToken" [("kind", token.kind.name), ("span", token.span.render)]

mutual

/-- A tree as an expression. -/
def nested : Tree → String
  | .leaf token => nestedLeaf token
  | .node kind span children =>
    record "SyntaxNode" [("kind", kind.name), ("span", span.render),
      ("children", "[" ++ String.intercalate ", " (nestedAll children) ++ "]")]

/-- Trees as expressions, each marked as a leaf or a node. -/
def nestedAll : List Tree → List String
  | [] => []
  | .leaf token :: rest => ("Token(" ++ nestedLeaf token ++ ")") :: nestedAll rest
  | .node kind span children :: rest =>
    ("Node(" ++ nested (.node kind span children) ++ ")") :: nestedAll rest

end

end Offside.Tree
