import Offside.Source.Span
import Offside.Text.Slice
import Offside.Token.Kind
import Offside.Tree.Kind

/-!
Lossless syntax trees.

The leaves of a tree are the tokens of the text with their spans, trivia and
the virtual tokens of the layout included; nodes group them. A tree is as
deep as the text is nested, so it is walked with a stack of what is still to
visit, and not by recursion into the children. A stack has its top at the
end, so what is to be visited first is pushed last.
-/

namespace Offside

/-- A token in a tree. -/
structure Leaf where
  kind : TokenKind
  span : Span
  deriving DecidableEq, Inhabited

/-- A token, or a node with its children in order. -/
inductive Tree
  | leaf (token : Leaf)
  | node (kind : NodeKind) (span : Span) (children : List Tree)
  deriving Inhabited

namespace Tree

/-- The stretch of the source that a tree covers. -/
def span : Tree → Span
  | .leaf token => token.span
  | .node _ span _ => span

/-- The children of a node. -/
def children : Tree → List Tree
  | .leaf _ => []
  | .node _ _ children => children

/-- The leaf, if the tree is one. -/
def leaf? : Tree → Option Leaf
  | .leaf token => some token
  | .node .. => none

/-- The kind of the node, if the tree is one. -/
def nodeKind? : Tree → Option NodeKind
  | .leaf _ => none
  | .node kind _ _ => some kind

/-- Whether the tree is a node. -/
def isNode : Tree → Bool
  | .leaf _ => false
  | .node .. => true

/-- The children of a node that are nodes. -/
def childNodes (tree : Tree) : List Tree := tree.children.filter isNode

-- ======================================================= the weight

mutual

/-- The number of nodes and leaves of a tree. -/
def weight : Tree → Nat
  | .leaf _ => 1
  | .node _ _ children => 1 + totalWeight children

/-- The number of nodes and leaves of several trees. -/
def totalWeight : List Tree → Nat
  | [] => 0
  | tree :: rest => tree.weight + totalWeight rest

end

theorem totalWeight_append (trees others : List Tree) :
    totalWeight (trees ++ others) = totalWeight trees + totalWeight others := by
  induction trees with
  | nil => simp [totalWeight]
  | cons tree rest ih => simp [totalWeight, ih, Nat.add_assoc]

theorem totalWeight_reverse (trees : List Tree) :
    totalWeight trees.reverse = totalWeight trees := by
  induction trees with
  | nil => rfl
  | cons tree rest ih => simp [totalWeight, totalWeight_append, ih, Nat.add_comm]

/-- Trees that are left out weigh nothing. -/
theorem totalWeight_filter_le (p : Tree → Bool) (trees : List Tree) :
    totalWeight (trees.filter p) ≤ totalWeight trees := by
  induction trees with
  | nil => simp
  | cons tree rest ih =>
    rw [List.filter_cons]
    split
    · simp only [totalWeight]
      omega
    · simp only [totalWeight]
      omega

theorem weight_eq (tree : Tree) : tree.weight = 1 + totalWeight tree.children := by
  cases tree with
  | leaf => simp [weight, children, totalWeight]
  | node => simp [weight, children]

/-- The top of a stack is a part of its weight. -/
theorem totalWeight_pop {stack : Array Tree} {top : Tree} (h : stack.back? = some top) :
    totalWeight stack.toList = totalWeight stack.pop.toList + top.weight := by
  obtain ⟨rest, rfl⟩ := Array.back?_eq_some_iff.mp h
  simp [totalWeight_append, totalWeight]

-- ======================================================== the leaves

/-- The leaves found so far, and those of the trees on the stack. -/
def leavesFrom (stack : Array Tree) (found : Array Leaf) : Array Leaf :=
  match _ : stack.back? with
  | none => found
  | some (.leaf token) => leavesFrom stack.pop (found.push token)
  | some (.node _ _ children) => leavesFrom (stack.pop ++ children.reverse) found
termination_by totalWeight stack.toList
decreasing_by
  · rw [totalWeight_pop ‹stack.back? = some _›]
    simp only [weight]
    omega
  · rw [totalWeight_pop ‹stack.back? = some _›, Array.toList_appendList, totalWeight_append,
      totalWeight_reverse]
    simp only [weight]
    omega

/-- The leaves of a tree, in order. -/
def leaves : Tree → List Leaf
  | .leaf token => [token]
  | .node _ _ children => (leavesFrom children.reverse.toArray #[]).toList

/-- The leaves of a tree that are not trivia, in order. -/
def significantLeaves (tree : Tree) : List Leaf :=
  tree.leaves.filter fun token => !token.kind.isTrivia

/-- The text of the leaves of a tree, in order. -/
def text (tree : Tree) (source : String) : String :=
  String.join (tree.leaves.map fun token => Text.slice source token.span.start token.span.stop)

-- ======================================================= the nodes

/-- The stack with what stands in it from a place on turned around. -/
def reverseFrom (stack : Array Tree) (start : Nat) : Array Tree :=
  stack.take start ++ (stack.drop start).reverse

/-- Reversing the part behind the first trees leaves those in place. -/
theorem toList_reverseFrom_append (stack : Array Tree) (trees : List Tree) :
    (reverseFrom (stack ++ trees) stack.size).toList = stack.toList ++ trees.reverse := by
  have hpushed : (stack ++ trees).size = stack.size + trees.length := by
    rw [← Array.length_toList, Array.toList_appendList, List.length_append, Array.length_toList]
  simp [reverseFrom, hpushed]

/-- The nodes found so far, and those on the stack with all nodes below them. -/
def descendantsFrom (stack : Array Tree) (found : Array Tree) : Array Tree :=
  match _ : stack.back? with
  | none => found
  | some current =>
    let start := stack.pop.size
    descendantsFrom (reverseFrom (stack.pop ++ current.childNodes) start) (found.push current)
termination_by totalWeight stack.toList
decreasing_by
  have hfewer : totalWeight current.childNodes ≤ totalWeight current.children :=
    totalWeight_filter_le isNode current.children
  rw [totalWeight_pop ‹stack.back? = some _›, toList_reverseFrom_append, totalWeight_append,
    totalWeight_reverse, weight_eq]
  omega

/-- The node and every node below it, parents before children; none for a leaf. -/
def descendants : Tree → List Tree
  | .leaf _ => []
  | .node kind span children => (descendantsFrom #[.node kind span children] #[]).toList

/-- The kinds of the nodes of a tree, parents before children. -/
def descendantKinds (tree : Tree) : List NodeKind := tree.descendants.filterMap nodeKind?

-- ================================================= with their depth

/-- The trees with the depth of children of a node at `depth`. -/
def deepen (depth : Nat) (children : List Tree) : List (Nat × Tree) :=
  children.map fun child => (depth + 1, child)

/-- The number of nodes and leaves that are still to visit. -/
def pendingWeight (pending : List (Nat × Tree)) : Nat := totalWeight (pending.map Prod.snd)

theorem pendingWeight_append (pending others : List (Nat × Tree)) :
    pendingWeight (pending ++ others) = pendingWeight pending + pendingWeight others := by
  simp [pendingWeight, totalWeight_append]

/-- The depths put next to the children weigh nothing. -/
theorem pendingWeight_deepen (depth : Nat) (children : List Tree) :
    pendingWeight (deepen depth children) = totalWeight children := by
  simp [pendingWeight, deepen, Function.comp_def]

/-- Every node and leaf of the pending trees with its depth, parents before
children and children in order. -/
def visit : List (Nat × Tree) → List (Nat × Tree)
  | [] => []
  | (depth, .leaf token) :: pending => (depth, .leaf token) :: visit pending
  | (depth, .node kind span children) :: pending =>
    (depth, .node kind span children) :: visit (deepen depth children ++ pending)
termination_by pending => pendingWeight pending
decreasing_by
  · simp [pendingWeight, totalWeight, weight]
  · rw [pendingWeight_append, pendingWeight_deepen]
    simp only [pendingWeight, List.map_cons, totalWeight, weight]
    omega

/-- Every node and leaf of a tree with its depth, parents before children. -/
def preorder (tree : Tree) : List (Nat × Tree) := visit [(0, tree)]

end Tree

end Offside
