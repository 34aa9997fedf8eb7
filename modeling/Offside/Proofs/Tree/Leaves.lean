import Offside.Tree.Basic

/-!
The leaves of a tree, by recursion.

`Tree.leaves` comes out of a walk with a stack of what is still to visit. Here
the leaves are those of the children in order (`leaves_node`). The walk adds the
leaves of each tree on the stack in turn, from its top down
(`toList_leavesFrom`), by induction on the walk.
-/

namespace Offside.Tree

mutual

/-- The leaves of a tree, from left to right. -/
def frontier : Tree → List Leaf
  | .leaf token => [token]
  | .node _ _ children => frontiers children

/-- The leaves of several trees, from left to right. -/
def frontiers : List Tree → List Leaf
  | [] => []
  | tree :: rest => tree.frontier ++ frontiers rest

end

theorem frontiers_append (trees others : List Tree) :
    frontiers (trees ++ others) = frontiers trees ++ frontiers others := by
  induction trees with
  | nil => rfl
  | cons tree rest ih => rw [List.cons_append, frontiers, frontiers, ih, List.append_assoc]

theorem snd_deepen (depth : Nat) (children : List Tree) :
    (deepen depth children).map Prod.snd = children := by
  unfold deepen
  rw [List.map_map]
  exact List.map_id children

/-- The stack from its top down. -/
theorem reverse_of_back? {α : Type} {stack : Array α} {top : α} (h : stack.back? = some top) :
    stack.toList.reverse = top :: stack.pop.toList.reverse := by
  obtain ⟨rest, rfl⟩ := Array.back?_eq_some_iff.mp h
  simp

theorem eq_empty_of_back? {α : Type} {stack : Array α} (h : stack.back? = none) :
    stack.toList.reverse = [] := by
  simpa using h

/-- The walk adds the leaves of the trees on the stack, from its top down. -/
theorem toList_leavesFrom (stack : Array Tree) (found : Array Leaf) :
    (leavesFrom stack found).toList = found.toList ++ frontiers stack.toList.reverse := by
  fun_induction leavesFrom stack found with
  | case1 stack found hback =>
    rw [eq_empty_of_back? hback, frontiers, List.append_nil]
  | case2 stack found token hback ih =>
    rw [ih, reverse_of_back? hback, Array.toList_push, List.append_assoc]
    rfl
  | case3 stack found kind span children hback ih =>
    rw [ih, reverse_of_back? hback, Array.toList_appendList, List.reverse_append,
      List.reverse_reverse, frontiers_append]
    rfl

/-- The walk with a stack finds the leaves that the recursion finds. -/
theorem leaves_eq_frontier (tree : Tree) : tree.leaves = tree.frontier := by
  cases tree with
  | leaf token => rfl
  | node kind span children =>
    show (leavesFrom _ #[]).toList = frontiers children
    rw [toList_leavesFrom, List.toList_toArray, List.reverse_reverse]
    rfl

theorem frontiers_eq_flatMap (trees : List Tree) : frontiers trees = trees.flatMap leaves := by
  induction trees with
  | nil => rfl
  | cons tree rest ih => rw [frontiers, List.flatMap_cons, ih, leaves_eq_frontier]

theorem leaves_leaf (token : Leaf) : (leaf token).leaves = [token] :=
  leaves_eq_frontier _

/-- The leaves of a node are those of its children in order. -/
theorem leaves_node (kind : NodeKind) (span : Span) (children : List Tree) :
    (node kind span children).leaves = children.flatMap leaves :=
  (leaves_eq_frontier _).trans (frontiers_eq_flatMap children)

end Offside.Tree
