import Offside.Proofs.Tree.Leaves

/-!
The error nodes of a tree, by recursion.

They come out of the walk in the order in which it meets them, parents before
children. Here they are those of the children in order, behind the node itself
if it is one (`errorNodes_node`).
-/

namespace Offside.Tree

/-- The tree is an error node. -/
def isError (tree : Tree) : Bool := tree.nodeKind? == some .error

/-- The error nodes of a tree, parents before children. -/
def errorNodes (tree : Tree) : List Tree := (tree.preorder.map Prod.snd).filter isError

mutual

/-- The tree with all that it holds, parents before children. -/
def subtrees : Tree → List Tree
  | .leaf token => [.leaf token]
  | .node kind span children => .node kind span children :: allSubtrees children

/-- Several trees with all that they hold. -/
def allSubtrees : List Tree → List Tree
  | [] => []
  | tree :: rest => tree.subtrees ++ allSubtrees rest

end

theorem allSubtrees_append (trees others : List Tree) :
    allSubtrees (trees ++ others) = allSubtrees trees ++ allSubtrees others := by
  induction trees with
  | nil => rfl
  | cons tree rest ih => rw [List.cons_append, allSubtrees, allSubtrees, ih, List.append_assoc]

/-- The walk meets the pending trees in turn. -/
theorem snd_visit (pending : List (Nat × Tree)) :
    (visit pending).map Prod.snd = allSubtrees (pending.map Prod.snd) := by
  fun_induction visit pending with
  | case1 => rfl
  | case2 depth token pending ih =>
    rw [List.map_cons, ih]
    rfl
  | case3 depth kind span children pending ih =>
    rw [List.map_cons, ih, List.map_append, snd_deepen, allSubtrees_append]
    rfl

theorem errorNodes_eq (tree : Tree) : tree.errorNodes = tree.subtrees.filter isError := by
  unfold errorNodes preorder
  rw [snd_visit]
  exact congrArg (List.filter isError) (List.append_nil _)

theorem filter_allSubtrees (trees : List Tree) :
    (allSubtrees trees).filter isError = trees.flatMap errorNodes := by
  induction trees with
  | nil => rfl
  | cons tree rest ih =>
    rw [allSubtrees, List.filter_append, ih, List.flatMap_cons, errorNodes_eq]

theorem errorNodes_leaf (token : Leaf) : (leaf token).errorNodes = [] :=
  errorNodes_eq _

/-- The error nodes of a node are those of its children in order, behind the node
itself if it is one. -/
theorem errorNodes_node (kind : NodeKind) (span : Span) (children : List Tree) :
    (node kind span children).errorNodes
      = (if kind = .error then [node kind span children] else [])
        ++ children.flatMap errorNodes := by
  rw [errorNodes_eq, subtrees, List.filter_cons, filter_allSubtrees]
  by_cases hkind : kind = .error
  · rw [if_pos hkind, if_pos (by rw [hkind]; rfl)]
    rfl
  · rw [if_neg hkind, if_neg (by simpa [isError, nodeKind?] using hkind)]
    rfl

end Offside.Tree
