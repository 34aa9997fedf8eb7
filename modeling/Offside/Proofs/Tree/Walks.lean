import Offside.Proofs.Tree.Leaves
import Offside.Tree.Dump

/-!
The walks of a tree against the recursion into it.

A tree is walked with a stack, whose top is at its end, so that a deep tree needs no deep
recursion. Each of the three walks keeps a stack of its own: the leaves start from the
children and push children back to front; the nodes start from the node itself, push the
child nodes front to back and then turn around what was pushed; the dump keeps the depth
of each tree beside it.

# The invariant

What a walk still has to add is read off its stack from the top down: the recursive list
of each tree there, one after the other. A round takes the top off, adds what it stands
for and pushes its children, and the recursive lists of the children, in order, are what
is left of that of the top. The leaves come from this in `toList_leavesFrom`, the nodes in
`toList_descendantsFrom`, and the dump in `dumpFrom_eq`. `walks_eq_recursive` puts the
three together.
-/

namespace Offside.Tree

-- ======================================================= the recursion

mutual

/-- The nodes of a tree, parents before children and children in order. -/
def nodes : Tree → List Tree
  | .leaf _ => []
  | .node kind span children => .node kind span children :: allNodes children

/-- The nodes of several trees. -/
def allNodes : List Tree → List Tree
  | [] => []
  | tree :: rest => tree.nodes ++ allNodes rest

end

mutual

/-- The nodes and leaves of a tree at a depth, each with its depth, parents before children
and children in order. -/
def outline (depth : Nat) : Tree → List (Nat × Tree)
  | .leaf token => [(depth, .leaf token)]
  | .node kind span children =>
    (depth, .node kind span children) :: outlines (depth + 1) children

/-- The nodes and leaves of several trees at a depth. -/
def outlines (depth : Nat) : List Tree → List (Nat × Tree)
  | [] => []
  | tree :: rest => outline depth tree ++ outlines depth rest

end

/-- Whether a tree is shown in a dump: all are, but trivia only on request. -/
def isShown (withTrivia : Bool) : Tree → Bool
  | .leaf token => withTrivia || !token.kind.isTrivia
  | .node .. => true

/-- The lines of trees with their depths, as far as they are shown. -/
def shownLines (source : String) (withTrivia : Bool) (trees : List (Nat × Tree)) : List String :=
  (trees.filter fun (_, tree) => tree.isShown withTrivia).map fun (depth, tree) =>
    indented depth (tree.dumpLine source)

-- ======================================================== its lists

theorem allNodes_append (trees others : List Tree) :
    allNodes (trees ++ others) = allNodes trees ++ allNodes others := by
  induction trees with
  | nil => rfl
  | cons tree rest ih => rw [List.cons_append, allNodes, allNodes, ih, List.append_assoc]

/-- Leaves have no part in the nodes. -/
theorem allNodes_filter (trees : List Tree) : allNodes (trees.filter isNode) = allNodes trees := by
  induction trees with
  | nil => rfl
  | cons tree rest ih =>
    cases tree with
    | leaf token => exact ih
    | node kind span children =>
      show nodes _ ++ allNodes (rest.filter isNode) = nodes _ ++ allNodes rest
      rw [ih]

/-- The outline of children is that of the trees one level deeper. -/
theorem outlines_eq_flatMap (depth : Nat) (children : List Tree) :
    outlines (depth + 1) children
      = (deepen depth children).flatMap fun (depth, tree) => outline depth tree := by
  unfold deepen
  induction children with
  | nil => rfl
  | cons tree rest ih => rw [outlines, ih, List.map_cons, List.flatMap_cons]

theorem deepen_reverse (depth : Nat) (children : List Tree) :
    deepen depth children.reverse = (deepen depth children).reverse :=
  List.map_reverse ..

theorem shownLines_append (source : String) (withTrivia : Bool) (trees others : List (Nat × Tree)) :
    shownLines source withTrivia (trees ++ others)
      = shownLines source withTrivia trees ++ shownLines source withTrivia others := by
  simp [shownLines]

mutual

/-- The leaves of an outline are those of the tree. -/
theorem filterMap_outline (depth : Nat) :
    ∀ tree : Tree, (outline depth tree).filterMap (fun (_, tree) => tree.leaf?) = tree.frontier
  | .leaf _ => rfl
  | .node _ _ children => filterMap_outlines (depth + 1) children

/-- The leaves of the outline are the frontier. -/
theorem filterMap_outlines (depth : Nat) :
    ∀ trees : List Tree, (outlines depth trees).filterMap (fun (_, tree) => tree.leaf?)
      = frontiers trees
  | [] => rfl
  | tree :: rest => by
    rw [outlines, List.filterMap_append, filterMap_outline depth tree,
      filterMap_outlines depth rest, frontiers]

end

mutual

/-- The nodes of an outline are those of the tree. -/
theorem filter_outline (depth : Nat) :
    ∀ tree : Tree, ((outline depth tree).map Prod.snd).filter isNode = tree.nodes
  | .leaf _ => rfl
  | .node kind span children =>
    congrArg (node kind span children :: ·) (filter_outlines (depth + 1) children)

/-- The inner nodes of the outline are the nodes of the recursion, in the same order. -/
theorem filter_outlines (depth : Nat) :
    ∀ trees : List Tree, ((outlines depth trees).map Prod.snd).filter isNode = allNodes trees
  | [] => rfl
  | tree :: rest => by
    rw [outlines, List.map_append, List.filter_append, filter_outline depth tree,
      filter_outlines depth rest, allNodes]

end

-- ======================================================== the walks

/-- The walk adds the nodes of the trees on the stack, from its top down, if all of them
are nodes. -/
theorem toList_descendantsFrom (stack found : Array Tree)
    (hnodes : ∀ tree ∈ stack.toList, tree.isNode = true) :
    (descendantsFrom stack found).toList = found.toList ++ allNodes stack.toList.reverse := by
  fun_induction descendantsFrom stack found with
  | case1 stack found hback =>
    rw [eq_empty_of_back? hback, allNodes, List.append_nil]
  | case2 stack found current hback start ih =>
    have hcurrent : current.isNode = true :=
      hnodes current (List.mem_reverse.mp (by simp [reverse_of_back? hback]))
    have hpushed : ∀ tree ∈ (reverseFrom (stack.pop ++ current.childNodes) start).toList,
        tree.isNode = true := by
      intro tree hmem
      rw [toList_reverseFrom_append] at hmem
      rcases List.mem_append.mp hmem with hmem | hmem
      · apply hnodes
        rw [← List.mem_reverse, reverse_of_back? hback]
        exact List.mem_cons_of_mem _ (List.mem_reverse.mpr hmem)
      · exact (List.mem_filter.mp (List.mem_reverse.mp hmem)).2
    rw [ih hpushed, toList_reverseFrom_append, List.reverse_append, List.reverse_reverse,
      allNodes_append, reverse_of_back? hback, Array.toList_push, List.append_assoc]
    cases current with
    | leaf => cases hcurrent
    | node kind span children =>
      change _ ++ ([_] ++ (allNodes (children.filter isNode) ++ _)) = _
      rw [allNodes_filter]
      rfl

/-- The walk adds the lines of the trees on the stack, from its top down. -/
theorem dumpFrom_eq (source : String) (withTrivia : Bool) (stack : Array (Nat × Tree))
    (dumped : String) : dumpFrom source withTrivia stack dumped
      = dumped ++ String.join (shownLines source withTrivia
        (stack.toList.reverse.flatMap fun (depth, tree) => outline depth tree)) := by
  fun_induction dumpFrom source withTrivia stack dumped with
  | case1 stack dumped hback =>
    rw [eq_empty_of_back? hback]
    exact (String.append_empty ..).symm
  | case2 stack dumped depth kind span children hback ih =>
    rw [ih, reverse_of_back? hback, Array.toList_appendList, deepen_reverse, List.reverse_append,
      List.reverse_reverse, List.flatMap_append, ← outlines_eq_flatMap, String.append_assoc,
      ← String.join_cons]
    rfl
  | case3 stack dumped depth token hback hhidden ih =>
    have hskipped : (leaf token).isShown withTrivia = false := by
      cases withTrivia <;> simp_all [isShown]
    rw [ih, reverse_of_back? hback, List.flatMap_cons, shownLines_append]
    simp [shownLines, outline, hskipped]
  | case4 stack dumped depth token hback hshown ih =>
    have hkept : (leaf token).isShown withTrivia = true := by
      cases withTrivia <;> simp_all [isShown]
    rw [ih, reverse_of_back? hback, List.flatMap_cons, shownLines_append, String.append_assoc,
      String.join_append]
    simp [shownLines, outline, hkept]

/-- The walk with a stack finds the nodes that the recursion finds. -/
theorem descendants_eq_nodes (tree : Tree) : tree.descendants = tree.nodes := by
  cases tree with
  | leaf => rfl
  | node kind span children =>
    show (descendantsFrom #[_] #[]).toList = _
    rw [toList_descendantsFrom _ _ (by simp [isNode])]
    exact List.append_nil _

/-- The dump prints the outline line by line, in the order of the text. -/
theorem dump_eq_outline (tree : Tree) (source : String) (withTrivia : Bool) :
    tree.dump source withTrivia
      = String.join (shownLines source withTrivia (outline 0 tree)) := by
  cases tree with
  | leaf token =>
    show dumpFrom source withTrivia #[(0, leaf token)] "" = _
    rw [dumpFrom_eq, String.empty_append]
    rfl
  | node kind span children =>
    show dumpFrom source withTrivia (deepen 0 children.reverse).toArray _ = _
    rw [dumpFrom_eq, List.toList_toArray, deepen_reverse, List.reverse_reverse,
      ← outlines_eq_flatMap, ← String.join_cons]
    rfl

-- ==================================================== the statement

/-- The walks come to the recursive lists: the leaves from left to right, the nodes with
parents before children, and a dump with a line for each node and each leaf that is shown,
in the order of the outline and indented by twice the depth. -/
theorem walks_eq_recursive (tree : Tree) :
    tree.leaves = tree.frontier ∧ tree.descendants = tree.nodes
      ∧ (∀ source withTrivia, tree.dump source withTrivia
        = String.join (((outline 0 tree).filter fun (_, tree) => tree.isShown withTrivia).map
          fun (depth, tree) => "".pushn ' ' (2 * depth) ++ tree.dumpLine source ++ "\n"))
      ∧ (outline 0 tree).filterMap (fun (_, tree) => tree.leaf?) = tree.leaves
      ∧ ((outline 0 tree).map Prod.snd).filter isNode = tree.descendants := by
  rw [leaves_eq_frontier, descendants_eq_nodes]
  exact ⟨rfl, rfl, dump_eq_outline tree, filterMap_outline 0 tree, filter_outline 0 tree⟩

end Offside.Tree
