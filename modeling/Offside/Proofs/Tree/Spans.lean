import Offside.Proofs.Tree.Nodes

/-!
Trees whose spans cover a stretch of the source without a gap.

`Tree.Tiled` follows the shape of the trees. The first of several trees starts where the
stretch does, each other one where the one in front of it ends, and the children of a
node cover the stretch that its span says, by the same relation. It passes to all that a
tree holds (`Tiled.of_mem`), and says of every node what its span has to do with those
of its children (`Tiled.covered`).
-/

namespace Offside.Tree

/-- Trees that cover the stretch from one offset to another, with all that they hold. -/
inductive Tiled : Nat → List Tree → Nat → Prop
  | nil (offset : Nat) : Tiled offset [] offset
  | leaf {first middle last : Nat} {token : Leaf} {rest : List Tree}
      (span : token.span = ⟨first, middle⟩) (width : first ≤ middle)
      (later : Tiled middle rest last) : Tiled first (.leaf token :: rest) last
  | node {first middle last : Nat} {kind : NodeKind} {children rest : List Tree}
      (inner : Tiled first children middle) (later : Tiled middle rest last) :
      Tiled first (.node kind ⟨first, middle⟩ children :: rest) last

/-- What the span of a node has to do with those of its children. -/
structure Covered (span : Span) (children : List Tree) : Prop where
  /-- The node starts where its first child does. -/
  first : ∀ child ∈ children.head?, child.span.start = span.start
  /-- It ends where its last child does. -/
  last : ∀ child ∈ children.getLast?, child.span.stop = span.stop
  /-- A child starts where the one in front of it ends. -/
  meet : ∀ before left right after, children = before ++ left :: right :: after →
    left.span.stop = right.span.start
  /-- A node without children is a point. -/
  empty : children = [] → span.start = span.stop
  /-- A node without children lies where the trees around it meet. -/
  point : ∀ before left kind inner right after,
    children = before ++ left :: .node kind inner [] :: right :: after →
    inner = Span.point left.span.stop ∧ inner = Span.point right.span.start
  /-- No child starts before an earlier one ends. -/
  ordered : children.Pairwise fun left right => left.span.stop ≤ right.span.start
  /-- The children lie inside the node. -/
  inside : ∀ child ∈ children, span.start ≤ child.span.start
    ∧ child.span.start ≤ child.span.stop ∧ child.span.stop ≤ span.stop

namespace Tiled

variable {first middle last : Nat} {trees others : List Tree}

theorem append (earlier : Tiled first trees middle) (later : Tiled middle others last) :
    Tiled first (trees ++ others) last := by
  induction earlier with
  | nil => exact later
  | leaf span width _ ih => exact .leaf span width (ih later)
  | node inner _ _ ih => exact .node inner (ih later)

theorem le (h : Tiled first trees last) : first ≤ last := by
  induction h with
  | nil => exact Nat.le_refl _
  | leaf _ width _ ih => exact Nat.le_trans width ih
  | node _ _ ihinner ihlater => exact Nat.le_trans ihinner ihlater

/-- The first tree, where it ends, and the rest from there on. -/
theorem uncons {tree : Tree} (h : Tiled first (tree :: trees) last) :
    tree.span.start = first ∧ first ≤ tree.span.stop ∧ Tiled tree.span.stop trees last := by
  cases h with
  | leaf span width later =>
    rw [show Tree.span (.leaf _) = _ from span]
    exact ⟨rfl, width, later⟩
  | node inner later => exact ⟨rfl, inner.le, later⟩

/-- The trees in front of one of them reach up to it. -/
theorem of_append (h : Tiled first (trees ++ others) last) :
    ∃ middle, Tiled first trees middle ∧ Tiled middle others last := by
  induction trees generalizing first with
  | nil => exact ⟨first, .nil first, h⟩
  | cons tree rest ih =>
    cases h with
    | leaf span width later =>
      obtain ⟨middle, hbefore, hafter⟩ := ih later
      exact ⟨middle, .leaf span width hbefore, hafter⟩
    | node inner later =>
      obtain ⟨middle, hbefore, hafter⟩ := ih later
      exact ⟨middle, .node inner hbefore, hafter⟩

theorem start_eq (h : Tiled first trees last) : ∀ tree ∈ trees.head?, tree.span.start = first := by
  cases trees with
  | nil => exact nofun
  | cons tree rest =>
    rintro _ ⟨⟩
    exact h.uncons.1

/-- The last tree stops where the row does. -/
theorem stop_eq (h : Tiled first trees last) :
    ∀ tree ∈ trees.getLast?, tree.span.stop = last := by
  intro tree hlast
  obtain ⟨before, rfl⟩ := List.getLast?_eq_some_iff.mp hlast
  obtain ⟨middle, _, hafter⟩ := h.of_append
  obtain ⟨_, _, hend⟩ := hafter.uncons
  cases hend
  rfl

/-- A tree inside the stretch. -/
theorem mem (h : Tiled first trees last) : ∀ tree ∈ trees, first ≤ tree.span.start
    ∧ tree.span.start ≤ tree.span.stop ∧ tree.span.stop ≤ last := by
  intro tree hmem
  obtain ⟨before, after, rfl⟩ := List.append_of_mem hmem
  obtain ⟨middle, hbefore, hafter⟩ := h.of_append
  obtain ⟨hstart, hwidth, hrest⟩ := hafter.uncons
  rw [hstart]
  exact ⟨hbefore.le, hwidth, hrest.le⟩

/-- Of two trees of a row, the left one stops before the right one starts. -/
theorem pairwise (h : Tiled first trees last) :
    trees.Pairwise fun left right => left.span.stop ≤ right.span.start := by
  induction trees generalizing first with
  | nil => exact .nil
  | cons tree rest ih =>
    obtain ⟨_, _, hrest⟩ := h.uncons
    exact .cons (fun later hlater => (hrest.mem later hlater).1) (ih hrest)

/-- Neighbours meet. -/
theorem meet (h : Tiled first trees last) : ∀ before left right after,
    trees = before ++ left :: right :: after → left.span.stop = right.span.start := by
  rintro before left right after rfl
  obtain ⟨middle, _, hafter⟩ := h.of_append
  obtain ⟨_, _, hrest⟩ := hafter.uncons
  exact hrest.uncons.1.symm

/-- Trees that cover a stretch stand to it as the children of a node to its span. -/
theorem covered (h : Tiled first trees last) : Covered ⟨first, last⟩ trees := by
  refine ⟨h.start_eq, h.stop_eq, h.meet, ?_, ?_, h.pairwise, h.mem⟩
  · rintro rfl
    cases h
    rfl
  · rintro before left kind inner right after rfl
    have hleft := h.meet before left _ _ rfl
    have hright := h.meet (before ++ [left]) (.node kind inner []) right after (by simp)
    obtain ⟨middle, _, hafter⟩ := h.of_append
    obtain ⟨_, _, hrest⟩ := hafter.uncons
    -- the node itself covers nothing, so its two ends are one
    have hpoint : inner.start = inner.stop := by
      cases hrest with
      | node inner _ =>
        cases inner
        rfl
    obtain ⟨start, stop⟩ := inner
    cases hpoint
    constructor
    · rw [hleft]
      rfl
    · rw [← hright]
      rfl

/-- Every node that the trees hold covers what its children do. -/
theorem of_mem (h : Tiled first trees last) : ∀ kind span children,
    .node kind span children ∈ allSubtrees trees → Tiled span.start children span.stop := by
  induction h with
  | nil => exact nofun
  | leaf _ _ _ ih =>
    intro kind span children hmem
    rcases List.mem_append.mp hmem with hhere | hlater
    · exact nomatch List.mem_singleton.mp hhere
    · exact ih kind span children hlater
  | node inner _ ihinner ihlater =>
    intro kind span children hmem
    rcases List.mem_append.mp hmem with hhere | hlater
    · rcases List.mem_cons.mp hhere with hself | hinside
      · cases hself
        exact inner
      · exact ihinner kind span children hinside
    · exact ihlater kind span children hlater

end Tiled

end Offside.Tree
