import Offside.Proofs.Parse.Replayed
import Offside.Proofs.Tree.Leaves

/-!
Building a tree places every token once, in order.

# The invariant

`Builder.Placed`: read from the outermost open node in, the leaves placed so far
are the first `nextRaw` tokens of the input. A token that is placed keeps this
as long as some node is open (`Placed.placeNext`), and opening and closing nodes
moves no leaf. So pieces that are built inside a node keep it, whatever they are
(`Placed.addPieces`), and closing the outermost node places the rest
(`Placed.closeLast`).
-/

namespace Offside

variable {input : Input}

/-- The leaf that a token becomes. -/
def LayoutToken.leaf (token : LayoutToken) : Leaf := ⟨token.kind, token.span⟩

/-- The leaves that the tokens become. -/
def Input.leaves (input : Input) : List Leaf := input.tokens.toList.map LayoutToken.leaf

namespace Builder

/-- The leaves in open nodes, from the outermost node in. -/
def openLeaves : List (NodeKind × List Tree) → List Leaf
  | [] => []
  | (_, children) :: outer => openLeaves outer ++ children.reverse.flatMap Tree.leaves

/-- Nodes of these kinds are open, the innermost first, and hold the first tokens up
to the next one. -/
structure Placed (input : Input) (kinds : List NodeKind) (builder : Builder) : Prop where
  kinds_eq : builder.openNodes.map Prod.fst = kinds
  leaves_eq : openLeaves builder.openNodes = input.leaves.take builder.nextRaw

namespace Placed

variable {kind : NodeKind} {kinds : List NodeKind} {builder : Builder}

theorem initial : Placed input [] Builder.initial := ⟨rfl, rfl⟩

/-- An open node is there to be looked at. -/
theorem openNodes_eq (h : Placed input (kind :: kinds) builder) :
    ∃ children outer, builder.openNodes = (kind, children) :: outer
      ∧ outer.map Prod.fst = kinds := by
  have hkinds := h.kinds_eq
  cases hopen : builder.openNodes with
  | nil =>
    rw [hopen] at hkinds
    cases hkinds
  | cons node outer =>
    rw [hopen, List.map_cons] at hkinds
    obtain ⟨rfl, houter⟩ := List.cons.inj hkinds
    exact ⟨node.2, outer, rfl, houter⟩

/-- A child adds its leaves behind the others. -/
theorem addChild (h : Placed input (kind :: kinds) builder) (child : Tree) :
    (builder.addChild child).openNodes.map Prod.fst = kind :: kinds
      ∧ openLeaves (builder.addChild child).openNodes
        = openLeaves builder.openNodes ++ child.leaves
      ∧ (builder.addChild child).nextRaw = builder.nextRaw := by
  obtain ⟨children, outer, hopen, houter⟩ := h.openNodes_eq
  unfold Builder.addChild
  rw [hopen]
  refine ⟨?_, ?_, rfl⟩
  · rw [List.map_cons, houter]
  · simp only [openLeaves, List.reverse_cons, List.flatMap_append, List.flatMap_cons,
      List.flatMap_nil, List.append_nil, List.append_assoc]

/-- The next token is placed as a leaf, and beyond the last one there is nothing to place. -/
theorem placeNext (h : Placed input (kind :: kinds) builder) :
    Placed input (kind :: kinds) (builder.placeNext input) := by
  unfold Builder.placeNext
  split
  case h_1 token htoken =>
    obtain ⟨hkinds, hleaves, hnext⟩ := h.addChild (.leaf token.leaf)
    refine ⟨hkinds, ?_⟩
    have htaken : input.leaves[builder.nextRaw]? = some token.leaf := by
      unfold Input.leaves
      rw [List.getElem?_map, Array.getElem?_toList, htoken]
      rfl
    show openLeaves (builder.addChild (.leaf token.leaf)).openNodes
      = input.leaves.take ((builder.addChild (.leaf token.leaf)).nextRaw + 1)
    rw [hleaves, h.leaves_eq, hnext, Tree.leaves_leaf, List.take_add_one, htaken]
    rfl
  case h_2 hnone =>
    refine ⟨h.kinds_eq, ?_⟩
    have hend : input.leaves[builder.nextRaw]? = none := by
      unfold Input.leaves
      rw [List.getElem?_map, Array.getElem?_toList, hnone]
      rfl
    show openLeaves builder.openNodes = input.leaves.take (builder.nextRaw + 1)
    rw [h.leaves_eq, List.take_add_one, hend]
    exact (List.append_nil _).symm

theorem placeMany (count : Nat) : ∀ {builder : Builder}, Placed input (kind :: kinds) builder →
    Placed input (kind :: kinds) (builder.placeMany input count) := by
  induction count with
  | zero => exact fun h => h
  | succ count ih => exact fun h => ih h.placeNext

theorem placeTrivia (h : Placed input (kind :: kinds) builder) :
    Placed input (kind :: kinds) (builder.placeTrivia input) :=
  h.placeMany _

/-- A token is placed behind those in front of it that are still to be placed. -/
theorem placeToken (h : Placed input (kind :: kinds) builder) (place : Nat) :
    Placed input (kind :: kinds) (builder.placeToken input place) := by
  unfold Builder.placeToken
  split
  · exact h
  · exact h.placeMany _

/-- The root opens at once, and every other node behind the trivia that goes into its parent. -/
theorem openNode (h : Placed input kinds builder) (kind : NodeKind) :
    Placed input (kind :: kinds) (builder.openNode input kind) := by
  have hpush : ∀ {placed : Builder}, Placed input kinds placed →
      Placed input (kind :: kinds) { placed with openNodes := (kind, []) :: placed.openNodes } := by
    intro placed hplaced
    refine ⟨congrArg (kind :: ·) hplaced.kinds_eq, ?_⟩
    exact (List.append_nil _).trans hplaced.leaves_eq
  unfold Builder.openNode
  dsimp only
  cases kinds with
  | nil =>
    have hempty : builder.openNodes = [] := List.map_eq_nil_iff.mp h.kinds_eq
    rw [if_pos (by rw [hempty]; rfl)]
    exact hpush h
  | cons outermost kinds =>
    obtain ⟨children, outer, hopen, _⟩ := h.openNodes_eq
    rw [if_neg (by rw [hopen]; exact Bool.false_ne_true)]
    exact hpush h.placeTrivia

/-- Closing a node inside another moves no leaf. -/
theorem closeNode {outermost : NodeKind}
    (h : Placed input (kind :: outermost :: kinds) builder) :
    Placed input (outermost :: kinds) (builder.closeNode input) := by
  obtain ⟨children, outer, hopen, houter⟩ := h.openNodes_eq
  cases outer with
  | nil => cases houter
  | cons node outer =>
    obtain ⟨rfl, hkinds⟩ := List.cons.inj houter
    have hleaves := h.leaves_eq
    unfold Builder.closeNode
    rw [hopen, if_neg (by simp)]
    dsimp only
    rw [hopen]
    refine ⟨congrArg (node.1 :: ·) hkinds, ?_⟩
    rw [hopen] at hleaves
    simp only [Builder.addChild, openLeaves, List.reverse_cons, List.flatMap_append,
      List.flatMap_cons, List.flatMap_nil, List.append_nil, Tree.leaves_node] at hleaves ⊢
    rw [← List.append_assoc, hleaves]

/-- Placing tokens counts them, also beyond the end. -/
theorem nextRaw_placeMany (count : Nat) : ∀ builder : Builder,
    (builder.placeMany input count).nextRaw = builder.nextRaw + count := by
  have hone : ∀ builder : Builder, (builder.placeNext input).nextRaw = builder.nextRaw + 1 := by
    intro builder
    unfold Builder.placeNext Builder.addChild
    split
    · split <;> rfl
    · rfl
  induction count with
  | zero => exact fun _ => rfl
  | succ count ih =>
    intro builder
    show ((builder.placeNext input).placeMany input count).nextRaw = _
    rw [ih, hone]
    omega

/-- Closing the outermost node places the rest of the tokens. -/
theorem closeLast (h : Placed input [kind] builder) :
    ∃ span children, (builder.closeNode input).finished = some (.node kind span children)
      ∧ (builder.closeNode input).openNodes = []
      ∧ (Tree.node kind span children).leaves = input.leaves := by
  have hrest : Placed input [kind] (builder.placeRest input) := h.placeMany _
  obtain ⟨children, outer, hopen, houter⟩ := hrest.openNodes_eq
  have hnil : outer = [] := List.map_eq_nil_iff.mp houter
  subst hnil
  have hsize : builder.openNodes.length = 1 := by
    rw [← List.length_map (f := Prod.fst), h.kinds_eq]
    rfl
  have hnext : input.leaves.length ≤ (builder.placeRest input).nextRaw := by
    unfold Builder.placeRest Input.leaves
    rw [nextRaw_placeMany, List.length_map, Array.length_toList]
    omega
  have hleaves := hrest.leaves_eq
  rw [hopen, List.take_of_length_le hnext] at hleaves
  unfold Builder.closeNode
  rw [if_pos hsize]
  dsimp only
  rw [hopen]
  refine ⟨_, _, rfl, rfl, ?_⟩
  rw [Tree.leaves_node]
  exact hleaves

end Placed

mutual

/-- Whatever piece is built in an open node, the leaves stay the first tokens. -/
theorem Placed.addPiece {kind : NodeKind} {kinds : List NodeKind} {builder : Builder}
    (h : Placed input (kind :: kinds) builder) : ∀ piece : Piece,
      Placed input (kind :: kinds) (builder.addPiece input piece)
  | .token place => h.placeToken place
  | .report _ => ⟨h.kinds_eq, h.leaves_eq⟩
  | .node inner pieces => ((h.openNode inner).addPieces pieces).closeNode

/-- Pieces are built in order, each in the node that is open. -/
theorem Placed.addPieces {kind : NodeKind} {kinds : List NodeKind} {builder : Builder}
    (h : Placed input (kind :: kinds) builder) : ∀ pieces : List Piece,
      Placed input (kind :: kinds) (builder.addPieces input pieces)
  | [] => h
  | piece :: rest => (h.addPiece piece).addPieces rest

end

end Builder

end Offside
