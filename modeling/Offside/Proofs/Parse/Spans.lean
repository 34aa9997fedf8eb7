import Offside.Proofs.Grammar.Tiled
import Offside.Proofs.Parse.Denoted
import Offside.Proofs.Parse.Reported
import Offside.Proofs.Tree.Spans

/-!
The spans of the tree of a parse cover the source without a gap.

The tree is the root over the pieces of the run (`tree_ofReply`), and what a piece
becomes is said with the tokens that are left (`Piece.trees`). So the invariant is about
these: at a place, the tokens that are left cover the source from a position on
(`Remains`). What a piece becomes covers the stretch from the position in front of it to
the one behind it, and what is left then remains (`Remains.allTrees`).

# Nodes without children

The span of a node is read off its children, and where there are none, off the next of
the tokens that are left. The trivia in front of a node is placed before the node opens,
so a node without children has nothing between its opening and its end: the next token
starts where the trivia in front of the node has ended.
-/

namespace Offside

open Parse

variable {input : Input} {eof first : Position} {place : Nat} {left : List LayoutToken}

/-- Leaves cover what their tokens do. -/
theorem tiled_leavesOf {tokens : List LayoutToken}
    (hwidth : ∀ token ∈ tokens, token.position.offset ≤ token.finish.offset) :
    ∀ {first last : Position}, LayoutToken.Tile first tokens last →
      Tree.Tiled first.offset (leavesOf tokens) last.offset := by
  induction tokens with
  | nil =>
    intro first last h
    cases h
    exact .nil _
  | cons token rest ih =>
    intro first last h
    obtain ⟨rfl, hrest⟩ := h
    exact .leaf token.span_eq (hwidth token List.mem_cons_self)
      (ih (fun token hmem => hwidth token (List.mem_cons_of_mem _ hmem)) hrest)

/-- The tokens that are left at a place cover the source from a position on. -/
structure Remains (input : Input) (eof : Position) (place : Nat) (first : Position)
    (left : List LayoutToken) : Prop where
  ready : ∃ builder, Builder.Ready input place left builder
  tile : LayoutToken.Tile first left eof
  width : ∀ token ∈ left, token.position.offset ≤ token.finish.offset

namespace Remains

theorem initial (h : input.Tiled eof) : Remains input eof 0 .start input.tokens.toList :=
  ⟨⟨_, .initial .root⟩, h.tile, h.width⟩

/-- The trivia in front of the next token, and what is left behind it. -/
theorem trivia (h : Remains input eof place first left) :
    ∃ middle, Tree.Tiled first.offset (leavesOf (left.takeWhile (·.isTrivia))) middle.offset
      ∧ Remains input eof place middle (left.dropWhile (·.isTrivia)) := by
  obtain ⟨builder, hready⟩ := h.ready
  have htile := h.tile
  rw [← List.takeWhile_append_dropWhile (p := (·.isTrivia)) (l := left)] at htile
  obtain ⟨middle, hbefore, hafter⟩ := htile.of_append
  refine ⟨middle, tiled_leavesOf ?_ hbefore, ⟨_, hready.placeTrivia.2⟩, hafter, ?_⟩
  · exact fun token hmem => h.width token ((List.takeWhile_sublist _).subset hmem)
  · exact fun token hmem => h.width token ((List.dropWhile_sublist _).subset hmem)

/-- The token of the place, with the trivia in front of it. -/
theorem token (h : Remains input eof place first left) (hinside : place < input.size) :
    ∃ middle, Tree.Tiled first.offset
        (leavesOf (left.takeWhile (·.isTrivia) ++ (input.get? place).toList)) middle.offset
      ∧ Remains input eof (place + 1) middle (left.dropWhile (·.isTrivia)).tail := by
  obtain ⟨builder, hready⟩ := h.ready
  obtain ⟨token, rest, hbehind, htoken, _, _⟩ := hready.split hinside
  obtain ⟨start, htrivia, hremains⟩ := h.trivia
  have hplaced := (hready.placeToken hinside).2
  have htile := hremains.tile
  have hwidth := hremains.width
  rw [hbehind] at hplaced htile hwidth ⊢
  obtain ⟨rfl, hrest⟩ := htile
  have hone : Tree.Tiled token.position.offset (leavesOf [token]) token.finish.offset :=
    .leaf token.span_eq (hwidth token List.mem_cons_self) (.nil _)
  refine ⟨token.finish, ?_, ⟨_, hplaced⟩, hrest, ?_⟩
  · rw [htoken, Option.toList_some, leavesOf, List.map_append]
    exact htrivia.append hone
  · exact fun token hmem => hwidth token (List.mem_cons_of_mem _ hmem)

/-- Where the next of the tokens that are left starts. -/
theorem head_eq (h : Remains input eof place first left) (hend : eof.offset = input.endOffset) :
    (left.head?.map (·.span.start)).getD input.endOffset = first.offset := by
  have htile := h.tile
  cases left with
  | nil =>
    cases htile
    exact hend.symm
  | cons token rest =>
    rw [← htile.1, List.head?_cons, Option.map_some, Option.getD_some, token.span_eq]

/-- The span of a node is the stretch that its children cover. -/
theorem spanAround_eq {start : Nat} {last : Position} {children : List Tree}
    (h : Remains input eof place last left) (hend : eof.offset = input.endOffset)
    (hchildren : Tree.Tiled start children last.offset) :
    spanAround input children left = ⟨start, last.offset⟩ := by
  have hstart := hchildren.start_eq
  have hstop := hchildren.stop_eq
  unfold spanAround
  cases children with
  | nil =>
    cases hchildren
    show Span.point _ = _
    rw [h.head_eq hend]
    rfl
  | cons child rest =>
    have hfinal := List.getLast?_eq_some_getLast (List.cons_ne_nil child rest)
    rw [List.head?_cons, hfinal]
    dsimp only
    rw [hstart child rfl, hstop _ hfinal]

/-- What pieces become covers the stretch between the places in front of them and
behind them. -/
theorem allTrees (hend : eof.offset = input.endOffset) {last : Nat} {pieces : List Piece}
    (horder : InOrder input place last pieces) :
    ∀ {first : Position} {left : List LayoutToken}, Remains input eof place first left →
      ∃ finish, Tree.Tiled first.offset (Piece.allTrees input left pieces).1 finish.offset
        ∧ Remains input eof last finish (Piece.allTrees input left pieces).2 := by
  induction horder with
  | nil => exact fun {first _} h => ⟨first, .nil _, h⟩
  | token inside _ ih =>
    intro first left h
    obtain ⟨middle, htoken, hremains⟩ := h.token inside
    obtain ⟨finish, hlater, hlast⟩ := ih hremains
    exact ⟨finish, htoken.append hlater, hlast⟩
  | report diagnostic _ ih => exact fun h => ih h
  | node kind _ _ ihinner ihlater =>
    intro first left h
    obtain ⟨start, htrivia, hbehind⟩ := h.trivia
    obtain ⟨stop, hchildren, hremains⟩ := ihinner hbehind
    obtain ⟨finish, hlater, hlast⟩ := ihlater hremains
    refine ⟨finish, ?_, hlast⟩
    rw [allTrees_cons, Piece.trees]
    dsimp only
    rw [hremains.spanAround_eq hend hchildren, List.append_assoc]
    exact htrivia.append (.node hchildren hlater)

end Remains

-- ============================================================ the tree

/-- The spans of a tree cover a source: the tree spans all of it, and every node spans
what its children do. -/
structure Tree.Spans (tree : Tree) (source : String) : Prop where
  whole : tree.span = ⟨0, source.utf8ByteSize⟩
  nodes : ∀ kind span children, .node kind span children ∈ tree.subtrees →
    Covered span children

/-- The root over pieces whose tokens are all there are. -/
theorem tiled_rootTree (h : input.Tiled eof) {pieces : List Piece}
    (horder : InOrder input 0 input.size pieces) :
    Tree.Tiled 0 [rootTree input pieces] input.endOffset
      ∧ (rootTree input pieces).span = ⟨0, input.endOffset⟩ := by
  obtain ⟨middle, htrees, hremains⟩ := Remains.allTrees h.last_eq horder (.initial h)
  obtain ⟨builder, hready⟩ := hremains.ready
  have hrest := tiled_leavesOf hremains.width hremains.tile
  have hchildren := htrees.append hrest
  have hnone : Remains input eof input.size eof [] :=
    ⟨⟨_, hready.placeRest.2⟩, rfl, nofun⟩
  have hspan := hnone.spanAround_eq h.last_eq hchildren
  rw [h.last_eq] at hchildren hspan
  unfold rootTree
  dsimp only
  rw [hready.takeWhile_eq, hspan]
  exact ⟨.node hchildren (.nil _), rfl⟩

/-- The tree of a parse whose entry has added pieces. -/
theorem spans_ofReply (h : input.Tiled eof) {reply : Outcome × Context input}
    {pieces : List Piece} (hadds : (Context.initial input).mark.2.Adds reply.2 pieces) :
    (ofReply reply).tree.Spans input.source := by
  obtain ⟨log, _, hlog⟩ := hadds.logged
  have horder := hlog.inOrder.append
    (inOrder_closingPieces reply.1 (hlog.last_le (Nat.zero_le _)))
  obtain ⟨htiled, hspan⟩ := tiled_rootTree h horder
  rw [rootTree_closingPieces, ← tree_ofReply hadds] at htiled hspan
  refine ⟨hspan, fun kind span children hmem => ?_⟩
  have hmem : Tree.node kind span children ∈ Tree.allSubtrees [(ofReply reply).tree] :=
    List.mem_append_left _ hmem
  exact (htiled.of_mem kind span children hmem).covered

/-- The spans of the tree of a parse cover the source, whatever the grammar and its
rules, of the tokens of any source text, laid out or not. The root spans the source, and
every node below it spans what its children do: it starts with the first and ends with
the last, each child starts where the one in front of it ends, and a node without
children is a point where the trees around it meet. However many levels the run of the
entry may nest, the parse of its reply has such a tree, and so has the parse where the
levels do not suffice. -/
theorem spans_tile (rules : RuleTable) (entry : Grammar) (layout : Option Layout.Rules)
    (source : String) :
    (∀ (levels : Nat) (reply : Outcome × Context (.ofSource layout source)),
      entry.runWithin rules levels (Context.initial _).mark.2 = some reply →
        (ofReply reply).tree.Spans source)
      ∧ (ofInput rules entry (.ofSource layout source)).tree.Spans source := by
  have htiled := Input.tiled_ofSource layout source
  have hsource : (Input.ofSource layout source).source = source := by
    cases layout <;> rfl
  constructor
  · intro levels reply hrun
    obtain ⟨pieces, hadds⟩ := (Grammar.extends_runWithin rules levels _ _ _ hrun).adds
    have hspans := spans_ofReply htiled hadds
    rwa [hsource] at hspans
  · obtain ⟨pieces, hadds⟩ := adds_runEntry rules entry (Context.initial _).mark.2
    have hspans := spans_ofReply htiled hadds
    rwa [hsource] at hspans

/-- A name in a node, with an equals sign left over. -/
theorem spans_tile_name :
    ∃ reply, (Grammar.node .exprVar (.token .lower)).runWithin (fun _ => none) 2
          (Context.initial (.ofSource none "x =")).mark.2 = some reply
      ∧ reply.2.place = 1 ∧ (ofReply reply).tree.Spans "x =" := by
  have hruns : ((Grammar.node .exprVar (.token .lower)).runWithin (fun _ => none) 2
      (Context.initial (.ofSource none "x =")).mark.2).map (·.2.place) = some 1 := by
    decide +kernel
  obtain ⟨reply, hrun, hplace⟩ := Option.map_eq_some_iff.mp hruns
  obtain ⟨hspans, _⟩ := spans_tile (fun _ => none) (.node .exprVar (.token .lower)) none "x ="
  exact ⟨reply, hrun, hplace, hspans 2 reply hrun⟩

end Offside
