import Offside.Proofs.Parse.Direct
import Offside.Proofs.Parse.Lossless

/-!
The tree of a parse is the one that its grammar denotes.

The runs of a grammar log what its evaluation yields (`records_runWithin`), and
replaying that log drives the builder as building the pieces one inside the
other does. What is left is that the builder makes of pieces the trees that
`Piece.trees` says they become, which is said without a builder: with the raw
tokens that are left, and nothing open.

# Where trivia goes

A token takes the trivia in front of it along, into the node that it stands in.
In front of a node the trivia goes into the parent, before the node is opened.
So what a piece becomes depends on what the pieces before it have left of the
tokens, and `Piece.trees` passes that on. What no token and no node comes after
goes into the root.

# The invariant

Between two pieces the builder is `Ready`: the raw tokens from its next one on
are those that are left, and the significant ones among them are those from the
current place on. It needs the tokens of the pieces to be those from one place
up to another, in order and none left out (`InOrder`), which the log of a run
gives. Then placing the token of a place takes exactly the trivia in front of it
along (`Ready.placeToken`), and each piece adds its trees to the innermost open
node (`addPieces_eq`).
-/

namespace Offside

open Parse

variable {input : Input}

-- ========================================================== trees

/-- The trees that tokens become. -/
def leavesOf (tokens : List LayoutToken) : List Tree := tokens.map fun token => .leaf token.leaf

/-- The stretch from the first to the last child of a node. One without children is a
point where the next of the tokens that are left starts. -/
def spanAround (input : Input) (children : List Tree) (left : List LayoutToken) : Span :=
  match children.head?, children.getLast? with
  | some first, some last => ⟨first.span.start, last.span.stop⟩
  | _, _ => Span.point ((left.head?.map (·.span.start)).getD input.endOffset)

mutual

/-- The trees that a piece becomes in its parent, from the tokens that are left, and
the tokens that are left then. Trivia in front of a token goes with it, and trivia in
front of a node goes into the parent. -/
def Piece.trees (input : Input) (left : List LayoutToken) : Piece → List Tree × List LayoutToken
  | .token place =>
    (leavesOf (left.takeWhile (·.isTrivia) ++ (input.get? place).toList),
      (left.dropWhile (·.isTrivia)).tail)
  | .report _ => ([], left)
  | .node kind pieces =>
    let (children, rest) := Piece.allTrees input (left.dropWhile (·.isTrivia)) pieces
    let node : Tree := .node kind (spanAround input children rest) children
    (leavesOf (left.takeWhile (·.isTrivia)) ++ [node], rest)

/-- The trees that pieces become, one after the other. -/
def Piece.allTrees (input : Input) (left : List LayoutToken) :
    List Piece → List Tree × List LayoutToken
  | [] => ([], left)
  | piece :: others =>
    let (trees, rest) := piece.trees input left
    let (more, last) := Piece.allTrees input rest others
    (trees ++ more, last)

end

/-- The root over pieces. Trivia behind the last of them goes into the root. -/
def rootTree (input : Input) (pieces : List Piece) : Tree :=
  let (trees, left) := Piece.allTrees input input.tokens.toList pieces
  let children := trees ++ leavesOf (left.takeWhile (·.isTrivia))
  .node .root (spanAround input children []) children

/-- What is left over behind a place, in one error node. -/
def leftover (input : Input) (place : Nat) : List Piece :=
  if place < input.size then [.node .error (tokenPieces place input.size)] else []

/-- The tree over what a grammar yields and what is left over. -/
def Yield.tree (input : Input) (yield : Yield) : Tree :=
  rootTree input (yield.pieces ++ leftover input yield.place)

/-- The tree that a grammar denotes. A grammar that nests without end yields nothing. -/
def Direct.tree (rules : RuleTable) (entry : Grammar) (input : Input) : Tree :=
  let yield := Direct.evalWithin rules (Grammar.levelsFor input) entry ⟨input, 0, false⟩
  (yield.getD (Direct.nothing false ⟨input, 0, false⟩)).tree input

-- ================================================== tokens in order

/-- Pieces whose tokens are those from one place up to another. -/
inductive InOrder (input : Input) : (first last : Nat) → List Piece → Prop
  | nil (place : Nat) : InOrder input place place []
  | token {place last : Nat} {rest : List Piece} (inside : place < input.size)
      (later : InOrder input (place + 1) last rest) :
      InOrder input place last (.token place :: rest)
  | report {place last : Nat} {rest : List Piece} (diagnostic : Diagnostic)
      (later : InOrder input place last rest) :
      InOrder input place last (.report diagnostic :: rest)
  | node {first place last : Nat} {pieces rest : List Piece} (kind : NodeKind)
      (inner : InOrder input first place pieces) (later : InOrder input place last rest) :
      InOrder input first last (.node kind pieces :: rest)

/-- Pieces in order, behind pieces in order. -/
theorem InOrder.append {first place last : Nat} {pieces others : List Piece}
    (earlier : InOrder input first place pieces) (later : InOrder input place last others) :
    InOrder input first last (pieces ++ others) := by
  induction earlier with
  | nil => exact later
  | token inside _ ih => exact .token inside (ih later)
  | report diagnostic _ ih => exact .report diagnostic (ih later)
  | node kind inner _ _ ih => exact .node kind inner (ih later)

/-- A stretch of tokens is in order from its first place to its last. -/
theorem inOrder_tokenPieces {first last : Nat} (honward : first ≤ last)
    (hinside : last ≤ input.size) :
    InOrder input first last (tokenPieces first last) := by
  induction hcount : last - first generalizing first with
  | zero =>
    obtain rfl : first = last := by omega
    rw [tokenPieces_self]
    exact .nil first
  | succ count ih =>
    rw [tokenPieces_succ (by omega)]
    exact .token (by omega) (ih (by omega) (by omega))

mutual

/-- The log of a run has its tokens in order, since a wrapper has no place of its own. -/
theorem Log.inOrder {recovers : Bool} {first last : Nat} {log : List Event} {pieces : List Piece} :
    Log input recovers first last log pieces → InOrder input first last pieces
  | .nil place | .blank place => .nil place
  | .append earlier later => earlier.inOrder.append later.inOrder
  | .token inside => .token inside (.nil _)
  | .report _ _ => .report _ (.nil _)
  | .skipped _ _ onward inside =>
    .node .error (inOrder_tokenPieces onward inside) (.report _ (.nil _))
  | .node chain => chain.inOrder

/-- A wrapped node has its tokens where the node is opened first. -/
theorem Chain.inOrder {recovers : Bool} {first last : Nat} {front back : List Event}
    {kind : NodeKind} {piece : Piece} :
    Chain input recovers first last front kind back piece → InOrder input first last [piece]
  | .node kind body => .node kind body.inOrder (.nil _)
  | .wrap kind chain body => .node kind (chain.inOrder.append body.inOrder) (.nil _)

end

/-- Trivia in front has no significant index. -/
theorem significantIndices_dropWhile (tokens : List LayoutToken) : ∀ index : Nat,
    significantIndices index tokens
      = significantIndices (index + (tokens.takeWhile (·.isTrivia)).length)
        (tokens.dropWhile (·.isTrivia)) := by
  induction tokens with
  | nil => exact fun _ => rfl
  | cons token rest ih =>
    intro index
    cases htrivia : token.isTrivia with
    | true =>
      rw [List.takeWhile_cons_of_pos htrivia, List.dropWhile_cons_of_pos htrivia, List.length_cons,
        significantIndices, if_pos htrivia, ih, Nat.add_assoc, Nat.add_comm 1]
    | false =>
      rw [List.takeWhile_cons_of_neg (by simp [htrivia]),
        List.dropWhile_cons_of_neg (by simp [htrivia])]
      rfl

theorem take_takeWhile {α : Type} (p : α → Bool) (list : List α) :
    list.take (list.takeWhile p).length = list.takeWhile p :=
  (List.prefix_iff_eq_take.mp (List.takeWhile_prefix p)).symm

theorem drop_takeWhile {α : Type} (p : α → Bool) (list : List α) :
    list.drop (list.takeWhile p).length = list.dropWhile p := by
  have hdrop := @List.drop_left _ (list.takeWhile p) (list.dropWhile p)
  rw [List.takeWhile_append_dropWhile] at hdrop
  exact hdrop

namespace Builder

/-- The tokens that are left, of which the significant ones are those from a place
on. -/
structure Ready (input : Input) (place : Nat) (left : List LayoutToken) (builder : Builder) :
    Prop where
  left_eq : left = input.tokens.toList.drop builder.nextRaw
  significant_eq : input.significant.toList.drop place = significantIndices builder.nextRaw left

/-- Open nodes with trees added to the innermost one. -/
def addTo (trees : List Tree) : List (NodeKind × List Tree) → List (NodeKind × List Tree)
  | [] => []
  | (kind, children) :: outer => (kind, trees.reverse ++ children) :: outer

theorem addTo_nil (nodes : List (NodeKind × List Tree)) : addTo [] nodes = nodes := by
  cases nodes <;> rfl

theorem addTo_append (trees more : List Tree) (nodes : List (NodeKind × List Tree)) :
    addTo (trees ++ more) nodes = addTo more (addTo trees nodes) := by
  cases nodes with
  | nil => rfl
  | cons node outer => simp [addTo]

theorem addTo_ne_nil {nodes : List (NodeKind × List Tree)} (h : nodes ≠ []) (trees : List Tree) :
    addTo trees nodes ≠ [] := by
  cases nodes with
  | nil => exact absurd rfl h
  | cons node outer => exact List.cons_ne_nil _ _

theorem openNodes_addChild (builder : Builder) (child : Tree) :
    (builder.addChild child).openNodes = addTo [child] builder.openNodes := by
  unfold addChild
  cases hopen : builder.openNodes with
  | nil => exact hopen
  | cons node outer => rfl

/-- Placing tokens adds their leaves, as far as there are any. -/
theorem openNodes_placeMany (count : Nat) : ∀ builder : Builder,
    (builder.placeMany input count).openNodes
      = addTo (leavesOf ((input.tokens.toList.drop builder.nextRaw).take count))
        builder.openNodes := by
  induction count with
  | zero => exact fun builder => (addTo_nil _).symm
  | succ count ih =>
    intro builder
    show ((builder.placeNext input).placeMany input count).openNodes = _
    rw [ih]
    unfold placeNext
    cases htoken : input.tokens[builder.nextRaw]? with
    | none =>
      have hend : input.tokens.toList.length ≤ builder.nextRaw := by simpa using htoken
      dsimp only
      rw [List.drop_of_length_le hend, List.drop_of_length_le (Nat.le_succ_of_le hend),
        List.take_nil, List.take_nil]
    | some token =>
      have hsplit : input.tokens.toList.drop builder.nextRaw
          = token :: input.tokens.toList.drop (builder.nextRaw + 1) := by
        obtain ⟨hinside, rfl⟩ := Array.getElem?_eq_some_iff.mp htoken
        exact List.drop_eq_getElem_cons (by simpa using hinside)
      have hnext : (builder.addChild (.leaf ⟨token.kind, token.span⟩)).nextRaw
          = builder.nextRaw := by
        unfold addChild
        split <;> rfl
      dsimp only
      rw [openNodes_addChild, hnext, hsplit, List.take_succ_cons, ← addTo_append]
      rfl

/-- The run of trivia is counted from the token of the index on. -/
theorem triviaRun_eq (limit : Nat) : ∀ index : Nat, triviaRun input index limit
    = (((input.tokens.toList.drop index).take limit).takeWhile (·.isTrivia)).length := by
  induction limit with
  | zero => exact fun _ => rfl
  | succ limit ih =>
    intro index
    unfold triviaRun
    cases htoken : input.tokens[index]? with
    | none =>
      have hend : input.tokens.toList.length ≤ index := by simpa using htoken
      rw [List.drop_of_length_le hend]
      rfl
    | some token =>
      obtain ⟨hinside, rfl⟩ := Array.getElem?_eq_some_iff.mp htoken
      rw [List.drop_eq_getElem_cons (by simpa using hinside), List.take_succ_cons, ih]
      cases htrivia : input.tokens[index].isTrivia with
      | true => simp [htrivia]
      | false => simp [htrivia]

namespace Ready

variable {place : Nat} {left : List LayoutToken} {builder : Builder}

theorem initial (kind : NodeKind) :
    Ready input 0 input.tokens.toList (Builder.initial.openNode input kind) := by
  refine ⟨rfl, ?_⟩
  rw [input.significant_eq]
  rfl

/-- The tokens that are left when some are placed. -/
theorem placeMany (h : Ready input place left builder) (count : Nat) :
    (builder.placeMany input count).openNodes = addTo (leavesOf (left.take count)) builder.openNodes
      ∧ left.drop count = input.tokens.toList.drop (builder.placeMany input count).nextRaw := by
  rw [openNodes_placeMany, Placed.nextRaw_placeMany, h.left_eq, List.drop_drop]
  exact ⟨rfl, rfl⟩

/-- In front of a place the builder finds the trivia that is left there. -/
theorem triviaRun_eq (h : Ready input place left builder) :
    triviaRun input builder.nextRaw input.tokens.size = (left.takeWhile (·.isTrivia)).length := by
  have hsize : left.length ≤ input.tokens.size := by
    rw [h.left_eq, List.length_drop, Array.length_toList]
    omega
  rw [Builder.triviaRun_eq, ← h.left_eq, List.take_of_length_le hsize]

/-- The trivia goes into the open node, and the significant tokens that are left are the same. -/
theorem placeTrivia (h : Ready input place left builder) :
    (builder.placeTrivia input).openNodes
        = addTo (leavesOf (left.takeWhile (·.isTrivia))) builder.openNodes
      ∧ Ready input place (left.dropWhile (·.isTrivia)) (builder.placeTrivia input) := by
  unfold Builder.placeTrivia
  rw [h.triviaRun_eq]
  obtain ⟨hopen, hleft⟩ := h.placeMany (left.takeWhile (·.isTrivia)).length
  rw [take_takeWhile] at hopen
  rw [drop_takeWhile] at hleft
  refine ⟨hopen, hleft, ?_⟩
  rw [Placed.nextRaw_placeMany, h.significant_eq]
  exact significantIndices_dropWhile left _

/-- Behind its trivia stands the token of the place. -/
theorem split (h : Ready input place left builder) (hinside : place < input.size) :
    ∃ token rest, left.dropWhile (·.isTrivia) = token :: rest ∧ input.get? place = some token
      ∧ input.rawIndex? place = some (builder.nextRaw + (left.takeWhile (·.isTrivia)).length)
      ∧ input.significant.toList.drop (place + 1) = significantIndices
        (builder.nextRaw + (left.takeWhile (·.isTrivia)).length + 1) rest := by
  -- what is behind the trivia is read twice: as the next significant index and as the
  -- next raw token
  have hsignificant := h.significant_eq.trans (significantIndices_dropWhile left _)
  have hleft := drop_takeWhile (·.isTrivia) left
  have hhead := List.head?_dropWhile_not (·.isTrivia) left
  rw [h.left_eq, List.drop_drop, ← h.left_eq] at hleft
  generalize left.dropWhile (·.isTrivia) = behind at hsignificant hleft hhead ⊢
  cases behind with
  | nil =>
    have hempty : input.significant.toList.length ≤ place :=
      List.drop_eq_nil_iff.mp hsignificant
    rw [Array.length_toList] at hempty
    exact absurd hinside (Nat.not_lt_of_le hempty)
  | cons token rest =>
    have hkind : token.isTrivia = false := hhead
    rw [significantIndices, hkind, if_neg Bool.false_ne_true] at hsignificant
    have hraw : input.rawIndex? place
        = some (builder.nextRaw + (left.takeWhile (·.isTrivia)).length) := by
      unfold Input.rawIndex?
      rw [← Array.getElem?_toList, ← Nat.add_zero place, ← List.getElem?_drop, hsignificant]
      rfl
    refine ⟨token, rest, rfl, ?_, hraw, ?_⟩
    · unfold Input.get?
      rw [hraw, Option.bind_some, ← Array.getElem?_toList, ← Nat.add_zero (_ + _),
        ← List.getElem?_drop, hleft]
      rfl
    · rw [← List.drop_drop, hsignificant]
      rfl

/-- A token is placed together with the trivia in front of it, and the next one is then its
successor. -/
theorem placeToken (h : Ready input place left builder) (hinside : place < input.size) :
    (builder.placeToken input place).openNodes
        = addTo (leavesOf (left.takeWhile (·.isTrivia) ++ (input.get? place).toList))
          builder.openNodes
      ∧ Ready input (place + 1) (left.dropWhile (·.isTrivia)).tail
        (builder.placeToken input place) := by
  obtain ⟨token, rest, hbehind, htoken, hraw, hlater⟩ := h.split hinside
  have hcount : builder.nextRaw + (left.takeWhile (·.isTrivia)).length + 1 - builder.nextRaw
      = (left.takeWhile (·.isTrivia)).length + 1 := by
    omega
  have hleft : left = left.takeWhile (·.isTrivia) ++ token :: rest := by
    rw [← hbehind, List.takeWhile_append_dropWhile]
  unfold Builder.placeToken
  rw [hraw]
  dsimp only
  rw [hcount, htoken, hbehind]
  obtain ⟨hopen, hdrop⟩ := h.placeMany ((left.takeWhile (·.isTrivia)).length + 1)
  have htake : left.take ((left.takeWhile (·.isTrivia)).length + 1)
      = left.takeWhile (·.isTrivia) ++ [token] := by
    conv => lhs; arg 2; rw [hleft]
    exact List.take_length_add_append 1
  have hrest : left.drop ((left.takeWhile (·.isTrivia)).length + 1) = rest := by
    conv => lhs; arg 2; rw [hleft]
    exact List.drop_length_add_append 1
  rw [htake] at hopen
  rw [hrest] at hdrop
  refine ⟨hopen, hdrop, ?_⟩
  rw [Placed.nextRaw_placeMany]
  exact hlater

/-- The trivia in front of a node goes into the parent, and the node opens with nothing inside. -/
theorem openNode (h : Ready input place left builder) (hopen : builder.openNodes ≠ [])
    (kind : NodeKind) :
    (builder.openNode input kind).openNodes
        = (kind, []) :: addTo (leavesOf (left.takeWhile (·.isTrivia))) builder.openNodes
      ∧ Ready input place (left.dropWhile (·.isTrivia)) (builder.openNode input kind) := by
  obtain ⟨htrivia, hready⟩ := h.placeTrivia
  unfold Builder.openNode
  rw [if_neg (by simpa using hopen)]
  exact ⟨congrArg _ htrivia, hready.left_eq, hready.significant_eq⟩

/-- The offset of the next token, in terms of the tokens that are left. -/
theorem nextOffset_eq (h : Ready input place left builder) :
    builder.nextOffset input = (left.head?.map (·.span.start)).getD input.endOffset := by
  unfold nextOffset
  rw [h.left_eq, List.head?_drop, Array.getElem?_toList]

/-- The span of a node is read off its children when it is closed, newest first. -/
theorem spanOf_reverse (children : List Tree) (left : List LayoutToken) :
    spanOf children.reverse ((left.head?.map (·.span.start)).getD input.endOffset)
      = spanAround input children left := by
  have hfirst : children.reverse.getLast? = children.head? := List.getLast?_reverse
  have hlast : children.reverse.head? = children.getLast? := List.head?_reverse
  unfold spanOf spanAround
  generalize children.reverse.getLast? = first at hfirst ⊢
  generalize children.reverse.head? = last at hlast ⊢
  subst hfirst hlast
  cases children.head? <;> cases children.getLast? <;> rfl

/-- Behind the last place there is trivia only. -/
theorem takeWhile_eq (h : Ready input input.size left builder) :
    left.takeWhile (·.isTrivia) = left := by
  have hnone : significantIndices builder.nextRaw left = [] := by
    rw [← h.significant_eq]
    exact List.drop_of_length_le (Nat.le_of_eq Array.length_toList)
  clear h
  generalize builder.nextRaw = index at hnone
  induction left generalizing index with
  | nil => rfl
  | cons token rest ih =>
    unfold significantIndices at hnone
    split at hnone
    case isTrue htrivia => rw [List.takeWhile_cons_of_pos htrivia, ih _ hnone]
    case isFalse => cases hnone

/-- Placing the tokens that are left. -/
theorem placeRest (h : Ready input input.size left builder) :
    (builder.placeRest input).openNodes
        = addTo (leavesOf (left.takeWhile (·.isTrivia))) builder.openNodes
      ∧ Ready input input.size [] (builder.placeRest input) := by
  have hlength : left.length ≤ input.tokens.size - builder.nextRaw :=
    Nat.le_of_eq (by rw [h.left_eq, List.length_drop, Array.length_toList])
  obtain ⟨hopen, hleft⟩ := h.placeMany (input.tokens.size - builder.nextRaw)
  rw [List.take_of_length_le hlength] at hopen
  rw [List.drop_of_length_le hlength] at hleft
  rw [h.takeWhile_eq]
  exact ⟨hopen, hleft, List.drop_of_length_le (Nat.le_of_eq Array.length_toList)⟩

/-- Closing a node inside another. -/
theorem closeNode (h : Ready input place left builder) {kind : NodeKind} {children : List Tree}
    {outer : List (NodeKind × List Tree)}
    (hopen : builder.openNodes = (kind, children.reverse) :: outer) (houter : outer ≠ []) :
    (builder.closeNode input).openNodes
        = addTo [.node kind (spanAround input children left) children] outer
      ∧ Ready input place left (builder.closeNode input) := by
  obtain ⟨node, others, rfl⟩ := List.exists_cons_of_ne_nil houter
  unfold Builder.closeNode
  rw [hopen, if_neg (by simp)]
  dsimp only
  rw [hopen]
  dsimp only
  rw [h.nextOffset_eq, spanOf_reverse, List.reverse_reverse]
  exact ⟨rfl, h.left_eq, h.significant_eq⟩

end Ready

/-- Pieces that are built in an open node become their trees there. -/
theorem addPieces_eq {first last : Nat} {pieces : List Piece}
    (h : InOrder input first last pieces) :
    ∀ (builder : Builder) (left : List LayoutToken), builder.openNodes ≠ [] →
      Ready input first left builder →
      (builder.addPieces input pieces).openNodes
          = addTo (Piece.allTrees input left pieces).1 builder.openNodes
        ∧ Ready input last (Piece.allTrees input left pieces).2
          (builder.addPieces input pieces) := by
  induction h with
  | nil => exact fun builder left _ hready => ⟨(addTo_nil _).symm, hready⟩
  | token inside _ ih =>
    intro builder left hopen hready
    obtain ⟨hadded, hplaced⟩ := hready.placeToken inside
    obtain ⟨hmore, hlast⟩ := ih _ _ (hadded ▸ addTo_ne_nil hopen _) hplaced
    refine ⟨?_, hlast⟩
    rw [hadded, ← addTo_append] at hmore
    exact hmore
  | report diagnostic _ ih =>
    intro builder left hopen hready
    exact ih { builder with diagnostics := diagnostic :: builder.diagnostics } left hopen
      ⟨hready.left_eq, hready.significant_eq⟩
  | @node first place last pieces rest kind _ _ ihinner ihlater =>
    intro builder left hopen hready
    obtain ⟨hopened, hbehind⟩ := hready.openNode hopen kind
    -- the trivia in front of the node is placed before it opens, so its pieces start
    -- with what is left then
    obtain ⟨hinner, hplaced⟩ := ihinner _ _ (hopened ▸ List.cons_ne_nil _ _) hbehind
    rw [hopened] at hinner
    obtain ⟨hclosed, hready⟩ := hplaced.closeNode
      (hinner.trans (congrArg (fun trees => (kind, trees) :: _) (List.append_nil _)))
      (addTo_ne_nil hopen _)
    obtain ⟨hmore, hlast⟩ := ihlater _ _ (hclosed ▸ addTo_ne_nil (addTo_ne_nil hopen _) _) hready
    refine ⟨?_, hlast⟩
    rw [hclosed, ← addTo_append, ← addTo_append, ← List.append_assoc] at hmore
    exact hmore

end Builder

-- ============================================================ the root

/-- The root that is built around pieces whose tokens are all there are. -/
theorem ofRoot_eq {pieces : List Piece} (h : InOrder input 0 input.size pieces) :
    (Builder.ofRoot input pieces).finished = some (rootTree input pieces) := by
  have hstart : (Builder.initial.openNode input .root).openNodes = [(.root, [])] := rfl
  obtain ⟨hbuilt, hready⟩ := Builder.addPieces_eq h _ _ (hstart ▸ List.cons_ne_nil _ _)
    (Builder.Ready.initial .root)
  rw [hstart] at hbuilt
  obtain ⟨hrest, hlast⟩ := hready.placeRest
  rw [hbuilt, ← Builder.addTo_append] at hrest
  show (((Builder.initial.openNode input .root).addPieces input pieces).closeNode input).finished
    = _
  unfold Builder.closeNode
  rw [hbuilt, if_pos (show (Builder.addTo _ [(NodeKind.root, [])]).length = 1 from rfl)]
  dsimp only
  rw [hrest]
  dsimp only [Builder.addTo]
  rw [List.append_nil, hlast.nextOffset_eq, Builder.Ready.spanOf_reverse, List.reverse_reverse]
  rfl

theorem allTrees_cons (left : List LayoutToken) (piece : Piece) (rest : List Piece) :
    Piece.allTrees input left (piece :: rest)
      = ((piece.trees input left).1 ++ (Piece.allTrees input (piece.trees input left).2 rest).1,
        (Piece.allTrees input (piece.trees input left).2 rest).2) := rfl

/-- What some pieces leave of the tokens is what the next ones start with. -/
theorem allTrees_append (pieces others : List Piece) : ∀ left : List LayoutToken,
    Piece.allTrees input left (pieces ++ others)
      = ((Piece.allTrees input left pieces).1
          ++ (Piece.allTrees input (Piece.allTrees input left pieces).2 others).1,
        (Piece.allTrees input (Piece.allTrees input left pieces).2 others).2) := by
  induction pieces with
  | nil => exact fun _ => rfl
  | cons piece rest ih =>
    intro left
    rw [List.cons_append, allTrees_cons, allTrees_cons, ih, List.append_assoc]

/-- Reports are not part of the tree. -/
theorem rootTree_closingPieces (pieces : List Piece) (outcome : Outcome) (place : Nat) :
    rootTree input (pieces ++ closingPieces input outcome place)
      = rootTree input (pieces ++ leftover input place) := by
  have hclosing : ∀ left : List LayoutToken,
      Piece.allTrees input left (closingPieces input outcome place)
        = Piece.allTrees input left (leftover input place) := by
    intro left
    unfold closingPieces leftover
    by_cases hend : input.size ≤ place
    · rw [if_pos hend, if_neg (Nat.not_lt_of_le hend)]
      cases outcome.success <;> rfl
    · rw [if_neg hend, if_pos (Nat.lt_of_not_le hend)]
      cases outcome.success <;> rfl
  unfold rootTree
  rw [allTrees_append, allTrees_append, hclosing]

/-- What is left over is skipped up to the end of the input. -/
theorem inOrder_closingPieces (outcome : Outcome) {place : Nat} (hinside : place ≤ input.size) :
    InOrder input place input.size (closingPieces input outcome place) := by
  have hend : InOrder input place input.size (if input.size ≤ place then []
      else (if outcome.success then [.report (leftoverDiagnostic input outcome place)] else [])
        ++ [.node .error (tokenPieces place input.size)]) := by
    split
    case isTrue hle =>
      rw [Nat.le_antisymm hinside hle]
      exact .nil _
    case isFalse =>
      have hnode := InOrder.node .error (inOrder_tokenPieces hinside (Nat.le_refl _)) (.nil _)
      split
      · exact .report _ hnode
      · exact hnode
  refine InOrder.append ?_ hend
  split
  · exact .nil place
  · exact .report _ (.nil place)

/-- The tree of a parse whose entry has added pieces. -/
theorem tree_ofReply {reply : Outcome × Context input} {pieces : List Piece}
    (h : (Context.initial input).mark.2.Adds reply.2 pieces) :
    (ofReply reply).tree = rootTree input (pieces ++ leftover input reply.2.place) := by
  obtain ⟨log, _, hlog⟩ := h.logged
  obtain ⟨whole, hreplays, hevents⟩ := Context.close_events h.growsBy reply.1
  have horder := hlog.inOrder.append
    (inOrder_closingPieces reply.1 (hlog.last_le (Nat.zero_le _)))
  show (Event.replay input _).1 = _
  rw [replay_of_root hevents hreplays, ← rootTree_closingPieces pieces reply.1]
  exact congrArg (Option.getD · _) (ofRoot_eq horder)

/-- The tree of a parse is the one that its entry denotes. However many levels the
run of the entry may nest, it answers if the evaluation does, with the same success
and place, and the parse of its reply has the tree over the yield; and so has the
parse where the levels do not suffice. -/
theorem tree_denotes (rules : RuleTable) (entry : Grammar) (input : Input) :
    (∀ levels : Nat, Option.Rel
        (fun (reply : Outcome × Context input) (yield : Yield) =>
          reply.1.success = yield.success ∧ reply.2.place = yield.place
            ∧ (ofReply reply).tree = yield.tree input)
        (entry.runWithin rules levels (Context.initial input).mark.2)
        (Direct.evalWithin rules levels entry ⟨input, 0, false⟩))
      ∧ (ofInput rules entry input).tree = Direct.tree rules entry input := by
  have htree : ∀ (reply : Outcome × Context input) (yield : Yield),
      Recorded (Context.initial input).mark.2 reply yield →
        (ofReply reply).tree = yield.tree input := by
    intro reply yield h
    rw [tree_ofReply h.adds, h.place]
    rfl
  constructor
  · intro levels
    have hrecords := Grammar.records_runWithin rules levels entry (Context.initial input).mark.2
    change Records _ _ (Direct.evalWithin rules levels entry ⟨input, 0, false⟩) at hrecords
    generalize entry.runWithin rules levels (Context.initial input).mark.2 = reply at hrecords ⊢
    generalize Direct.evalWithin rules levels entry ⟨input, 0, false⟩ = yield at hrecords ⊢
    cases hrecords with
    | none => exact .none
    | some h => exact .some ⟨h.success, h.place, htree _ _ h⟩
  · have hrecords := Grammar.records_runWithin rules (Grammar.levelsFor input) entry
      (Context.initial input).mark.2
    change Records _ (entry.run rules _) (Direct.evalWithin rules (Grammar.levelsFor input) entry
      ⟨input, 0, false⟩) at hrecords
    unfold ofInput runEntry Direct.tree
    generalize entry.run rules (Context.initial input).mark.2 = reply at hrecords ⊢
    generalize Direct.evalWithin rules (Grammar.levelsFor input) entry ⟨input, 0, false⟩ = yield
      at hrecords ⊢
    -- where the levels run out, both sides come to a reply that has done nothing
    cases hrecords with
    | none => exact htree _ _ ⟨rfl, rfl, .refl _⟩
    | some h => exact htree _ _ h

end Offside
