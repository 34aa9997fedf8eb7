import Mathlib.Data.List.Forall2
import Offside.Proofs.Grammar.Tiled
import Offside.Proofs.Parse.Denoted
import Offside.Proofs.Parse.Explained
import Offside.Proofs.Parse.Reported
import Offside.Proofs.Tree.Nodes

/-!
The errors in a tree are those of the diagnostics.

The pieces of a parse have each error node right in front of the report on it
(`Explained`), and what is left over at their end. Pieces become trees in order,
and their reports become the diagnostics in order. So the error nodes of the
tree, taken in the order of the tree, correspond one to one to reports on skipped
input, taken in the order of the diagnostics (`errorNodes_allTrees`).

# Spans

An error node spans its leaves, from the start of the first token that was
skipped to the end of the last. The report on it merges the spans of the two.
These are one stretch if the tokens of the input are in order
(`Input.Ordered`), which those of a layout are, since they tile the text.
-/

namespace Offside

open Parse

-- ========================================================= tokens in order

namespace LayoutToken

/-- The second token starts no earlier than the first, and ends no earlier. -/
def NotBehind (left right : LayoutToken) : Prop :=
  left.span.start ≤ right.span.start ∧ left.span.stop ≤ right.span.stop

/-- Tokens that cover a stretch are in order. -/
theorem Tile.pairwise {tokens : List LayoutToken}
    (hwidth : ∀ token ∈ tokens, token.position.offset ≤ token.finish.offset) :
    ∀ {first last : Position}, Tile first tokens last → tokens.Pairwise NotBehind := by
  induction tokens with
  | nil => exact fun _ => .nil
  | cons token rest ih =>
    intro first last h
    have hrest : ∀ token ∈ rest, token.position.offset ≤ token.finish.offset :=
      fun token hmem => hwidth token (List.mem_cons_of_mem _ hmem)
    refine .cons (fun later hlater => ?_) (ih hrest h.2)
    have hfirst := hwidth token List.mem_cons_self
    have hbehind := h.2.le_position hrest later hlater
    have hlater := hrest later hlater
    unfold NotBehind
    rw [span_eq, span_eq]
    exact ⟨Nat.le_trans hfirst hbehind, Nat.le_trans hbehind hlater⟩

end LayoutToken

/-- The significant tokens of an input are in order. -/
def Input.Ordered (input : Input) : Prop :=
  ∃ tokens, input.Holds tokens ∧ tokens.Pairwise LayoutToken.NotBehind

/-- Tokens that cover their source are in order. -/
theorem Input.Tiled.ordered {source : String} {tokens : List LayoutToken} {last : Position}
    (h : (Input.ofTokens source tokens).Tiled last) : (Input.ofTokens source tokens).Ordered :=
  ⟨_, ⟨Input.size_ofTokens _ _, Input.get?_ofTokens _ _⟩,
    (h.tile.pairwise h.width).sublist List.filter_sublist⟩

/-- The tokens of a source text are in order, laid out or not. -/
theorem Input.ordered_ofSource (layout : Option Layout.Rules) (source : String) :
    (Input.ofSource layout source).Ordered := by
  have htiled := Input.tiled_ofSource layout source
  cases layout with
  | none => exact htiled.ordered
  | some rules => exact htiled.ordered

/-- The tokens of a layout of a text are in order. -/
theorem ordered_layout (source : String) (rules : Layout.Rules) :
    (Input.ofTokens source (Layout.tokensOf rules (Reading.ofSource source).tokens
      (Reading.ofSource source).eof)).Ordered :=
  Input.ordered_ofSource (some rules) source

variable {input : Input}

theorem Input.Ordered.exists_get? (h : input.Ordered) {place : Nat} (hinside : place < input.size) :
    ∃ token, input.get? place = some token := by
  obtain ⟨tokens, ⟨hsize, hget⟩, _⟩ := h
  rw [hsize] at hinside
  exact ⟨tokens[place], (hget place).trans (List.getElem?_eq_getElem hinside)⟩

/-- Where tokens are in order, the stretch from one to another starts with the one and
ends with the other. -/
theorem Input.Ordered.cover?_eq (h : input.Ordered) {first last : Nat} {left right : LayoutToken}
    (hlt : first < last) (hleft : input.get? first = some left)
    (hright : input.get? (last - 1) = some right) :
    input.cover? first last = some ⟨left.span.start, right.span.stop⟩ := by
  have horder : left.NotBehind right := by
    obtain ⟨tokens, ⟨_, hget⟩, hpairs⟩ := h
    rw [hget] at hleft hright
    obtain ⟨hfirst, rfl⟩ := List.getElem?_eq_some_iff.mp hleft
    obtain ⟨hlast, rfl⟩ := List.getElem?_eq_some_iff.mp hright
    rcases Nat.lt_or_ge first (last - 1) with hbefore | hsame
    · exact List.pairwise_iff_getElem.mp hpairs _ _ hfirst hlast hbefore
    · obtain rfl : first = last - 1 := by omega
      exact ⟨Nat.le_refl _, Nat.le_refl _⟩
  unfold Input.cover?
  rw [if_pos hlt, hleft, hright]
  show some (Span.merge _ _) = _
  unfold Span.merge
  rw [Nat.min_eq_left horder.1, Nat.max_eq_right horder.2]

-- ==================================================== the node of a stretch

theorem head?_leavesOf (tokens : List LayoutToken) :
    (leavesOf tokens).head? = tokens.head?.map fun token => .leaf token.leaf := List.head?_map

theorem getLast?_leavesOf (tokens : List LayoutToken) :
    (leavesOf tokens).getLast? = tokens.getLast?.map fun token => .leaf token.leaf :=
  List.getLast?_map

theorem leavesOf_append (tokens others : List LayoutToken) :
    leavesOf (tokens ++ others) = leavesOf tokens ++ leavesOf others := List.map_append

/-- Tokens of a stretch become leaves, of which the last is that of the last token; and
the first is that of the first, where no trivia stands in front of it. -/
theorem allTrees_tokenPieces {last : Nat} (hinside : last ≤ input.size) (h : input.Ordered) :
    ∀ {first : Nat} (left : List LayoutToken), first < last →
      ∃ tokens, (Piece.allTrees input left (tokenPieces first last)).1 = leavesOf tokens
        ∧ tokens.getLast? = input.get? (last - 1)
        ∧ (left.takeWhile (·.isTrivia) = [] → tokens.head? = input.get? first) := by
  intro first
  induction hcount : last - first generalizing first with
  | zero =>
    intro left hlt
    omega
  | succ count ih =>
    intro left hlt
    obtain ⟨token, htoken⟩ := h.exists_get? (Nat.lt_of_lt_of_le hlt hinside)
    have htrees : ((Piece.token first).trees input left).1
        = leavesOf (left.takeWhile (·.isTrivia) ++ [token]) := by
      rw [Piece.trees, htoken]
      rfl
    rw [tokenPieces_succ hlt, allTrees_cons, htrees]
    have hhead : left.takeWhile (·.isTrivia) = [] →
        (left.takeWhile (·.isTrivia) ++ [token]).head? = input.get? first := by
      intro hnone
      rw [hnone, htoken]
      rfl
    rcases Nat.lt_or_ge (first + 1) last with hmore | hend
    · -- trivia between the tokens is inside the stretch, so that only the first token has to have
      -- none
      obtain ⟨tokens, htokens, hlast, _⟩ := ih (by omega)
        ((Piece.token first).trees input left).2 hmore
      refine ⟨left.takeWhile (·.isTrivia) ++ [token] ++ tokens, ?_, ?_, fun hnone => ?_⟩
      · rw [htokens]
        exact (leavesOf_append _ tokens).symm
      · obtain ⟨final, hfinal⟩ := h.exists_get? (show last - 1 < input.size by omega)
        rw [List.getLast?_append, hlast, hfinal]
        rfl
      · rw [List.head?_append, hhead hnone, htoken]
        rfl
    · obtain rfl : last = first + 1 := by omega
      refine ⟨left.takeWhile (·.isTrivia) ++ [token], ?_, ?_, hhead⟩
      · rw [tokenPieces_self]
        exact List.append_nil _
      · rw [List.getLast?_append, Nat.add_sub_cancel, htoken]
        rfl

/-- All children of the node are leaves. -/
def Tree.IsFlat (node : Tree) : Prop := ∀ child ∈ node.children, child.leaf?.isSome = true

theorem errorNodes_leavesOf (tokens : List LayoutToken) :
    (leavesOf tokens).flatMap Tree.errorNodes = [] := by
  refine List.flatMap_eq_nil_iff.mpr fun tree hmem => ?_
  obtain ⟨token, _, rfl⟩ := List.mem_map.mp hmem
  exact Tree.errorNodes_leaf _

/-- A stretch in an error node becomes one error node, with leaves as children and with
the span of the stretch. -/
theorem errorNodes_stretch (h : input.Ordered) {first last : Nat} (hlt : first < last)
    (hinside : last ≤ input.size) (left : List LayoutToken) :
    ∃ node : Tree, ((Piece.node .error (tokenPieces first last)).trees input left).1.flatMap
        Tree.errorNodes = [node]
      ∧ node.IsFlat ∧ input.cover? first last = some node.span := by
  have hnone : (left.dropWhile (·.isTrivia)).takeWhile (·.isTrivia) = [] := by
    have hhead := List.head?_dropWhile_not (·.isTrivia) left
    cases hbehind : left.dropWhile (·.isTrivia) with
    | nil => rfl
    | cons token rest =>
      rw [hbehind] at hhead
      have htoken : token.isTrivia = false := hhead
      exact List.takeWhile_cons_of_neg (by simp [htoken])
  obtain ⟨tokens, htokens, hlast, hhead⟩ :=
    allTrees_tokenPieces hinside h (left.dropWhile (·.isTrivia)) hlt
  obtain ⟨token, htoken⟩ := h.exists_get? (Nat.lt_of_lt_of_le hlt hinside)
  obtain ⟨final, hfinal⟩ := h.exists_get? (show last - 1 < input.size by omega)
  have hspan : ∀ rest, spanAround input (leavesOf tokens) rest
      = ⟨token.span.start, final.span.stop⟩ := by
    intro rest
    unfold spanAround
    rw [head?_leavesOf, getLast?_leavesOf, hhead hnone, hlast, htoken, hfinal]
    rfl
  refine ⟨.node .error ⟨token.span.start, final.span.stop⟩ (leavesOf tokens), ?_, ?_, ?_⟩
  · rw [Piece.trees]
    dsimp only
    rw [htokens, hspan, List.flatMap_append, errorNodes_leavesOf, List.nil_append,
      List.flatMap_singleton, Tree.errorNodes_node, errorNodes_leavesOf]
    rfl
  · intro child hmem
    obtain ⟨token, _, rfl⟩ := List.mem_map.mp hmem
    rfl
  · exact h.cover?_eq hlt htoken hfinal

/-- What is left over becomes one error node. -/
theorem errorNodes_leftover (h : input.Ordered) {place : Nat} (hleft : place < input.size)
    (left : List LayoutToken) :
    ∃ node : Tree, (Piece.allTrees input left (leftover input place)).1.flatMap Tree.errorNodes
        = [node]
      ∧ node.IsFlat ∧ input.cover? place input.size = some node.span := by
  obtain ⟨node, hnode, hflat, hspan⟩ := errorNodes_stretch h hleft (Nat.le_refl _) left
  refine ⟨node, ?_, hflat, hspan⟩
  unfold leftover
  rw [if_pos hleft, allTrees_cons, List.flatMap_append, hnode]
  rfl

/-- The error nodes in a node that is none itself are those in its pieces. -/
theorem errorNodes_node_trees {kind : NodeKind} (hkind : kind ≠ .error) (pieces : List Piece)
    (left : List LayoutToken) :
    ((Piece.node kind pieces).trees input left).1.flatMap Tree.errorNodes
      = (Piece.allTrees input (left.dropWhile (·.isTrivia)) pieces).1.flatMap Tree.errorNodes := by
  rw [Piece.trees]
  dsimp only
  rw [List.flatMap_append, errorNodes_leavesOf, List.nil_append, List.flatMap_singleton,
    Tree.errorNodes_node, if_neg hkind, List.nil_append]

-- =========================================================== the reports

/-- The report that accounts for an error node: its input was skipped, and the report
points at it. -/
structure Diagnostic.AccountsFor (diagnostic : Diagnostic) (node : Tree) : Prop where
  code : diagnostic.code = .skippedInput
  span : diagnostic.primarySpan = some node.span

/-- The report on a skipped stretch accounts for the node over it. -/
theorem accountsFor_skippedReport {node : Tree} {first last : Nat}
    (hspan : input.cover? first last = some node.span) (message : String) :
    (skippedReport input first last message).AccountsFor node := by
  refine ⟨rfl, ?_⟩
  unfold skippedReport
  rw [hspan]
  rfl

/-- Explained pieces become trees whose error nodes are flat, and are accounted for by
reports of the pieces, one to one and in order. -/
theorem errorNodes_allTrees (hordered : input.Ordered) {pieces : List Piece}
    (h : Explained input pieces) : ∀ left : List LayoutToken, ∃ reports,
      reports.Sublist (Piece.allReports pieces)
        ∧ List.Forall₂ Diagnostic.AccountsFor reports
          ((Piece.allTrees input left pieces).1.flatMap Tree.errorNodes)
        ∧ ∀ node ∈ (Piece.allTrees input left pieces).1.flatMap Tree.errorNodes, node.IsFlat := by
  induction h with
  | nil => exact fun _ => ⟨[], .slnil, .nil, nofun⟩
  | token place _ ih =>
    intro left
    obtain ⟨reports, hsublist, haccounts, hflat⟩ := ih ((Piece.token place).trees input left).2
    rw [allTrees_cons, List.flatMap_append, Piece.trees, errorNodes_leavesOf]
    exact ⟨reports, hsublist, haccounts, hflat⟩
  | report diagnostic _ ih =>
    intro left
    obtain ⟨reports, hsublist, haccounts, hflat⟩ := ih left
    exact ⟨reports, hsublist.cons _, haccounts, hflat⟩
  | @node kind pieces rest hkind _ _ ihinner ihlater =>
    intro left
    -- a node that is no error node passes on those inside it, and those behind it
    obtain ⟨inner, hinner, hinside, hflat⟩ := ihinner (left.dropWhile (·.isTrivia))
    obtain ⟨later, hlater, hbehind, hrest⟩ := ihlater ((Piece.node kind pieces).trees input left).2
    rw [allTrees_cons, List.flatMap_append, errorNodes_node_trees hkind]
    refine ⟨inner ++ later, hinner.append hlater, List.rel_append hinside hbehind, ?_⟩
    intro node hmem
    rcases List.mem_append.mp hmem with hmem | hmem
    · exact hflat node hmem
    · exact hrest node hmem
  | @skipped first last message rest hlt hinside _ ih =>
    intro left
    obtain ⟨node, hnode, hleaves, hspan⟩ := errorNodes_stretch hordered hlt hinside left
    obtain ⟨reports, hsublist, haccounts, hflat⟩ :=
      ih ((Piece.node .error (tokenPieces first last)).trees input left).2
    -- one error node more, with its report right behind it
    have htrees : (Piece.allTrees input left (.node .error (tokenPieces first last)
          :: .report (skippedReport input first last message) :: rest)).1.flatMap Tree.errorNodes
        = node :: (Piece.allTrees input
          ((Piece.node .error (tokenPieces first last)).trees input left).2 rest).1.flatMap
            Tree.errorNodes := by
      rw [allTrees_cons, List.flatMap_append, hnode]
      rfl
    refine ⟨skippedReport input first last message :: reports, ?_, ?_, ?_⟩
    · rw [Piece.allReports, Piece.reports, allReports_tokenPieces]
      exact hsublist.cons_cons _
    · rw [htrees]
      exact .cons (accountsFor_skippedReport hspan message) haccounts
    · rw [htrees]
      intro other hmem
      rcases List.mem_cons.mp hmem with rfl | hmem
      · exact hleaves
      · exact hflat other hmem

-- ============================================================ the parse

/-- The run of an entry that makes no error node adds pieces that are explained. -/
theorem explained_runEntry {rules : RuleTable} {entry : Grammar} (hentry : entry.MakesNo .error)
    (hrules : ∀ rule body, rules rule = some body → body.MakesNo .error) (hlaid : input.Laid) :
    ∃ pieces, (Context.initial input).mark.2.Adds
        (runEntry rules entry (Context.initial input).mark.2).2 pieces
      ∧ Explained input pieces := by
  have hrecords := Grammar.records_runWithin rules (Grammar.levelsFor input) entry
    (Context.initial input).mark.2
  have hexplains := Direct.explains_evalWithin hrules (Grammar.levelsFor input) entry
    (Context.initial input).mark.2.view
  change Records _ (entry.run rules _) _ at hrecords
  unfold runEntry
  generalize entry.run rules (Context.initial input).mark.2 = reply at hrecords ⊢
  generalize Direct.evalWithin rules (Grammar.levelsFor input) entry
    (Context.initial input).mark.2.view = yield at hrecords hexplains
  cases hrecords with
  | none => exact ⟨[], .refl _, .nil⟩
  | some h => exact ⟨_, h.adds, hexplains _ hentry hlaid rfl⟩

/-- The error nodes of a parse that stopped at a place match its diagnostics, one to one
and in order. Those of skipped input are accounted for by reports on skipped input.
The last is that of what is left over, if anything is, and matches the last diagnostic. -/
def Parse.ErrorsMatch (input : Input) (place : Nat) (parse : Parse) : Prop :=
  ∃ skipped reports front, List.Forall₂ Diagnostic.AccountsFor reports skipped
    ∧ reports.Sublist front
    ∧ ((place = input.size ∧ parse.tree.errorNodes = skipped ∧ parse.diagnostics = front)
      ∨ (place < input.size ∧ ∃ node final, parse.tree.errorNodes = skipped ++ [node]
        ∧ input.cover? place input.size = some node.span
        ∧ parse.diagnostics = front ++ [final]))

/-- Where something is left over, the parse itself makes one report: on the failure, or
on what is left over. -/
theorem reports_leftover (outcome : Outcome) {place : Nat} (hleft : place < input.size) :
    ∃ final, Piece.allReports (closingPieces input outcome place) = [final] := by
  unfold closingPieces
  rw [if_neg (Nat.not_le_of_lt hleft), allReports_append, allReports_append, Piece.allReports,
    Piece.reports, allReports_tokenPieces]
  cases outcome.success with
  | true => exact ⟨_, rfl⟩
  | false => exact ⟨_, rfl⟩

/-- The root is no error node, so that those of the tree are the ones of the pieces. -/
theorem errorNodes_rootTree (pieces : List Piece) :
    (rootTree input pieces).errorNodes
      = (Piece.allTrees input input.tokens.toList pieces).1.flatMap Tree.errorNodes := by
  unfold rootTree
  dsimp only
  rw [Tree.errorNodes_node, if_neg (by decide), List.flatMap_append, errorNodes_leavesOf,
    List.append_nil, List.nil_append]

/-- A parse whose entry has added explained pieces. -/
theorem errorsMatch_ofReply (hordered : input.Ordered) {reply : Outcome × Context input}
    {pieces : List Piece} (hadds : (Context.initial input).mark.2.Adds reply.2 pieces)
    (h : Explained input pieces) :
    (ofReply reply).ErrorsMatch input reply.2.place
      ∧ ∀ node ∈ (ofReply reply).tree.errorNodes, node.IsFlat := by
  obtain ⟨reports, hsublist, haccounts, hflat⟩ :=
    errorNodes_allTrees hordered h input.tokens.toList
  have hinside : reply.2.place ≤ input.size := hadds.extends.last_le (Nat.zero_le _)
  have hdiagnostics := diagnostics_ofReply hadds
  have hnodes := @errorNodes_rootTree input (pieces ++ leftover input reply.2.place)
  rw [← tree_ofReply hadds, allTrees_append, List.flatMap_append] at hnodes
  rcases Nat.lt_or_ge reply.2.place input.size with hleft | hend
  · -- what is left over becomes one error node more, the last one, and its report comes last
    obtain ⟨node, hnode, hleaves, hspan⟩ := errorNodes_leftover hordered hleft
      (Piece.allTrees input input.tokens.toList pieces).2
    obtain ⟨final, hfinal⟩ := reports_leftover reply.1 hleft
    rw [hnode] at hnodes
    rw [hfinal] at hdiagnostics
    refine ⟨⟨_, reports, _, haccounts, hsublist, .inr ⟨hleft, node, final, hnodes, hspan,
      hdiagnostics⟩⟩, ?_⟩
    rw [hnodes]
    intro other hmem
    rcases List.mem_append.mp hmem with hmem | hmem
    · exact hflat other hmem
    · rw [List.mem_singleton.mp hmem]
      exact hleaves
  · have hleftover : leftover input reply.2.place = [] := if_neg (Nat.not_lt_of_le hend)
    rw [hleftover] at hnodes
    rw [show (Piece.allTrees input (Piece.allTrees input input.tokens.toList pieces).2 []).1
      = [] from rfl, List.flatMap_nil, List.append_nil] at hnodes
    refine ⟨⟨_, reports, _, haccounts, hsublist.trans (List.sublist_append_left _ _),
      .inl ⟨Nat.le_antisymm hinside hend, hnodes, hdiagnostics⟩⟩, ?_⟩
    rw [hnodes]
    exact hflat

/-- The parse of an input in order, with an entry that makes no error node. -/
theorem errorsMatch_ofInput {rules : RuleTable} {entry : Grammar} (hentry : entry.MakesNo .error)
    (hrules : ∀ rule body, rules rule = some body → body.MakesNo .error) (hlaid : input.Laid)
    (hordered : input.Ordered) :
    (ofInput rules entry input).ErrorsMatch input
        (runEntry rules entry (Context.initial input).mark.2).2.place
      ∧ ∀ node ∈ (ofInput rules entry input).tree.errorNodes, node.IsFlat := by
  obtain ⟨pieces, hadds, hexplained⟩ := explained_runEntry hentry hrules hlaid
  unfold ofInput
  exact errorsMatch_ofReply hordered hadds hexplained

/-- A failure is reported, and so is what is left over. -/
theorem success_of_closingPieces {outcome : Outcome} {place : Nat}
    (h : Piece.allReports (closingPieces input outcome place) = []) :
    outcome.success = true ∧ input.size ≤ place := by
  unfold closingPieces at h
  rw [allReports_append, List.append_eq_nil_iff] at h
  obtain ⟨hfailure, hleftover⟩ := h
  have hsuccess : outcome.success = true := by
    cases houtcome : outcome.success with
    | true => rfl
    | false =>
      rw [houtcome] at hfailure
      cases hfailure
  refine ⟨hsuccess, ?_⟩
  by_contra hinside
  rw [if_neg hinside, hsuccess] at hleftover
  cases hleftover

/-- An entry that succeeds in a parse has run. -/
theorem run_of_runEntry {rules : RuleTable} {entry : Grammar} {ctx : Context input}
    (h : (runEntry rules entry ctx).1.success = true) :
    entry.run rules ctx = some (runEntry rules entry ctx) := by
  unfold runEntry at h ⊢
  cases hrun : entry.run rules ctx with
  | none =>
    rw [hrun] at h
    cases h
  | some reply => rfl

/-- The entry has succeeded in a parse of an input and has consumed every token, and the
tree has no error node. -/
def Parse.Flawless (rules : RuleTable) (entry : Grammar) (input : Input) : Prop :=
  (∃ outcome after, entry.run rules (Context.initial input).mark.2 = some (outcome, after)
      ∧ outcome.success = true ∧ after.place = input.size)
    ∧ (ofInput rules entry input).tree.errorNodes = []

/-- A parse without diagnostics is flawless. -/
theorem flawless_of_diagnostics {rules : RuleTable} {entry : Grammar}
    (hentry : entry.MakesNo .error)
    (hrules : ∀ rule body, rules rule = some body → body.MakesNo .error) (hlaid : input.Laid)
    (hordered : input.Ordered) (h : (ofInput rules entry input).diagnostics = []) :
    Flawless rules entry input := by
  obtain ⟨pieces, hadds, hexplained⟩ := explained_runEntry hentry hrules hlaid
  have hrun := @run_of_runEntry input rules entry (Context.initial input).mark.2
  unfold Flawless
  unfold ofInput at h ⊢
  generalize runEntry rules entry (Context.initial input).mark.2 = reply at hadds hrun h ⊢
  obtain ⟨outcome, after⟩ := reply
  have hreports := h
  rw [diagnostics_ofReply hadds, List.append_eq_nil_iff] at hreports
  obtain ⟨hsuccess, hend⟩ := success_of_closingPieces hreports.2
  have hinside := hadds.extends.last_le (Nat.zero_le _)
  refine ⟨⟨outcome, after, hrun hsuccess, hsuccess, Nat.le_antisymm hinside hend⟩, ?_⟩
  obtain ⟨⟨skipped, reports, front, haccounts, hsublist, hmatch⟩, _⟩ :=
    errorsMatch_ofReply hordered hadds hexplained
  rcases hmatch with ⟨_, hnodes, hfront⟩ | ⟨hleft, _⟩
  · have hnone : reports = [] := by
      rw [← hfront, h] at hsublist
      exact List.sublist_nil.mp hsublist
    rw [hnone] at haccounts
    cases haccounts
    exact hnodes
  · exact absurd hleft (Nat.not_lt_of_le hend)

end Offside
