import Offside.Parse.Basic
import Offside.Layout.Blocks
import Offside.Proofs.Layout.Content
import Offside.Proofs.Parse.Logged
import Offside.Proofs.Parse.Placed
import Offside.Proofs.Token.Reading

/-!
A parse loses nothing of its input.

Whatever the entry did, the log of a parse is one node of the root around what
the run has logged, the report on its failure and what was left over
(`Context.close_events`). So the replay builds the pieces of a root
(`replay_of_root`), and building them places every token once, in order.
`tree_lossless` puts this together for all grammars and inputs, and adds the
text: with the layout of a source text, the text of the tree is the source.
-/

namespace Offside

open Event Parse

variable {input : Input}

/-- The tree has a root at the top, and its leaves are the tokens of the input, each
once and in order. -/
def Tree.Holds (tree : Tree) (input : Input) : Prop :=
  (∃ span children, tree = .node .root span children) ∧ tree.leaves = input.leaves

-- ================================================ the log of a parse

/-- What a parse adds behind the run of its entry: the report on a failure, and what
is left over in an error node. -/
def Parse.closingPieces (input : Input) (outcome : Outcome) (place : Nat) : List Piece :=
  (if outcome.success then [] else [.report (failureDiagnostic input outcome)])
    ++ if input.size ≤ place then []
      else (if outcome.success then [.report (leftoverDiagnostic input outcome place)] else [])
        ++ [.node .error (tokenPieces place input.size)]

/-- The log has grown by one that replays to the pieces. -/
def Context.GrowsBy (before after : Context input) (pieces : List Piece) : Prop :=
  ∃ log, after.events.toList = before.events.toList ++ log
    ∧ Replays input log (·.addPieces input pieces)

/-- The log has grown by one that replays to some pieces. -/
def Context.Grows (before after : Context input) : Prop :=
  ∃ log pieces, after.events.toList = before.events.toList ++ log
    ∧ Replays input log (·.addPieces input pieces)

namespace Context

variable {before between after : Context input} {pieces others : List Piece}

theorem GrowsBy.grows (h : before.GrowsBy after pieces) : before.Grows after := by
  obtain ⟨log, hevents, hreplays⟩ := h
  exact ⟨log, pieces, hevents, hreplays⟩

theorem Grows.growsBy (h : before.Grows after) : ∃ pieces, before.GrowsBy after pieces := by
  obtain ⟨log, pieces, hevents, hreplays⟩ := h
  exact ⟨pieces, log, hevents, hreplays⟩

theorem GrowsBy.refl (ctx : Context input) : ctx.GrowsBy ctx [] :=
  ⟨[], (List.append_nil _).symm, .nil⟩

theorem GrowsBy.trans (first : before.GrowsBy between pieces)
    (second : between.GrowsBy after others) : before.GrowsBy after (pieces ++ others) := by
  obtain ⟨log, hevents, hreplays⟩ := first
  obtain ⟨more, hmore, hlater⟩ := second
  refine ⟨log ++ more, ?_, Replays.append_pieces hreplays hlater⟩
  rw [hmore, hevents, List.append_assoc]

theorem Adds.growsBy (h : before.Adds after pieces) : before.GrowsBy after pieces := by
  obtain ⟨log, hevents, hlog⟩ := h.logged
  exact ⟨log, hevents, hlog.replays⟩

theorem Extends.grows (h : before.Extends after) : before.Grows after := by
  obtain ⟨pieces, hadds⟩ := h.adds
  exact hadds.growsBy.grows

theorem growsBy_report (ctx : Context input) (diagnostic : Diagnostic) :
    ctx.GrowsBy (ctx.report diagnostic) [.report diagnostic] :=
  ⟨[.report diagnostic], Array.toList_push, replays_report diagnostic⟩

/-- Skipped tokens in an error node. -/
theorem Skips.growsBy {ctx after : Context input} (h : Skips ctx.mark.2 after) :
    ctx.GrowsBy (after.complete ctx.mark.1 .error).2
      [.node .error (tokenPieces ctx.place after.place)] :=
  ⟨_, h.error.2, replays_error ctx.place after.place⟩

theorem skips_advanceMany (count : Nat) : ∀ ctx : Context input,
    Skips ctx (advanceMany ctx count) := by
  induction count with
  | zero => exact fun ctx => .withNextId ctx _
  | succ count ih => exact fun ctx => (Skips.advance ctx).trans (ih ctx.advance)

/-- Inside the input, each step moves on by one. -/
theorem place_advanceMany (count : Nat) : ∀ ctx : Context input, ctx.place + count ≤ input.size →
    (advanceMany ctx count).place = ctx.place + count := by
  induction count with
  | zero => exact fun _ _ => rfl
  | succ count ih =>
    intro ctx hinside
    have hadvance : ctx.advance.place = ctx.place + 1 := by
      unfold advance atEnd
      rw [if_neg (by simp; omega)]
    show (advanceMany ctx.advance count).place = _
    rw [ih _ (by omega)]
    omega

/-- Between the run of the entry and the end of the root, a parse reports a failure,
and puts what is left over in an error node. -/
theorem close_eq_complete (root : Marker) (outcome : Outcome) (ctx : Context input) :
    ∃ last, ctx.GrowsBy last (closingPieces input outcome ctx.place)
      ∧ Parse.close root outcome ctx = (last.complete root .root).2 := by
  -- the tokens that are left over go into one error node, up to the end of the input
  have hleftover : ∀ before : Context input, ¬before.atEnd = true →
      before.GrowsBy ((advanceMany before.mark.2 (input.size - before.mark.2.place)).complete
        before.mark.1 .error).2 [.node .error (tokenPieces before.place input.size)] := by
    intro before hinside
    have hplace := place_lt_size hinside
    have hlast := place_advanceMany (input.size - before.place) before.mark.2
      (show before.place + _ ≤ _ by omega)
    have hgrows := (skips_advanceMany (input.size - before.place) before.mark.2).growsBy
    rw [hlast, show before.mark.2.place + (input.size - before.place) = input.size from
      Nat.add_sub_of_le (Nat.le_of_lt hplace)] at hgrows
    exact hgrows
  have hreport : ctx.GrowsBy
      (if outcome.success then ctx else ctx.report (failureDiagnostic input outcome))
      (if outcome.success then [] else [.report (failureDiagnostic input outcome)]) := by
    split
    · exact .refl ctx
    · exact growsBy_report ctx _
  have hplace : (if outcome.success then ctx
      else ctx.report (failureDiagnostic input outcome)).place = ctx.place := by
    split <;> rfl
  refine ⟨_, hreport.trans ?_, rfl⟩
  generalize (if outcome.success then ctx
    else ctx.report (failureDiagnostic input outcome)) = reported at hplace ⊢
  rw [← hplace]
  by_cases hend : reported.atEnd = true
  · rw [if_pos hend, if_pos (of_decide_eq_true hend)]
    exact .refl reported
  · rw [if_neg hend, if_neg (Nat.not_le_of_lt (place_lt_size hend))]
    cases outcome.success with
    | true => exact (growsBy_report reported _).trans (hleftover _ hend)
    | false => exact hleftover reported hend

/-- The log of a parse: a root around what the run and the parse have logged. -/
theorem close_events {ctx : Context input} (h : (Context.initial input).mark.2.GrowsBy ctx pieces)
    (outcome : Outcome) : ∃ log,
      Replays input log (·.addPieces input (pieces ++ closingPieces input outcome ctx.place))
      ∧ (Parse.close (Context.initial input).mark.1 outcome ctx).events.toList
        = .start (some .root) none :: (log ++ [.finish]) := by
  obtain ⟨last, hlast, hclose⟩ := close_eq_complete (Context.initial input).mark.1 outcome ctx
  obtain ⟨log, hevents, hreplays⟩ := h.trans hlast
  refine ⟨log, hreplays, ?_⟩
  have htag : (tag last.events 0 .root).toList = .start (some .root) none :: log := by
    unfold tag
    rw [Array.toList_modify, hevents]
    rfl
  rw [hclose]
  show ((tag last.events 0 .root).push .finish).toList = _
  rw [Array.toList_push, htag]
  rfl

end Context

-- ==================================================== its replay

/-- The builder that has built a root around pieces. -/
def Builder.ofRoot (input : Input) (pieces : List Piece) : Builder :=
  Builder.initial.addPiece input (.node .root pieces)

/-- Whatever the pieces, the root is closed with all tokens placed. -/
theorem Builder.ofRoot_finished (pieces : List Piece) :
    ∃ tree, (ofRoot input pieces).finished = some tree ∧ tree.Holds input
      ∧ (ofRoot input pieces).openNodes = [] := by
  have hopen : Placed input [.root] (Builder.initial.openNode input .root) :=
    Placed.initial.openNode .root
  obtain ⟨span, children, hfinished, hclosed, hleaves⟩ := (hopen.addPieces pieces).closeLast
  exact ⟨_, hfinished, ⟨⟨span, children, rfl⟩, hleaves⟩, hclosed⟩

/-- The replay of a log that is a root around a log builds the root of its pieces. -/
theorem replay_of_root {events : Array Event} {log : List Event} {pieces : List Piece}
    (hevents : events.toList = .start (some .root) none :: (log ++ [.finish]))
    (hreplays : Replays input log (·.addPieces input pieces)) :
    replay input events
      = ((Builder.ofRoot input pieces).finished.getD (.node .root (Span.point 0) []),
        (Builder.ofRoot input pieces).diagnostics.reverse) := by
  have hroot := (Walks.node hreplays .root none).replays
  obtain ⟨replayed, _, hreplay⟩ := hroot [] [] Builder.initial
  have harray : events = (Event.start (some .root) none :: (log ++ [.finish])).toArray := by
    rw [← hevents]
  have hbuilt : ((List.range events.size).foldl (replayAt input) (events, Builder.initial)).2
      = Builder.ofRoot input pieces := by
    rw [harray, List.range_eq_range', List.size_toArray]
    simp only [List.nil_append, List.append_nil] at hreplay
    exact congrArg Prod.snd hreplay
  obtain ⟨tree, _, _, hclosed⟩ := @Builder.ofRoot_finished input pieces
  have hall : (Builder.ofRoot input pieces).closeAll input = Builder.ofRoot input pieces := by
    unfold Builder.closeAll
    rw [hclosed]
    rfl
  unfold replay
  rw [hbuilt, hall]

/-- Whatever the run of the entry came to, the tree holds the input. -/
theorem holds_ofReply {reply : Outcome × Context input}
    (h : (Context.initial input).mark.2.Grows reply.2) : (ofReply reply).tree.Holds input := by
  obtain ⟨pieces, hgrows⟩ := h.growsBy
  obtain ⟨log, hreplays, hevents⟩ := Context.close_events hgrows reply.1
  obtain ⟨tree, hfinished, hholds, _⟩ := @Builder.ofRoot_finished input
    (pieces ++ closingPieces input reply.1 reply.2.place)
  unfold ofReply
  rw [replay_of_root hevents hreplays, hfinished]
  exact hholds

/-- An entry that is run adds to the log, matched or not. -/
theorem grows_runEntry (rules : RuleTable) (entry : Grammar) (ctx : Context input) :
    ctx.Grows (runEntry rules entry ctx).2 := by
  unfold runEntry
  cases hrun : entry.run rules ctx with
  | none => exact (Context.GrowsBy.refl ctx).grows
  | some reply => exact (Grammar.extends_runWithin rules _ _ _ _ hrun).grows

theorem holds_ofInput (rules : RuleTable) (entry : Grammar) (input : Input) :
    (ofInput rules entry input).tree.Holds input :=
  holds_ofReply (grows_runEntry rules entry _)

-- ========================================================= the text

/-- Leaves that come from tokens have the text of the tokens of the source among
them: virtual tokens have none. -/
theorem join_leaves (source : String) (tokens : List LayoutToken) :
    String.join ((tokens.map LayoutToken.leaf).map
        fun leaf => Text.slice source leaf.span.start leaf.span.stop)
      = String.join ((Layout.content tokens).map (·.text source)) := by
  have hvirtual : ∀ position : Position, Text.slice source (Span.point position.offset).start
      (Span.point position.offset).stop = "" :=
    fun position => Text.slice_self source position.offset
  induction tokens with
  | nil => rfl
  | cons token rest ih =>
    rw [List.map_cons, List.map_cons, String.join_cons, ih]
    cases token with
    | raw token => exact String.join_cons.symm
    | start position | sep position | stop position =>
      show Text.slice source (Span.point position.offset).start
        (Span.point position.offset).stop ++ _ = _
      rw [hvirtual, String.empty_append]
      rfl

/-- A parse loses nothing, whatever the grammar, its rules and the tokens. However
many levels the run of the entry may nest, and whether the entry then succeeds,
fails, recovers or leaves input over, the tree is a root whose leaves are the
tokens, each once and in order; and it is one where the levels do not suffice.
Where the tokens are the layout of a source text, the text of the tree is the
source. -/
theorem tree_lossless (rules : RuleTable) (entry : Grammar) :
    (∀ (input : Input) (levels : Nat) (reply : Outcome × Context input),
      entry.runWithin rules levels (Context.initial input).mark.2 = some reply →
        (ofReply reply).tree.Holds input)
      ∧ (∀ input : Input, (ofInput rules entry input).tree.Holds input)
      ∧ ∀ (source : String) (layout : Layout.Rules),
        (ofInput rules entry (Input.ofTokens source
          (Layout.tokensOf layout (Reading.ofSource source).tokens
            (Reading.ofSource source).eof))).tree.text source = source := by
  refine ⟨?_, holds_ofInput rules entry, ?_⟩
  · intro input levels reply hrun
    exact holds_ofReply (Grammar.extends_runWithin rules levels _ _ _ hrun).grows
  · intro source layout
    obtain ⟨hcovers, _⟩ := Reading.ofSource_covers source
    have hjoin := hcovers.join_text
    rw [String.ofList_toList, List.drop_zero, String.ofList_toList] at hjoin
    unfold Tree.text
    rw [(holds_ofInput rules entry _).2]
    show String.join (((Layout.tokensOf layout _ _).map LayoutToken.leaf).map _) = source
    rw [join_leaves, Layout.content_tokensOf, hjoin]

/-- A name that is missing in front of an equals sign: the run recovers and leaves
the sign over, and the tree holds it. -/
theorem tree_lossless_recovered :
    ∃ (input : Input) (reply : Outcome × Context input), input.tokens.size = 1
      ∧ (Grammar.relax "a name is missing" (.token .lower)).runWithin (fun _ => none) 2
          (Context.initial input).mark.2 = some reply
      ∧ (ofReply reply).tree.Holds input := by
  refine ⟨.ofTokens "=" [.raw ⟨.equals, ⟨1, 1, 0⟩, ⟨1, 2, 1⟩⟩], _, rfl, rfl, ?_⟩
  exact (tree_lossless (fun _ => none) (.relax "a name is missing" (.token .lower))).1 _ 2 _ rfl

end Offside
