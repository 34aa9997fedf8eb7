import Offside.Parse.Context
import Offside.Proofs.Parse.Log

/-!
What a run does to the context.

`Context.Extends` says it once for all runs: the log grows by a log in the
sense of `Log`, from the place before to the place after, and nothing else of
the book changes: what was open is open, what was closed was closed in order.
`Context.Adds` says with it which pieces the log adds to the tree. The lemmas
here say how the operations of a context keep that up. Two of them carry the
rest. Taking a run back leaves the context as it was, but for the number of the
next transaction (`rollback_eq`). And a node that is completed or wrapped around
what a run has logged makes a log again (`Adds.complete`, `Building.wrap`).
-/

namespace Offside.Context

variable {input : Input}

/-- The book is the same: what was open is open, and what was closed since was
closed in order. -/
structure SameBook (before after : Context input) : Prop where
  transactions : after.transactions = before.transactions
  markers : after.markers = before.markers
  inAttempt : after.inAttempt = before.inAttempt
  inOrder : after.inOrder = before.inOrder

theorem SameBook.refl (ctx : Context input) : ctx.SameBook ctx := ⟨rfl, rfl, rfl, rfl⟩

theorem SameBook.trans {before between after : Context input} (first : before.SameBook between)
    (second : between.SameBook after) : before.SameBook after :=
  ⟨second.transactions.trans first.transactions, second.markers.trans first.markers,
    second.inAttempt.trans first.inAttempt, second.inOrder.trans first.inOrder⟩

/-- After a run: the log has grown by what runs log, and no transaction and no
marker is left open. -/
structure Extends (before after : Context input) : Prop extends SameBook before after where
  logged : ∃ log pieces, after.events.toList = before.events.toList ++ log
    ∧ Log input (!before.inAttempt) before.place after.place log pieces

/-- After a run that adds pieces to the tree. -/
structure Adds (before after : Context input) (pieces : List Piece) : Prop
    extends SameBook before after where
  logged : ∃ log, after.events.toList = before.events.toList ++ log
    ∧ Log input (!before.inAttempt) before.place after.place log pieces

section Basics

variable {before between after : Context input} {pieces others : List Piece}

theorem Adds.extends (h : before.Adds after pieces) : before.Extends after := by
  obtain ⟨log, hevents, hlog⟩ := h.logged
  exact ⟨h.toSameBook, log, pieces, hevents, hlog⟩

theorem Extends.adds (h : before.Extends after) : ∃ pieces, before.Adds after pieces := by
  obtain ⟨log, pieces, hevents, hlog⟩ := h.logged
  exact ⟨pieces, h.toSameBook, log, hevents, hlog⟩

theorem Adds.refl (ctx : Context input) : ctx.Adds ctx [] :=
  ⟨.refl ctx, [], (List.append_nil _).symm, .nil _⟩

/-- Pieces that are added in a row are added together. -/
theorem Adds.trans (first : before.Adds between pieces) (second : between.Adds after others) :
    before.Adds after (pieces ++ others) := by
  obtain ⟨log, hevents, hlog⟩ := first.logged
  obtain ⟨more, hmore, hlater⟩ := second.logged
  rw [first.inAttempt] at hlater
  refine ⟨first.toSameBook.trans second.toSameBook, log ++ more, ?_, hlog.append hlater⟩
  rw [hmore, hevents, List.append_assoc]

theorem Extends.place_le (extends_ : before.Extends after) : before.place ≤ after.place := by
  obtain ⟨log, pieces, _, hlog⟩ := extends_.logged
  exact hlog.place_le

theorem Extends.last_le (extends_ : before.Extends after) (hbefore : before.place ≤ input.size) :
    after.place ≤ input.size := by
  obtain ⟨log, pieces, _, hlog⟩ := extends_.logged
  exact hlog.last_le hbefore

/-- The number of the next transaction has no part in what a run does. -/
theorem adds_withNextId (ctx : Context input) (nextId : Nat) :
    ctx.Adds { ctx with nextId := nextId } [] :=
  ⟨⟨rfl, rfl, rfl, rfl⟩, [], (List.append_nil _).symm, .nil _⟩

end Basics

-- =========================================================== the log

theorem adds_advance {ctx : Context input} (hinside : ¬ctx.atEnd = true) :
    ctx.Adds ctx.advance [.token ctx.place] := by
  unfold advance
  rw [if_neg hinside]
  exact ⟨⟨rfl, rfl, rfl, rfl⟩, _, Array.toList_push, .token (place_lt_size hinside)⟩

theorem extends_advance (ctx : Context input) : ctx.Extends ctx.advance := by
  by_cases hend : ctx.atEnd = true
  · unfold advance
    rw [if_pos hend]
    exact (Adds.refl ctx).extends
  · exact (adds_advance hend).extends

/-- Outside an attempt a report is a piece of its own. -/
theorem adds_report {ctx : Context input} {diagnostic : Diagnostic}
    (hrecovers : ctx.inAttempt = false) (reports : ReportsAt input ctx.place diagnostic) :
    ctx.Adds (ctx.report diagnostic) [.report diagnostic] :=
  ⟨⟨rfl, rfl, rfl, rfl⟩, _, Array.toList_push, .report (by rw [hrecovers]; rfl) reports⟩

-- ================================================= taking runs back

section Transactions

variable {ctx after : Context input} {pieces : List Piece}

/-- What a run did in a transaction stands once the transaction is committed. -/
theorem Adds.commit (h : ctx.start.2.Adds after pieces) :
    ctx.Adds (after.commit ctx.start.1) pieces := by
  have hclosed : after.transactions.tail = ctx.transactions := by
    rw [h.transactions]
    rfl
  have horder : (after.inOrder && after.transactions.head? == some ctx.start.1.id)
      = ctx.inOrder := by
    rw [h.transactions, h.inOrder]
    simp [start]
  exact ⟨⟨hclosed, h.markers, h.inAttempt, horder⟩, h.logged⟩

theorem Extends.commit (h : ctx.start.2.Extends after) :
    ctx.Extends (after.commit ctx.start.1) := by
  obtain ⟨pieces, hadds⟩ := h.adds
  exact hadds.commit.extends

/-- A rollback takes everything back that a run did in the transaction. -/
theorem rollback_eq (h : ctx.start.2.Extends after) :
    after.rollback ctx.start.1 = { ctx with nextId := after.nextId } := by
  obtain ⟨log, pieces, hevents, _⟩ := h.logged
  have hcut : after.events.shrink ctx.events.size = ctx.events := by
    apply Array.toList_inj.mp
    rw [Array.toList_shrink, hevents, ← Array.length_toList]
    exact List.take_left
  have hclosed := h.commit
  show Context.mk ctx.place (after.events.shrink ctx.events.size)
    (after.commit ctx.start.1).transactions (after.commit ctx.start.1).markers after.nextId
    (after.commit ctx.start.1).inAttempt (after.commit ctx.start.1).inOrder = _
  rw [hcut, hclosed.transactions, hclosed.markers, hclosed.inAttempt, hclosed.inOrder]

/-- Of what is taken back nothing is left to add. -/
theorem Adds.rollback (h : ctx.start.2.Adds after pieces) :
    ctx.Adds (after.rollback ctx.start.1) [] := by
  rw [rollback_eq h.extends]
  exact adds_withNextId ctx _

/-- What is taken back leaves the context as it was, but for its next number. -/
theorem Extends.rollback (h : ctx.start.2.Extends after) :
    ctx.Extends (after.rollback ctx.start.1) := by
  obtain ⟨pieces, hadds⟩ := h.adds
  exact hadds.rollback.extends

/-- A speculative run logs no more than a run that may recover. -/
theorem Adds.speculative (h : (ctx.setInAttempt true).Adds after pieces) :
    ctx.Adds (after.setInAttempt ctx.inAttempt) pieces := by
  obtain ⟨log, hevents, hlog⟩ := h.logged
  exact ⟨⟨h.transactions, h.markers, rfl, h.inOrder⟩, log, hevents, hlog.speculative⟩

/-- What was added while speculating is added all the same, when speculation is over. -/
theorem Extends.speculative (h : (ctx.setInAttempt true).Extends after) :
    ctx.Extends (after.setInAttempt ctx.inAttempt) := by
  obtain ⟨pieces, hadds⟩ := h.adds
  exact hadds.speculative.extends

end Transactions

-- ============================================================ nodes

/-- The event in the middle of a log changes. -/
theorem modify_middle {α : Type} (front : List α) (middle : α) (back : List α) (f : α → α) :
    (front ++ middle :: back).modify front.length f = front ++ f middle :: back := by
  rw [List.modify_eq_take_cons_drop (by simp)]
  simp

section Nodes

variable {before ctx after : Context input} {pieces others : List Piece}

/-- The log under an open node, of which everything was logged since `before`: the
node is the marker of an opening that has no kind yet, with pieces behind it, or
it was completed, to the one piece that there is, and can be wrapped. -/
def Building (before ctx : Context input) (node : Marker ⊕ CompletedMarker)
    (pieces : List Piece) : Prop :=
  ctx.transactions = before.transactions ∧ ctx.inAttempt = before.inAttempt
    ∧ ctx.inOrder = before.inOrder
    ∧ match node with
      | .inl marker =>
        marker.index = before.events.size ∧ ctx.markers = marker.index :: before.markers
          ∧ ∃ log, ctx.events.toList = before.events.toList ++ .blank :: log
            ∧ Log input (!before.inAttempt) before.place ctx.place log pieces
      | .inr done =>
        ctx.markers = before.markers
          ∧ ∃ front kind back piece, pieces = [piece]
            ∧ ctx.events.toList = before.events.toList ++ (front ++ .start (some kind) none :: back)
            ∧ done.index = before.events.size + front.length
            ∧ Chain input (!before.inAttempt) before.place ctx.place front kind back piece

theorem building_mark (ctx : Context input) : ctx.Building ctx.mark.2 (.inl ctx.mark.1) [] :=
  ⟨rfl, rfl, rfl, rfl, rfl, [], Array.toList_push, .nil _⟩

/-- What is open stays open while a run adds to the log. -/
theorem Building.extend {marker : Marker} (h : Building before ctx (.inl marker) pieces)
    (run : ctx.Adds after others) : Building before after (.inl marker) (pieces ++ others) := by
  obtain ⟨htransactions, hattempt, horder, hindex, hmarkers, log, hevents, hlog⟩ := h
  obtain ⟨more, hmore, hlater⟩ := run.logged
  rw [hattempt] at hlater
  refine ⟨run.transactions.trans htransactions, run.inAttempt.trans hattempt,
    run.inOrder.trans horder, hindex, run.markers.trans hmarkers, log ++ more, ?_,
    hlog.append hlater⟩
  rw [hmore, hevents, List.append_assoc]
  rfl

/-- A marker that is given up leaves what was logged behind it. -/
theorem Building.abandon {marker : Marker} (h : Building before ctx (.inl marker) pieces) :
    before.Adds (ctx.abandon marker) pieces := by
  obtain ⟨htransactions, hattempt, horder, hindex, hmarkers, log, hevents, hlog⟩ := h
  have herase : (ctx.abandon marker).markers = before.markers := by
    show ctx.markers.erase marker.index = _
    rw [hmarkers, List.erase_cons_head]
  have hlength : ctx.events.size = before.events.size + (log.length + 1) := by
    rw [← Array.length_toList, hevents, List.length_append, Array.length_toList, List.length_cons]
  refine ⟨⟨htransactions, herase, hattempt, horder⟩, ?_⟩
  unfold Context.abandon
  dsimp only
  split
  case isTrue hlast =>
    have hnil : log = [] := List.eq_nil_of_length_eq_zero (by omega)
    rw [hnil] at hevents
    refine ⟨log, ?_, hlog⟩
    rw [Array.toList_pop, hevents, List.dropLast_concat, hnil, List.append_nil]
  case isFalse => exact ⟨.blank :: log, hevents, (Log.blank _).append hlog⟩

/-- A node that is completed, as the innermost wrapper so far. -/
theorem Building.complete {marker : Marker} (h : Building before ctx (.inl marker) pieces)
    (kind : NodeKind) :
    Building before (ctx.complete marker kind).2 (.inr (ctx.complete marker kind).1)
      [.node kind pieces] := by
  obtain ⟨htransactions, hattempt, horder, hindex, hmarkers, log, hevents, hlog⟩ := h
  have herase : (ctx.complete marker kind).2.markers = before.markers := by
    show ctx.markers.erase marker.index = _
    rw [hmarkers, List.erase_cons_head]
  have htag : (tag ctx.events marker.index kind).toList
      = before.events.toList ++ .start (some kind) none :: log := by
    unfold tag
    rw [Array.toList_modify, hevents, hindex, ← Array.length_toList, modify_middle]
    rfl
  refine ⟨htransactions, hattempt, horder, herase, [], kind, log ++ [Event.finish],
    .node kind pieces, rfl, ?_, hindex, .node kind hlog⟩
  show ((tag ctx.events marker.index kind).push .finish).toList = _
  rw [Array.toList_push, htag]
  simp

/-- A completed node is part of the log. -/
theorem Building.adds {done : CompletedMarker} (h : Building before ctx (.inr done) pieces) :
    before.Adds ctx pieces := by
  obtain ⟨htransactions, hattempt, horder, hmarkers, front, kind, back, piece, rfl, hevents, _,
    chain⟩ := h
  exact ⟨⟨htransactions, hmarkers, hattempt, horder⟩, _, hevents, .node chain⟩

/-- Wrapping a node, once more or for the first time, with everything that a run
has logged since. -/
theorem Building.wrap {node : Marker ⊕ CompletedMarker} (h : Building before ctx node pieces)
    (run : ctx.Adds after others) (kind : NodeKind) :
    Building before (after.wrap node kind).2 (.inr (after.wrap node kind).1)
      [.node kind (pieces ++ others)] := by
  cases node with
  | inl marker => exact (h.extend run).complete kind
  | inr done =>
    obtain ⟨htransactions, hattempt, horder, hmarkers, front, inner, back, piece, rfl, hevents,
      hindex, chain⟩ := h
    obtain ⟨log, hlogged, hlog⟩ := run.logged
    rw [hattempt] at hlog
    have hafter : after.events.toList = (before.events.toList ++ front)
        ++ .start (some inner) none :: (back ++ log) := by
      rw [hlogged, hevents]
      simp
    have hsize : after.events.size
        = before.events.size + front.length + (back.length + log.length + 1) := by
      rw [← Array.length_toList, hafter]
      simp
      omega
    -- the note that is put at the opening says how far on the opening of the wrapper is
    have hdistance : after.events.size - done.index = back.length + log.length + 1 := by
      omega
    have hlinked : (after.precede done).2.events.toList
        = (before.events.toList ++ (front ++ .start (some inner)
          (some (back.length + log.length + 1)) :: (back ++ log))) ++ .blank :: [] := by
      show (link (after.events.push .blank) done.index (after.events.size - done.index)).toList = _
      have hfront : done.index = (before.events.toList ++ front).length := by
        rw [List.length_append, Array.length_toList, hindex]
      unfold link
      rw [Array.toList_modify, Array.toList_push, hafter, List.append_assoc, List.cons_append,
        hdistance, hfront, modify_middle]
      simp
    have hwrapper : (after.precede done).1.index
        = (before.events.toList ++ (front ++ .start (some inner)
          (some (back.length + log.length + 1)) :: (back ++ log))).length := by
      show after.events.size = _
      rw [hsize]
      simp
      omega
    refine ⟨run.transactions.trans htransactions, run.inAttempt.trans hattempt,
      run.inOrder.trans horder, ?_, _, kind, [.finish], _, rfl, ?_, ?_,
      .wrap kind chain hlog⟩
    · show ((after.precede done).2.markers.erase (after.precede done).1.index) = _
      show ((after.precede done).1.index :: after.markers).erase (after.precede done).1.index = _
      rw [List.erase_cons_head, run.markers, hmarkers]
    · show ((tag (after.precede done).2.events (after.precede done).1.index kind).push
        .finish).toList = _
      unfold tag
      rw [Array.toList_push, Array.toList_modify, hlinked, hwrapper, modify_middle]
      simp [Event.blank]
    · show (after.precede done).1.index = _
      rw [hwrapper, List.length_append, Array.length_toList]

/-- A run under a marker of its own, completed to a node. -/
theorem Adds.complete (h : ctx.mark.2.Adds after pieces) (kind : NodeKind) :
    ctx.Adds (after.complete ctx.mark.1 kind).2 [.node kind pieces] :=
  (((building_mark ctx).extend h).complete kind).adds

/-- A run under a marker of its own, given up. -/
theorem Adds.abandon (h : ctx.mark.2.Adds after pieces) :
    ctx.Adds (after.abandon ctx.mark.1) pieces :=
  ((building_mark ctx).extend h).abandon

end Nodes

-- =========================================================== skipping

/-- Skipping consumes tokens, and does nothing else. -/
structure Skips (before after : Context input) : Prop extends SameBook before after where
  events : after.events.toList
    = before.events.toList ++ tokenEvents before.place after.place
  onward : before.place ≤ after.place
  inside : before.place ≤ input.size → after.place ≤ input.size

namespace Skips

variable {before between after : Context input}

/-- The number of the next transaction has no part in it. -/
theorem withNextId (ctx : Context input) (nextId : Nat) :
    Skips ctx { ctx with nextId := nextId } :=
  ⟨⟨rfl, rfl, rfl, rfl⟩, by rw [tokenEvents_self, List.append_nil], Nat.le_refl _, id⟩

theorem trans (first : Skips before between) (second : Skips between after) :
    Skips before after := by
  refine ⟨first.toSameBook.trans second.toSameBook, ?_,
    Nat.le_trans first.onward second.onward, second.inside ∘ first.inside⟩
  rw [second.events, first.events, List.append_assoc,
    tokenEvents_append first.onward second.onward]

/-- Advancing skips the token of the place, if there is one. -/
theorem advance (ctx : Context input) : Skips ctx ctx.advance := by
  unfold Context.advance
  split
  case isTrue => exact withNextId ctx _
  case isFalse hinside =>
    refine ⟨⟨rfl, rfl, rfl, rfl⟩, ?_, Nat.le_succ _, fun _ => place_lt_size hinside⟩
    rw [tokenEvents_succ (Nat.lt_succ_self _), tokenEvents_self]
    exact Array.toList_push

/-- Skipping blocks is advancing, token by token. -/
theorem skipBlocks (ctx : Context input) (depth : Nat) : Skips ctx (ctx.skipBlocks depth) := by
  fun_induction Context.skipBlocks ctx depth with
  | case1 => exact withNextId _ _
  | case2 => exact withNextId _ _
  | case3 => exact advance _
  | case4 ctx depth hinside depth' hkind hdepth ih => exact (advance ctx).trans ih

/-- A tree is skipped as a block, or as a single token. -/
theorem skipTokenTree (ctx : Context input) : Skips ctx ctx.skipTokenTree.2 := by
  unfold Context.skipTokenTree
  split
  · exact withNextId ctx _
  · exact skipBlocks ctx 0

end Skips

/-- Skipped tokens, put in an error node. -/
theorem Skips.error {ctx after : Context input} (h : Skips ctx.mark.2 after) :
    ctx.SameBook (after.complete ctx.mark.1 .error).2
      ∧ (after.complete ctx.mark.1 .error).2.events.toList = ctx.events.toList
        ++ (.start (some .error) none :: tokenEvents ctx.place after.place ++ [.finish]) := by
  have hindex : ctx.mark.1.index = ctx.events.toList.length := Array.length_toList.symm
  have htag : (tag after.events ctx.mark.1.index .error).toList = ctx.events.toList
      ++ .start (some .error) none :: tokenEvents ctx.place after.place := by
    unfold tag
    rw [Array.toList_modify, h.events, hindex,
      show ctx.mark.2.events.toList = ctx.events.toList ++ [.blank] from Array.toList_push,
      List.append_assoc, List.singleton_append, modify_middle]
    rfl
  have herase : after.markers.erase ctx.mark.1.index = ctx.markers := by
    rw [h.markers]
    show (ctx.mark.1.index :: ctx.markers).erase ctx.mark.1.index = _
    rw [List.erase_cons_head]
  refine ⟨⟨h.transactions, herase, h.inAttempt, h.inOrder⟩, ?_⟩
  show ((tag after.events ctx.mark.1.index .error).push .finish).toList = _
  rw [Array.toList_push, htag, List.append_assoc]

/-- Skipped tokens, put in an error node and reported. -/
theorem Skips.reported {ctx after : Context input} (h : Skips ctx.mark.2 after) (message : String) :
    let last := (after.complete ctx.mark.1 .error).2
    let reported := last.report (.skipped (last.spanBetween ctx.place last.place) message)
    ctx.SameBook reported ∧ reported.events.toList = ctx.events.toList
      ++ (.start (some .error) none :: tokenEvents ctx.place after.place
        ++ [.finish, .report (skippedReport input ctx.place after.place message)]) := by
  obtain ⟨hbook, hevents⟩ := h.error
  refine ⟨⟨hbook.transactions, hbook.markers, hbook.inAttempt, hbook.inOrder⟩, ?_⟩
  show ((after.complete ctx.mark.1 .error).2.events.push (.report _)).toList = _
  rw [Array.toList_push, hevents]
  simp
  rfl

end Offside.Context
