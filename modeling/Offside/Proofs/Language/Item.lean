import Offside.Language.Names
import Offside.Proofs.Parse.Cases

/-!
Items of a block.

Where an item may start, it either matches up to the end of an item, or is skipped
up to there (`item_exact`). Either way the stretch is made of whole trees with no
separator at their roots, so that it cannot lead past the end of the block.

`ItemsLog` says what items leave in the log: of each either what the run of the
item alone logs, or one error node over all its tokens with one report.
-/

namespace Offside

variable {input : Input} {rules : RuleTable} {levels : Nat} {ctx after : Context input}
  {outcome : Outcome}

namespace Language

open Grammar Form Context

/-- An item, and the check that it ends where an item has to. -/
def completeItem (item : Grammar) : Grammar := item + .lookahead atItemEnd .succeed

/-- An item, or what is skipped in its place. -/
def recoveringItem (item : Grammar) (what : String) : Grammar :=
  .lookahead mayStartItem (.relaxTo ("malformed " ++ what) (completeItem item) itemSync)

theorem items_eq (item : Grammar) (what : String) :
    items item what = .seq [recoveringItem item what,
      .many (.heal (.seq [.token .layoutSep, recoveringItem item what])) 0] := rfl

theorem block_eq (item : Grammar) (what : String) :
    block item what = .relax ("missing " ++ what) (.seq [.token .layoutStart,
      .relax ("missing " ++ what) (items item what), .token .layoutEnd]) := rfl

/-- A place where an item ends: at a separator, or at the end of a block. -/
def EndsItem (input : Input) (place : Nat) : Prop :=
  input.size ≤ place ∨ input.kindAt place = .layoutSep ∨ input.kindAt place = .layoutEnd

/-- The check for the end of an item holds at the ends of items only. -/
theorem endsItem_of_atItemEnd {place : Nat} {inAttempt : Bool}
    (h : atItemEnd ⟨input, place, inAttempt⟩ = true) : EndsItem input place := by
  unfold atItemEnd View.atEnd View.isAt View.kind at h
  rcases Bool.or_eq_true_iff.mp h with h | h
  · rcases Bool.or_eq_true_iff.mp h with h | h
    · exact .inl (of_decide_eq_true h)
    · exact .inr (.inl (eq_of_beq h))
  · exact .inr (.inr (eq_of_beq h))

/-- The last part of a sequence matches up to where the sequence does. -/
theorem matches_last {parts : List Grammar} {part : Grammar} {first last : Nat}
    (h : Matches rules input (.seq (parts ++ [part])) first last) :
    ∃ place, Matches rules input part place last := by
  induction parts generalizing first with
  | nil =>
    cases h with
    | seqCons hpart hrest =>
      cases hrest
      exact ⟨first, hpart⟩
  | cons head rest ih =>
    cases h with
    | seqCons _ hrest => exact ih hrest

/-- A complete item ends where an item has to. -/
theorem endsItem_of_matches {item : Grammar} {first last : Nat}
    (h : Matches rules input (completeItem item) first last) : EndsItem input last := by
  have hcheck : ∃ place, Matches rules input (.lookahead atItemEnd .succeed) place last := by
    change Matches rules input (Grammar.sequence [item, .lookahead atItemEnd .succeed]) first last
      at h
    unfold Grammar.sequence at h
    rw [show [item, .lookahead atItemEnd .succeed].flatMap parts
      = item.parts ++ [.lookahead atItemEnd .succeed] from rfl] at h
    split at h
    case h_1 single hsingle =>
      have hlast := congrArg List.getLast? hsingle
      rw [List.getLast?_concat] at hlast
      cases hlast
      exact ⟨first, h⟩
    case h_2 => exact matches_last h
  obtain ⟨place, hcheck⟩ := hcheck
  cases hcheck with
  | lookahead hholds hsucceed =>
    cases hsucceed
    exact endsItem_of_atItemEnd hholds

/-- Skipping stops where an item ends. -/
theorem endsItem_of_stopsAt {place : Nat}
    (h : StopsAt (runWithin rules levels : Runner input) itemSync place) :
    EndsItem input place := by
  rcases h with h | h | ⟨ctx, after, rfl, hmatches⟩
  · exact .inl h
  · exact .inr (.inr h)
  · unfold syncMatches at hmatches
    dsimp only at hmatches
    obtain ⟨outcome, last, htrial, hmatches⟩ := reply_bind hmatches
    have hsuccess := (Prod.mk.inj (Option.some.inj hmatches)).1
    have hmatch := matches_runWithin rules levels _ _ _ _ htrial hsuccess
    cases hmatch with
    | choice hmem halternative =>
      rcases List.mem_pair.mp hmem with rfl | rfl
      · exact .inr (.inl halternative.kindAt_eq)
      · exact .inr (.inr halternative.kindAt_eq)

/-- Where skipping goes on, no separator stands. -/
theorem noSeparator_of_syncMatches
    (h : syncMatches (runWithin rules levels) itemSync ctx = some (false, after)) :
    noSeparator ctx.kind = true := by
  apply bne_iff_ne.mpr
  intro hsep
  unfold syncMatches at h
  dsimp only at h
  obtain ⟨outcome, last, htrial, h⟩ := reply_bind h
  obtain ⟨below, htrial⟩ := runLevel_of_runWithin htrial
  change choose _ none [.token .layoutSep, .token .layoutEnd] _ = _ at htrial
  unfold choose at htrial
  dsimp only at htrial
  obtain ⟨step, between, htoken, htrial⟩ := reply_bind htrial
  obtain ⟨hsuccess, _⟩ := run_token htoken hsep (by decide)
  rw [hsuccess] at htrial
  cases htrial
  have hmatched : step.success = false := (Prod.mk.inj (Option.some.inj h)).1
  rw [hsuccess] at hmatched
  cases hmatched

/-- What an item leaves in the log: what a run of the item logs that matches all of
it, or an error node over all its tokens with one report. -/
inductive ItemLog (rules : RuleTable) (input : Input) (item : Grammar) (message : String) :
    (first last : Nat) → List Event → Prop
  | parsed {levels : Nat} {ctx after : Context input} {outcome : Outcome} {log : List Event}
      (hrecovers : ctx.inAttempt = false)
      (hrun : runWithin rules levels item ctx = some (outcome, after))
      (hsuccess : outcome.success = true)
      (hlog : after.events.toList = ctx.events.toList ++ log) :
      ItemLog rules input item message ctx.place after.place log
  | skipped (first last : Nat) :
      ItemLog rules input item message first last
        (.start (some .error) none :: tokenEvents first last
          ++ [.finish, .report (skippedReport input first last message)])

/-- What items with separators between them leave in the log. No separator stands
at the roots of an item. -/
inductive ItemsLog (rules : RuleTable) (input : Input) (item : Grammar) (message : String) :
    (first last : Nat) → List Event → Prop
  | single {first last : Nat} {log : List Event} (nonempty : first < last)
      (trees : input.Trees noSeparator first last)
      (hitem : ItemLog rules input item message first last log) :
      ItemsLog rules input item message first last log
  | cons {first sep last : Nat} {log more : List Event} (nonempty : first < sep)
      (trees : input.Trees noSeparator first sep)
      (hitem : ItemLog rules input item message first sep log)
      (hsep : input.kindAt sep = .layoutSep)
      (rest : ItemsLog rules input item message (sep + 1) last more) :
      ItemsLog rules input item message first last (log ++ .token sep :: more)

section Weaken

variable {item whole : Grammar} {message : String} {first last : Nat} {log : List Event}

/-- A log of items is one of other items, if a log of an item is. -/
theorem ItemsLog.weaken (h : ItemsLog rules input whole message first last log)
    (hitem : ∀ {first last : Nat} {log : List Event},
      ItemLog rules input whole message first last log →
        ItemLog rules input item message first last log) :
    ItemsLog rules input item message first last log := by
  induction h with
  | single nonempty trees hlog => exact .single nonempty trees (hitem hlog)
  | cons nonempty trees hlog hsep _ ih => exact .cons nonempty trees (hitem hlog) hsep ih

/-- The check at the end of an item leaves nothing in the log. -/
theorem ItemLog.ofComplete (hitem : completeItem item = .seq [item, .lookahead atItemEnd .succeed])
    (h : ItemLog rules input (completeItem item) message first last log) :
    ItemLog rules input item message first last log := by
  cases h with
  | skipped => exact .skipped first last
  | @parsed levels ctx after outcome _ hrecovers hrun hsuccess hlog =>
    rw [hitem] at hrun
    obtain ⟨below, hrun⟩ := runLevel_of_runWithin hrun
    obtain ⟨step, between, hstep, hmatched, hrun⟩ := seq_matched hrun hsuccess
    obtain ⟨check, checked, hcheck, hholds, hnil⟩ := seq_matched hrun hsuccess
    cases hnil
    obtain ⟨inner, hcheck⟩ := runLevel_of_runWithin hcheck
    change Form.lookahead _ _ _ _ _ = _ at hcheck
    unfold Form.lookahead at hcheck
    split at hcheck
    case isFalse =>
      cases hcheck
      cases hholds
    case isTrue =>
      obtain ⟨_, hcheck⟩ := runLevel_of_runWithin hcheck
      cases hcheck
      exact .parsed hrecovers hstep hmatched hlog

end Weaken

/-- From one context to another there is an item: of whole trees without a
separator, up to where an item ends. -/
structure ItemBetween (rules : RuleTable) (item : Grammar) (message : String)
    (before after : Context input) : Prop where
  progress : before.place < after.place
  trees : input.Trees noSeparator before.place after.place
  ends : EndsItem input after.place
  logged : ∃ log, after.events.toList = before.events.toList ++ log
    ∧ ItemLog rules input item message before.place after.place log

section Exact

variable {item : Grammar} {what : String} (hlaid : input.Laid)
  (hrules : ∀ rule body, rules rule = some body → body.takesTrees noSeparator = true)
  (hitem : (completeItem item).takesTrees noSeparator = true)

include hlaid hrules hitem

/-- Where an item may start there is an item, however malformed. -/
theorem item_exact
    (h : runWithin rules levels (recoveringItem item what) ctx = some (outcome, after))
    (hrecovers : ctx.inAttempt = false) (hstart : ¬EndsItem input ctx.place) :
    outcome.success = true
      ∧ ItemBetween rules (completeItem item) ("malformed " ++ what) ctx after := by
  have hinside : ctx.place < input.size := Nat.lt_of_not_le fun hle => hstart (.inl hle)
  have hsep : ctx.kind ≠ .layoutSep := fun hkind => hstart (.inr (.inl hkind))
  have hstop : ctx.kind ≠ .layoutEnd := fun hkind => hstart (.inr (.inr hkind))
  obtain ⟨below, h⟩ := runLevel_of_runWithin h
  change Form.lookahead _ _ _ _ _ = _ at h
  have hmay : mayStartItem ctx.view = true := by
    unfold mayStartItem View.isAt View.atEnd
    rw [show ctx.view.kind = ctx.kind from rfl, beq_false_of_ne hstop]
    exact Bool.not_eq_true' _ ▸ decide_eq_false (Nat.not_le_of_lt hinside)
  unfold Form.lookahead at h
  rw [if_pos hmay] at h
  obtain ⟨inner, h⟩ := runLevel_of_runWithin h
  have hextending : Extending (runWithin rules inner : Runner input) :=
    extends_runWithin rules inner
  rcases orRecover_cases hextending hrecovers h with
    ⟨between, hchild, hsuccess, rfl⟩ | ⟨_, _, nextId, _, _, hskip⟩
  · -- an item that parses is made of whole trees, and stands before what ends it
    have hmatch : Matches rules input (completeItem item) ctx.place between.place :=
      (matches_runWithin rules inner _ _ _ _ hchild hsuccess :)
    have htrees := hmatch.trees hlaid hrules hitem
    have hends := endsItem_of_matches hmatch
    obtain ⟨log, _, hevents, _⟩ := (hextending _ _ _ hchild).logged
    have hstarted : ctx.start.2.inAttempt = false := hrecovers
    refine ⟨hsuccess, Nat.lt_of_le_of_ne htrees.first_le fun heq => ?_, htrees, hends, log, hevents,
      (ItemLog.parsed hstarted hchild hsuccess hevents :)⟩
    -- had it consumed nothing, the place where it may start would be an end of items
    exact hstart (heq ▸ hends)
  · obtain ⟨houtcome, hcases⟩ := skipMalformed_cases hextending hskip
    have hsuccess := congrArg Outcome.success houtcome
    rcases hcases with ⟨hnothing, _⟩ | ⟨_, _, _, last, hskipTo, hskips, hplace, hevents⟩
    · rcases Bool.or_eq_true_iff.mp hnothing with hend | hend
      · exact absurd (.inl (of_decide_eq_true hend)) hstart
      · exact absurd (eq_of_beq hend) hstop
    · -- else trees are skipped: a first one, and those up to where skipping stops
      have hroot : noSeparator ctx.kind = true := bne_iff_ne.mpr hsep
      have hskipTree : ∀ start : Context input, start.place = ctx.place →
          input.Trees noSeparator ctx.place start.skipTokenTree.2.place
            ∧ ctx.place < start.skipTokenTree.2.place := by
        intro start hplace
        have hkind : start.kind = ctx.kind := congrArg input.kindAt hplace
        rw [← hplace]
        exact trees_skipTokenTree hlaid (hplace ▸ hinside) (hkind ▸ hstop) (hkind ▸ hroot)
      obtain ⟨hfirst, hprogress⟩ := hskipTree (Context.mark { ctx with nextId := nextId }).2 rfl
      obtain ⟨hrest, hstops⟩ := trees_skipTo hlaid
        (fun _ _ hmatches => noSeparator_of_syncMatches hmatches) _ _ hskipTo
      refine ⟨hsuccess, ?_, ?_, ?_, _, hevents, ?_⟩
      · rw [hplace]
        exact Nat.lt_of_lt_of_le hprogress hrest.first_le
      · rw [hplace]
        exact hfirst.append hrest
      · rw [hplace]
        exact endsItem_of_stopsAt hstops
      · rw [hplace]
        exact .skipped ctx.place last.place

end Exact

end Language

end Offside
