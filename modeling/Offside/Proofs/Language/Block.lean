import Offside.Proofs.Language.Item

/-!
Blocks recover exactly.

A block that starts at a start token is matched up to the end that closes it,
whatever stands inside. Items with separators between them lead from one
separator to the next, and to the end of the block (`items_exact`), where the
block is closed (`block_exact`).
-/

namespace Offside.Language

open Grammar Form Context

variable {input : Input} {rules : RuleTable} {levels : Nat} {ctx after : Context input}
  {outcome : Outcome}

/-- What stands behind the start of a block: at once its end, or an item. -/
theorem start_cases (hlaid : input.Laid) {start stop : Nat} (hcloses : input.Closes start stop) :
    start + 1 = stop ∨ ¬EndsItem input (start + 1) := by
  by_cases hempty : start + 1 = stop
  · exact .inl hempty
  · refine .inr ?_
    rintro (hend | hsep | hclose)
    · have hinside := Input.lt_size_of_kindAt
        (show input.kindAt stop ≠ .eof by rw [hcloses.stop_kind]; exact nofun)
      have hle := hcloses.body.first_le
      omega
    · exact hlaid.start_next start hcloses.start_kind hsep
    · exact hempty
        ((Input.Trees.nil anyRoot _).stop_unique hclose hcloses.body hcloses.stop_kind)

section Exact

variable {item : Grammar} {what : String} (hlaid : input.Laid)
  (hrules : ∀ rule body, rules rule = some body → body.takesTrees noSeparator = true)
  (hitem : (completeItem item).takesTrees noSeparator = true)

include hlaid hrules hitem

/-- Behind a separator there is an item. -/
theorem separated_exact
    (h : runWithin rules levels (.heal (.seq [.token .layoutSep, recoveringItem item what])) ctx
      = some (outcome, after))
    (hrecovers : ctx.inAttempt = false) (hsep : input.kindAt ctx.place = .layoutSep) :
    outcome.success = true ∧ ∃ start : Context input, start.place = ctx.place + 1
      ∧ start.events.toList = ctx.events.toList ++ [.token ctx.place]
      ∧ ItemBetween rules (completeItem item) ("malformed " ++ what) start after := by
  have hinside : ctx.place < input.size := Input.lt_size_of_kindAt (by rw [hsep]; exact nofun)
  have hplace : ctx.start.2.advance.place = ctx.place + 1 := place_advance hinside
  -- behind a separator stands a token of the source, which ends no item
  have hnext : ¬EndsItem input ctx.start.2.advance.place := by
    have hwritten := hlaid.sep_next ctx.place hsep
    rw [hplace]
    rintro (hend | hkind | hkind)
    · refine absurd (Input.lt_size_of_kindAt fun heof => ?_) (Nat.not_lt_of_le hend)
      rw [heof] at hwritten
      cases hwritten
    · rw [hkind] at hwritten
      cases hwritten
    · rw [hkind] at hwritten
      cases hwritten
  have hattempt : ctx.start.2.advance.inAttempt = false :=
    (extends_advance ctx.start.2).inAttempt.trans hrecovers
  obtain ⟨below, h⟩ := runLevel_of_runWithin h
  change Form.heal _ _ _ _ = _ at h
  unfold Form.heal at h
  rw [show ctx.kind = .layoutSep from hsep] at h
  have h : whole (runWithin rules below) _ _ ctx = some (outcome, after) := h
  obtain ⟨step, between, hchild, hstep⟩ := whole_cases h
  obtain ⟨inner, hchild⟩ := runLevel_of_runWithin hchild
  obtain ⟨first, opened, htoken, hrest⟩ := seq_next hchild
  obtain ⟨hmatched, rfl⟩ := run_token htoken hsep nofun
  obtain ⟨second, last, hrun, hnil⟩ := seq_next (hrest hmatched)
  obtain ⟨hsuccess, hbetween⟩ := item_exact hlaid hrules hitem hrun hattempt hnext
  cases hnil hsuccess
  rw [Outcome.success_merge] at hstep
  rcases hstep with ⟨_, rfl, rfl⟩ | ⟨hfailed, _⟩
  case inr =>
    rw [hsuccess] at hfailed
    cases hfailed
  refine ⟨by rw [Outcome.success_merge]; exact hsuccess, ctx.start.2.advance, hplace,
    events_advance hinside, ?_⟩
  exact ⟨hbetween.progress, hbetween.trees, hbetween.ends, hbetween.logged⟩

omit hlaid hrules hitem in
/-- At the end of a block no separated item starts. -/
theorem separated_atEnd
    (h : runWithin rules levels (.heal (.seq [.token .layoutSep, recoveringItem item what])) ctx
      = some (outcome, after))
    (hstop : input.kindAt ctx.place = .layoutEnd) : outcome.success = false ∧ after = ctx := by
  obtain ⟨below, h⟩ := runLevel_of_runWithin h
  change Form.heal _ _ _ _ = _ at h
  unfold Form.heal at h
  rw [show ctx.kind = .layoutEnd from hstop] at h
  have h : some (Outcome.failed ctx.place _, ctx) = some (outcome, after) := h
  cases h
  exact ⟨rfl, rfl⟩

/-- At the end of an item there is a separator with an item behind it, or the end of
the block. -/
theorem separated_cases
    (h : runWithin rules levels (.heal (.seq [.token .layoutSep, recoveringItem item what])) ctx
      = some (outcome, after))
    (hrecovers : ctx.inAttempt = false) (hinside : ctx.place < input.size)
    (ends : EndsItem input ctx.place) :
    (input.kindAt ctx.place = .layoutSep ∧ outcome.success = true
      ∧ ∃ start : Context input, start.place = ctx.place + 1
        ∧ start.events.toList = ctx.events.toList ++ [.token ctx.place]
        ∧ ItemBetween rules (completeItem item) ("malformed " ++ what) start after)
      ∨ (input.kindAt ctx.place = .layoutEnd ∧ outcome.success = false ∧ after = ctx) := by
  rcases ends with hend | hsep | hclose
  · exact absurd hinside (Nat.not_lt_of_le hend)
  · exact .inl ⟨hsep, separated_exact hlaid hrules hitem h hrecovers hsep⟩
  · exact .inr ⟨hclose, separated_atEnd h hclose⟩

/-- Separated items lead up to the end of the block. -/
theorem moreItems_exact {self : Grammar} {stop : Nat} (hstop : input.kindAt stop = .layoutEnd)
    (count : Nat) (sofar : Outcome) (ctx : Context input) (hrecovers : ctx.inAttempt = false)
    (h : repeatFrom (runWithin rules levels) self
      (.heal (.seq [.token .layoutSep, recoveringItem item what])) 0 count sofar ctx
        = some (outcome, after))
    {first : Nat} {front : List Event} (nonempty : first < ctx.place)
    (trees : input.Trees noSeparator first ctx.place) (ends : EndsItem input ctx.place)
    (hfront : ItemLog rules input (completeItem item) ("malformed " ++ what) first ctx.place front)
    (behind : input.Trees anyRoot ctx.place stop) :
    outcome.success = true ∧ after.place = stop
      ∧ ∃ log, after.events.toList = ctx.events.toList ++ log
        ∧ ItemsLog rules input (completeItem item) ("malformed " ++ what) first stop
          (front ++ log) := by
  have hextending : Extending (runWithin rules levels : Runner input) :=
    extends_runWithin rules levels
  fun_induction repeatFrom (runWithin rules levels) self
    (.heal (.seq [.token .layoutSep, recoveringItem item what])) 0 count sofar ctx
    generalizing first front with
  | case1 count sofar ctx hend =>
    -- the end of the block is still ahead
    have hlt := Input.lt_size_of_stop hstop
    have hle := behind.first_le
    have hsize : input.size ≤ ctx.place := of_decide_eq_true hend
    omega
  | case2 => cases h
  | case3 count sofar ctx hinside place transaction opened hopen step between hstep hmatched
      hprogress ih =>
    cases hopen
    have hlt := place_lt_size hinside
    rcases separated_cases hlaid hrules hitem hstep hrecovers hlt ends with
      ⟨hsep, _, start, hplace, hevents, hbetween⟩ | ⟨_, hfailed, _⟩
    · have hseparator : input.Trees anyRoot ctx.place (ctx.place + 1) :=
        .single rfl hlt (by rw [show input.kindAt ctx.place = .layoutSep from hsep]; rfl)
      have hrest : input.Trees anyRoot start.place stop := by
        rw [hplace]
        exact hseparator.rest_of_stop behind hstop
      obtain ⟨inner, hinner, hlog⟩ := hbetween.logged
      have hcommit : ctx.Extends (between.commit ctx.start.1) := (hextending _ _ _ hstep).commit
      obtain ⟨hsuccess, hlast, log, hmore, hitems⟩ := ih (hcommit.inAttempt.trans hrecovers) h
        hbetween.progress hbetween.trees hbetween.ends hlog
        (hbetween.trees.rest_of_stop hrest hstop)
      refine ⟨hsuccess, hlast, .token ctx.place :: (inner ++ log), hmore.trans ?_,
        .cons nonempty trees hfront hsep (hplace ▸ hitems)⟩
      show between.events.toList ++ log = _
      rw [hinner, hevents]
      simp
    · rw [hmatched] at hfailed
      cases hfailed
  | case4 count sofar ctx hinside place transaction opened hopen step between hstep hmatched
      hstuck =>
    cases hopen
    rcases separated_cases hlaid hrules hitem hstep hrecovers (place_lt_size hinside) ends with
      ⟨_, _, start, hplace, _, hbetween⟩ | ⟨_, hfailed, _⟩
    · have hlt := hbetween.progress
      rw [hplace] at hlt
      exact absurd (Nat.lt_of_succ_lt hlt) hstuck
    · rw [hmatched] at hfailed
      cases hfailed
  | case5 count sofar ctx hinside place transaction opened hopen step between hstep hfailed
      hprogress =>
    cases hopen
    rcases separated_cases hlaid hrules hitem hstep hrecovers (place_lt_size hinside) ends with
      ⟨_, hsuccess, _⟩ | ⟨_, _, rfl⟩
    · exact absurd hsuccess hfailed
    · unfold Progress.between at hprogress
      rw [if_neg (Nat.lt_irrefl _)] at hprogress
      cases hprogress
  | case6 count sofar ctx hinside place transaction opened hopen step between hstep hfailed =>
    cases hopen
    rcases separated_cases hlaid hrules hitem hstep hrecovers (place_lt_size hinside) ends with
      ⟨_, hsuccess, _⟩ | ⟨hclose, _, _⟩
    · exact absurd hsuccess hfailed
    · obtain rfl : ctx.place = stop :=
        (Input.Trees.nil anyRoot _).stop_unique hclose behind hstop
      have hrollback : between.rollback ctx.start.1 = { ctx with nextId := between.nextId } :=
        rollback_eq (hextending _ _ _ hstep)
      cases h
      refine ⟨decide_eq_true (Nat.zero_le count), rfl, [], ?_, ?_⟩
      · exact (congrArg (fun ctx => ctx.events.toList) hrollback).trans (List.append_nil _).symm
      · rw [List.append_nil]
        exact .single nonempty trees hfront

/-- Items lead up to the end of the block. -/
theorem items_exact {stop : Nat} (hstop : input.kindAt stop = .layoutEnd)
    (h : runWithin rules levels (items item what) ctx = some (outcome, after))
    (hrecovers : ctx.inAttempt = false) (hstart : ¬EndsItem input ctx.place)
    (trees : input.Trees anyRoot ctx.place stop) :
    outcome.success = true ∧ after.place = stop
      ∧ ∃ log, after.events.toList = ctx.events.toList ++ log
        ∧ ItemsLog rules input (completeItem item) ("malformed " ++ what) ctx.place stop log := by
  rw [items_eq] at h
  obtain ⟨below, h⟩ := runLevel_of_runWithin h
  obtain ⟨first, between, hfirst, hrest⟩ := seq_next h
  obtain ⟨hmatched, hbetween⟩ := item_exact hlaid hrules hitem hfirst hrecovers hstart
  obtain ⟨second, last, hmore, hnil⟩ := seq_next (hrest hmatched)
  obtain ⟨inner, hmore⟩ := runLevel_of_runWithin hmore
  obtain ⟨front, hevents, hfront⟩ := hbetween.logged
  have hattempt := (extends_runWithin rules below _ _ _ hfirst).inAttempt.trans hrecovers
  obtain ⟨hsuccess, hplace, log, hmoreEvents, hitems⟩ := moreItems_exact hlaid hrules hitem hstop
    0 _ between hattempt hmore hbetween.progress hbetween.trees hbetween.ends hfront
    (hbetween.trees.rest_of_stop trees hstop)
  cases hnil hsuccess
  refine ⟨by rw [Outcome.success_merge]; exact hsuccess, hplace, front ++ log, ?_, hitems⟩
  rw [hmoreEvents, hevents, List.append_assoc]

omit hlaid hrules hitem in
/-- An empty block has no items. -/
theorem items_empty (h : runWithin rules levels (items item what) ctx = some (outcome, after))
    (hstop : input.kindAt ctx.place = .layoutEnd) : outcome.success = false ∧ after = ctx := by
  rw [items_eq] at h
  obtain ⟨below, h⟩ := runLevel_of_runWithin h
  obtain ⟨first, between, hfirst, hcases⟩ := seq_cases h
  obtain ⟨inner, hfirst⟩ := runLevel_of_runWithin hfirst
  change Form.lookahead _ _ _ _ _ = _ at hfirst
  have hmay : mayStartItem ctx.view = false := by
    unfold mayStartItem View.isAt
    rw [show ctx.view.kind = .layoutEnd from hstop]
    rfl
  unfold Form.lookahead at hfirst
  rw [hmay] at hfirst
  cases hfirst
  rcases hcases with ⟨hmatched, _⟩ | ⟨_, hfailed, hafter⟩
  · cases hmatched
  · exact ⟨hfailed, hafter⟩

/-- What stands in a block is matched up to its end. -/
theorem relaxItems_exact {stop : Nat} (hstop : input.kindAt stop = .layoutEnd)
    (h : runWithin rules levels (.relax ("missing " ++ what) (items item what)) ctx
      = some (outcome, after))
    (hrecovers : ctx.inAttempt = false) (hstart : ctx.place = stop ∨ ¬EndsItem input ctx.place)
    (trees : input.Trees anyRoot ctx.place stop) :
    outcome.success = true ∧ after.place = stop := by
  obtain ⟨below, step, between, hchild, hcases⟩ := relax_cases hrecovers h
  rcases hstart with rfl | hstart
  · -- nothing stands in the block, and that is what recovery leaves
    obtain ⟨hfailed, _⟩ := items_empty hchild hstop
    rcases hcases with ⟨hsuccess, _⟩ | ⟨_, hreported⟩
    · cases hsuccess.symm.trans hfailed
    · exact hreported
  · obtain ⟨hsuccess, hplace, _⟩ :=
      items_exact hlaid hrules hitem hstop hchild hrecovers hstart trees
    rcases hcases with ⟨_, rfl, rfl⟩ | ⟨hfailed, _⟩
    · exact ⟨hsuccess, hplace⟩
    · cases hsuccess.symm.trans hfailed

/-- A start, what stands in the block, and its end. -/
theorem blockBody_exact
    (h : runWithin rules levels (.seq [.token .layoutStart,
      .relax ("missing " ++ what) (items item what), .token .layoutEnd]) ctx
        = some (outcome, after))
    (hrecovers : ctx.inAttempt = false) {stop : Nat} (hcloses : input.Closes ctx.place stop) :
    outcome.success = true ∧ after.place = stop + 1 := by
  have hinside : ctx.place < input.size :=
    Input.lt_size_of_start hcloses.start_kind
  have hplace : ctx.advance.place = ctx.place + 1 := place_advance hinside
  obtain ⟨below, h⟩ := runLevel_of_runWithin h
  obtain ⟨first, opened, hfirst, hrest⟩ := seq_next h
  obtain ⟨hmatched, rfl⟩ := run_token hfirst hcloses.start_kind nofun
  obtain ⟨second, between, hsecond, hrest⟩ := seq_next (hrest hmatched)
  obtain ⟨hmatched, hbetween⟩ := relaxItems_exact hlaid hrules hitem hcloses.stop_kind hsecond
    ((extends_advance ctx).inAttempt.trans hrecovers)
    (by rw [hplace]; exact start_cases hlaid hcloses) (by rw [hplace]; exact hcloses.body)
  obtain ⟨third, last, hthird, hnil⟩ := seq_next (hrest hmatched)
  have hstop : input.kindAt between.place = .layoutEnd := hbetween ▸ hcloses.stop_kind
  obtain ⟨hmatched, rfl⟩ := run_token hthird hstop nofun
  cases hnil hmatched
  have hstopInside : between.place < input.size := Input.lt_size_of_stop hstop
  exact ⟨by rw [Outcome.success_merge]; exact hmatched, by rw [place_advance hstopInside, hbetween]⟩

/-- A block that starts here is matched up to the end that closes it. -/
theorem block_exact (h : runWithin rules levels (block item what) ctx = some (outcome, after))
    (hrecovers : ctx.inAttempt = false) {stop : Nat} (hcloses : input.Closes ctx.place stop) :
    outcome.success = true ∧ after.place = stop + 1 := by
  rw [block_eq] at h
  obtain ⟨below, step, between, hchild, hcases⟩ := relax_cases hrecovers h
  obtain ⟨hmatched, hplace⟩ := blockBody_exact hlaid hrules hitem hchild hrecovers hcloses
  rcases hcases with ⟨_, rfl, rfl⟩ | ⟨hfailed, _⟩
  · exact ⟨hmatched, hplace⟩
  · cases hmatched.symm.trans hfailed

end Exact

end Offside.Language
