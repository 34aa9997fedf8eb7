import Offside.Proofs.Parse.Likeness

/-!
What two runs of a grammar share.

What a run answers depends on the grammar, on the place, and on whether parsing
is speculative. Contexts that agree in these are `Alike`, which is stated under
a proposition `same`: where it holds, contexts that are alike are one and the
same. With `False` for it, `simulates_runWithin` says that a run does not depend
on the log; with `True`, that a run gives the same reply when it may nest more
levels.

Contexts may differ in what was logged before. `Shifted` relates contexts whose
logs have grown by the same events, each from a log of its own, and a run adds
the same events to both (`run_shifted`).
-/

namespace Offside

variable {input : Input} {same : Prop}

/-- Contexts that grammars cannot tell apart; a single one where `same` holds. -/
structure Context.Alike (same : Prop) (ctx other : Context input) : Prop where
  place : ctx.place = other.place
  inAttempt : ctx.inAttempt = other.inAttempt
  eq : same → ctx = other

theorem Context.Alike.refl (ctx : Context input) : ctx.Alike same ctx := ⟨rfl, rfl, fun _ => rfl⟩

namespace Context

/-- Advancing goes by the place. -/
theorem place_advance_congr {ctx other : Context input} (h : ctx.place = other.place) :
    ctx.advance.place = other.advance.place := by
  have hend : ctx.atEnd = other.atEnd := congrArg (decide <| input.size ≤ ·) h
  unfold advance
  rw [hend]
  split
  · exact h
  · exact congrArg (· + 1) h

theorem inAttempt_advance (ctx : Context input) : ctx.advance.inAttempt = ctx.inAttempt := by
  unfold advance
  split <;> rfl

end Context

open Context in
/-- Being alike in place and flag, as a likeness. -/
def Likeness.alike (input : Input) (same : Prop) : Likeness input where
  Rel := Context.Alike same
  Marked index another := same → index = another
  place h := h.place
  inAttempt h := h.inAttempt
  start h := ⟨h.place, h.inAttempt, fun hsame => by rw [h.eq hsame]⟩
  mark h := ⟨h.place, h.inAttempt, fun hsame => by rw [h.eq hsame]⟩
  marked h := fun hsame => by rw [h.eq hsame]
  advance {ctx other} h := ⟨place_advance_congr h.place,
    by rw [inAttempt_advance, inAttempt_advance, h.inAttempt], fun hsame => by rw [h.eq hsame]⟩
  report _ h := ⟨h.place, h.inAttempt, fun hsame => by rw [h.eq hsame]⟩
  commit h hafter := ⟨hafter.place, hafter.inAttempt,
    fun hsame => by rw [h.eq hsame, hafter.eq hsame]⟩
  rollback h hafter := ⟨h.place, hafter.inAttempt,
    fun hsame => by rw [h.eq hsame, hafter.eq hsame]⟩
  speculate h := ⟨h.place, rfl, fun hsame => by rw [h.eq hsame]⟩
  restore h hafter := ⟨hafter.place, h.inAttempt,
    fun hsame => by rw [h.eq hsame, hafter.eq hsame]⟩
  complete {_ _ marker another} kind h hmarker := ⟨h.place, h.inAttempt, fun hsame => by
    obtain rfl : marker = another := congrArg Marker.mk (hmarker hsame)
    rw [h.eq hsame]⟩
  abandon {_ _ marker another} h hmarker := ⟨h.place, h.inAttempt, fun hsame => by
    obtain rfl : marker = another := congrArg Marker.mk (hmarker hsame)
    rw [h.eq hsame]⟩
  precede {_ _ done finished} h hdone := ⟨h.place, h.inAttempt, fun hsame => by
    obtain rfl : done = finished := congrArg CompletedMarker.mk (hdone hsame)
    rw [h.eq hsame]⟩

-- =============================================== what was logged before

namespace Context

/-- Contexts at one place whose logs have grown by the same events, the one from
`front` and the other from `back`. -/
structure Shifted (front back : List Event) (ctx other : Context input) : Prop where
  place : ctx.place = other.place
  inAttempt : ctx.inAttempt = other.inAttempt
  events : ∃ log, ctx.events.toList = front ++ log ∧ other.events.toList = back ++ log

/-- Indices at the same distance behind the one log and behind the other. -/
def ShiftedIndex (front back : List Event) (index another : Nat) : Prop :=
  ∃ distance, index = front.length + distance ∧ another = back.length + distance

namespace Shifted

variable {front back : List Event} {ctx other after last : Context input}

/-- The index that a node is opened at is shifted like the log. -/
theorem marked (h : Shifted front back ctx other) :
    ShiftedIndex front back ctx.events.size other.events.size := by
  obtain ⟨log, hctx, hother⟩ := h.events
  refine ⟨log.length, ?_, ?_⟩
  · rw [← Array.length_toList, hctx, List.length_append]
  · rw [← Array.length_toList, hother, List.length_append]

/-- An event that is appended to both logs. -/
theorem push (h : Shifted front back ctx other) (event : Event) :
    ∃ log, (ctx.events.push event).toList = front ++ log
      ∧ (other.events.push event).toList = back ++ log := by
  obtain ⟨log, hctx, hother⟩ := h.events
  refine ⟨log ++ [event], ?_, ?_⟩
  · rw [Array.toList_push, hctx, List.append_assoc]
  · rw [Array.toList_push, hother, List.append_assoc]

/-- The event at corresponding indices changes in the same way. -/
theorem modify (h : Shifted front back ctx other) {index another : Nat}
    (hindex : ShiftedIndex front back index another) (f : Event → Event) :
    ∃ log, (ctx.events.modify index f).toList = front ++ log
      ∧ (other.events.modify another f).toList = back ++ log := by
  obtain ⟨log, hctx, hother⟩ := h.events
  obtain ⟨distance, rfl, rfl⟩ := hindex
  refine ⟨log.modify distance f, ?_, ?_⟩
  · rw [Array.toList_modify, hctx]
    exact List.modifyTailIdx_add _ _ front log
  · rw [Array.toList_modify, hother]
    exact List.modifyTailIdx_add _ _ back log

theorem mark (h : Shifted front back ctx other) : Shifted front back ctx.mark.2 other.mark.2 :=
  ⟨h.place, h.inAttempt, h.push .blank⟩

/-- The same token is logged on both sides. -/
theorem advance (h : Shifted front back ctx other) :
    Shifted front back ctx.advance other.advance := by
  refine ⟨place_advance_congr h.place, by
    rw [inAttempt_advance, inAttempt_advance, h.inAttempt], ?_⟩
  have hend : ctx.atEnd = other.atEnd := congrArg (decide <| input.size ≤ ·) h.place
  unfold Context.advance
  rw [hend, h.place]
  split
  · exact h.events
  · exact h.push (.token other.place)

/-- Both logs are cut back to where they were, which was behind both fronts. -/
theorem rollback (h : Shifted front back ctx other) (hafter : Shifted front back after last) :
    Shifted front back (after.rollback ctx.start.1) (last.rollback other.start.1) := by
  refine ⟨h.place, hafter.inAttempt, ?_⟩
  obtain ⟨distance, hctx, hother⟩ := h.marked
  obtain ⟨log, hlog, hsame⟩ := hafter.events
  refine ⟨log.take distance, ?_, ?_⟩
  · show (after.events.shrink ctx.events.size).toList = _
    rw [Array.toList_shrink, hlog, hctx, List.take_length_add_append]
  · show (last.events.shrink other.events.size).toList = _
    rw [Array.toList_shrink, hsame, hother, List.take_length_add_append]

/-- The same opening is completed on both sides, each in its own log. -/
theorem complete (h : Shifted front back ctx other) {marker another : Marker}
    (hmarker : ShiftedIndex front back marker.index another.index) (kind : NodeKind) :
    Shifted front back (ctx.complete marker kind).2 (other.complete another kind).2 := by
  have htagged : Shifted front back
      ({ ctx with events := tag ctx.events marker.index kind } : Context input)
      { other with events := tag other.events another.index kind } :=
    ⟨h.place, h.inAttempt, h.modify hmarker _⟩
  exact ⟨h.place, h.inAttempt, htagged.push .finish⟩

/-- A marker is the last event of the one log if it is the last of the other. -/
theorem abandon (h : Shifted front back ctx other) {marker another : Marker}
    (hmarker : ShiftedIndex front back marker.index another.index) :
    Shifted front back (ctx.abandon marker) (other.abandon another) := by
  refine ⟨h.place, h.inAttempt, ?_⟩
  obtain ⟨log, hctx, hother⟩ := h.events
  obtain ⟨distance, hindex, hanother⟩ := hmarker
  have hsize : ctx.events.size = front.length + log.length := by
    rw [← Array.length_toList, hctx, List.length_append]
  have hlength : other.events.size = back.length + log.length := by
    rw [← Array.length_toList, hother, List.length_append]
  unfold Context.abandon
  dsimp only
  rw [hindex, hanother, hsize, hlength]
  by_cases hlast : distance + 1 = log.length
  · have hne : log ≠ [] := by
      rintro rfl
      cases hlast
    rw [if_pos (by omega), if_pos (by omega)]
    refine ⟨log.dropLast, ?_, ?_⟩
    · rw [Array.toList_pop, hctx, List.dropLast_append_of_ne_nil hne]
    · rw [Array.toList_pop, hother, List.dropLast_append_of_ne_nil hne]
  · rw [if_neg (by omega), if_neg (by omega)]
    exact ⟨log, hctx, hother⟩

/-- The distance to a wrapper is the same in both logs. -/
theorem precede (h : Shifted front back ctx other) {done finished : CompletedMarker}
    (hdone : ShiftedIndex front back done.index finished.index) :
    Shifted front back (ctx.precede done).2 (other.precede finished).2 := by
  refine ⟨h.place, h.inAttempt, ?_⟩
  have hdistance : ctx.events.size - done.index = other.events.size - finished.index := by
    obtain ⟨length, hctx, hother⟩ := h.marked
    obtain ⟨distance, hindex, hanother⟩ := hdone
    omega
  show ∃ log, (link (ctx.events.push .blank) done.index (ctx.events.size - done.index)).toList
      = front ++ log
    ∧ (link (other.events.push .blank) finished.index
      (other.events.size - finished.index)).toList = back ++ log
  rw [hdistance]
  exact h.mark.modify hdone _

end Shifted

end Context

open Context in
/-- Having logged the same since, as a likeness. -/
def Likeness.shifted (input : Input) (front back : List Event) : Likeness input where
  Rel := Shifted front back
  Marked := ShiftedIndex front back
  place h := h.place
  inAttempt h := h.inAttempt
  start h := ⟨h.place, h.inAttempt, h.events⟩
  mark h := h.mark
  marked h := h.marked
  advance h := h.advance
  report diagnostic h := ⟨h.place, h.inAttempt, h.push (.report diagnostic)⟩
  commit _ hafter := ⟨hafter.place, hafter.inAttempt, hafter.events⟩
  rollback h hafter := h.rollback hafter
  speculate h := ⟨h.place, rfl, h.events⟩
  restore h hafter := ⟨hafter.place, h.inAttempt, hafter.events⟩
  complete kind h hmarker := h.complete hmarker kind
  abandon h hmarker := h.abandon hmarker
  precede h hdone := h.precede hdone

-- =========================================================== the runs

namespace Grammar

variable {rules : RuleTable} {levels more : Nat} {grammar : Grammar}
  {ctx other after last : Context input} {outcome result : Outcome}

/-- A run does not depend on the log, on what is open, or on how many levels are
left beyond those that it needs. -/
theorem simulates_runWithin (rules : RuleTable) {levels more : Nat} (hlevels : levels ≤ more)
    (grammar : Grammar) (ctx other : Context input) (h : ctx.Alike same other) :
    ∀ outcome after, runWithin rules levels grammar ctx = some (outcome, after) →
      ∃ last, runWithin rules more grammar other = some (outcome, last)
        ∧ after.Alike same last := by
  intro outcome after hrun
  obtain ⟨_, last, hlast, rfl, halike⟩ :=
    (Likeness.alike input same).simulates_runWithin rules hlevels grammar ctx other h _ _ hrun
  exact ⟨last, hlast, halike⟩

/-- More levels do no harm. -/
theorem runWithin_mono (hlevels : levels ≤ more) {reply : Outcome × Context input}
    (h : runWithin rules levels grammar ctx = some reply) :
    runWithin rules more grammar ctx = some reply := by
  obtain ⟨last, hlast, halike⟩ :=
    simulates_runWithin rules hlevels grammar ctx ctx (.refl ctx : ctx.Alike True ctx) _ _ h
  rw [hlast, ← halike.eq trivial]

/-- Two runs of a grammar at one place come to one outcome and one place. -/
theorem run_unique
    (h : runWithin rules levels grammar ctx = some (outcome, after))
    (hother : runWithin rules more grammar other = some (result, last))
    (halike : ctx.Alike False other) : result = outcome ∧ last.place = after.place := by
  obtain ⟨_, hfirst, hafter⟩ :=
    simulates_runWithin rules (Nat.le_max_left levels more) grammar ctx other halike _ _ h
  have hsecond := runWithin_mono (Nat.le_max_right levels more) hother
  obtain ⟨hresult, hcontext⟩ := Prod.mk.inj (Option.some.inj (hsecond.symm.trans hfirst))
  exact ⟨hresult, by rw [hcontext, hafter.place]⟩

/-- Whatever was logged before, a run at a place comes to one outcome and adds the
same events. -/
theorem run_shifted (h : runWithin rules levels grammar ctx = some (outcome, after))
    (other : Context input) (hplace : ctx.place = other.place)
    (hattempt : ctx.inAttempt = other.inAttempt) :
    ∃ last, runWithin rules levels grammar other = some (outcome, last)
      ∧ Context.Shifted ctx.events.toList other.events.toList after last := by
  obtain ⟨_, last, hlast, rfl, hshifted⟩ :=
    (Likeness.shifted input _ _).simulates_runWithin rules (Nat.le_refl levels) grammar ctx other
      ⟨hplace, hattempt, [], (List.append_nil _).symm, (List.append_nil _).symm⟩ _ _ h
  exact ⟨last, hlast, hshifted⟩

-- ================================================== what is evaluated

/-- A grammar comes to a reply, with as many levels as it takes. -/
def Evaluates (rules : RuleTable) (grammar : Grammar) (ctx : Context input)
    (reply : Outcome × Context input) : Prop :=
  ∃ levels, runWithin rules levels grammar ctx = some reply

namespace Evaluates

variable {reply another : Outcome × Context input}

/-- More levels do not change an answer, so there is one. -/
theorem unique (h : Evaluates rules grammar ctx reply)
    (hother : Evaluates rules grammar ctx another) :
    reply = another := by
  obtain ⟨levels, hrun⟩ := h
  obtain ⟨more, hrerun⟩ := hother
  have hfirst := runWithin_mono (Nat.le_max_left levels more) hrun
  have hsecond := runWithin_mono (Nat.le_max_right levels more) hrerun
  exact Option.some.inj (hfirst.symm.trans hsecond)

/-- Where contexts share their log, place and flag, so do they after a grammar was
evaluated in them. -/
theorem sameLog (h : Evaluates rules grammar ctx reply) (other : Context input)
    (hplace : ctx.place = other.place) (hattempt : ctx.inAttempt = other.inAttempt)
    (hevents : ctx.events = other.events) :
    ∃ another, Evaluates rules grammar other another ∧ another.1 = reply.1
      ∧ another.2.place = reply.2.place ∧ another.2.events = reply.2.events := by
  obtain ⟨levels, hrun⟩ := h
  obtain ⟨last, hlast, hshifted⟩ := run_shifted hrun other hplace hattempt
  obtain ⟨log, hafter, hother⟩ := hshifted.events
  refine ⟨(reply.1, last), ⟨levels, hlast⟩, rfl, hshifted.place.symm, ?_⟩
  rw [← Array.toList_inj, hafter, hother, hevents]

end Evaluates

end Grammar

end Offside
