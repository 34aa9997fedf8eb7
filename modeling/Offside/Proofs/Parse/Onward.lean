import Offside.Proofs.Parse.Checked

/-!
Runs that never come back to where they are.

Two things could keep a run from ending. A rule could be entered at a place where
it has been entered before and is still being run, and then again, without end.
And a repetition could go on with a part that matches without consuming a token.
`Grammar.runOnward` is the run that is stopped at the first of either. It carries
a trail of the rules that are being run, each with the place where it was entered,
and runs the parts of a repetition under `Grammar.advancing`. So to say that
neither ever happens is to say that it has the answer that the run has. Skipping
needs no such care, since a tree that is not consumed leaves any run without an
answer.

# The measure

What falls along a trail that stays at one place is the number of levels that a
run may nest until it consumes a token, which is the height of a `Room`. A rule is
entered with its bound for a height, through a reference that has more. Had the
rule been entered at the same place before, its bound would be no less than the
height of the reference (`Room.enter`).
-/

namespace Offside

variable {input : Input}

-- ====================================================== repetition

namespace Form

variable {run rerun : Runner input}

/-- A repetition looks at the runs of its part alone. -/
theorem repeatFrom_congr {child : Grammar} (h : ∀ ctx, run child ctx = rerun child ctx)
    (self : Grammar) (least count : Nat) (sofar : Outcome) (ctx : Context input) :
    repeatFrom run self child least count sofar ctx
      = repeatFrom rerun self child least count sofar ctx := by
  induction hleft : input.size - ctx.place using Nat.strongRecOn generalizing count sofar ctx with
  | ind left ih =>
    rw [repeatFrom, repeatFrom]
    by_cases hend : ctx.atEnd = true
    · rw [dif_pos hend, dif_pos hend]
    rw [dif_neg hend, dif_neg hend]
    have hinside := Context.place_lt_size hend
    dsimp only
    rw [h]
    cases rerun child ctx.start.2 with
    | none => rfl
    | some reply =>
      dsimp only
      split
      · split
        case isTrue hprogress => exact ih _ (by rw [Context.place_commit]; omega) _ _ _ rfl
        case isFalse => rfl
      · rfl

/-- A fold looks at the runs of its steps alone. -/
theorem foldFrom_congr {next : Grammar} (h : ∀ ctx, run next ctx = rerun next ctx)
    (kind : NodeKind) (node : Marker ⊕ CompletedMarker) (sofar : Outcome) (ctx : Context input) :
    foldFrom run kind next node sofar ctx = foldFrom rerun kind next node sofar ctx := by
  induction hleft : input.size - ctx.place using Nat.strongRecOn generalizing node sofar ctx with
  | ind left ih =>
    rw [foldFrom, foldFrom]
    by_cases hend : ctx.atEnd = true
    · rw [dif_pos hend, dif_pos hend]
    rw [dif_neg hend, dif_neg hend]
    have hinside := Context.place_lt_size hend
    dsimp only
    rw [h]
    cases rerun next ctx.start.2 with
    | none => rfl
    | some reply =>
      dsimp only
      split
      case isTrue hprogress =>
        refine ih _ ?_ _ _ _ rfl
        rw [Context.place_wrap, Context.place_commit]
        omega
      case isFalse => rfl

theorem fold_congr {start next : Grammar} (hstart : ∀ ctx, run start ctx = rerun start ctx)
    (hnext : ∀ ctx, run next ctx = rerun next ctx) (kind : NodeKind) (ctx : Context input) :
    fold run kind start next ctx = fold rerun kind start next ctx := by
  unfold fold
  simp only [hstart, foldFrom_congr hnext]

end Form

namespace Grammar

/-- Runs a grammar, and gives no answer if it matches without consuming a token. -/
def advancing (run : Runner input) : Runner input := fun grammar ctx =>
  (run grammar ctx).filter fun reply => !reply.1.success || decide (ctx.place < reply.2.place)

/-- One level of a run under the rules of a trail. It gives no answer if a rule is
entered that is on the trail with the same place, or if a part of a repetition
matches without consuming a token. -/
def onwardLevel (rules : RuleTable) (run : List (Nat × Nat) → Runner input)
    (trail : List (Nat × Nat)) (grammar : Grammar) (ctx : Context input) : Reply input :=
  match grammar with
  | .reference _ rule =>
    if (rule, ctx.place) ∈ trail then none
    else runLevel rules (run ((rule, ctx.place) :: trail)) grammar ctx
  | .many .. | .fold .. => runLevel rules (advancing (run trail)) grammar ctx
  | grammar => runLevel rules (run trail) grammar ctx

/-- Runs a grammar with at most `levels` runs nested in each other, under the rules
of a trail. -/
def runOnward (rules : RuleTable) : Nat → (trail : List (Nat × Nat)) → Runner input
  | 0, _, _, _ => none
  | levels + 1, trail, grammar, ctx =>
    onwardLevel rules (runOnward rules levels) trail grammar ctx

variable {run rerun : Runner input} {rules : RuleTable}

-- ============================================ the same replies

/-- A run that is stopped where it does not advance has no other replies. -/
theorem simulates_advancing (h : (Likeness.alike input True).Simulates run rerun) :
    (Likeness.alike input True).Simulates (advancing run) rerun :=
  fun grammar ctx other halike outcome after hreply =>
    h grammar ctx other halike outcome after (Option.filter_eq_some_iff.mp hreply).1

/-- Where the onward run answers, so does the run, with the same reply. -/
theorem simulates_runOnward (levels : Nat) : ∀ trail : List (Nat × Nat),
    (Likeness.alike input True).Simulates (runOnward rules levels trail)
      (runWithin rules levels) := by
  induction levels with
  | zero => exact fun _ _ _ _ _ => .none
  | succ levels ih =>
    intro trail grammar ctx other h
    rw [runWithin_succ, runOnward]
    unfold onwardLevel
    split
    · split
      · exact .none
      · exact Likeness.simulates_runLevel (ih _) rules _ ctx other h
    · exact Likeness.simulates_runLevel (simulates_advancing (ih trail)) rules _ ctx other h
    · exact Likeness.simulates_runLevel (simulates_advancing (ih trail)) rules _ ctx other h
    · exact Likeness.simulates_runLevel (ih trail) rules _ ctx other h

/-- A run with a trail has no other replies than the run without it. -/
theorem runWithin_of_runOnward {levels : Nat} {trail : List (Nat × Nat)} {grammar : Grammar}
    {ctx : Context input} {reply : Outcome × Context input}
    (h : runOnward rules levels trail grammar ctx = some reply) :
    runWithin rules levels grammar ctx = some reply := by
  obtain ⟨_, after, hrun, rfl, halike⟩ :=
    simulates_runOnward levels trail grammar ctx ctx (.refl ctx) _ _ h
  rw [hrun, ← halike.eq trivial]

/-- What consumes a token in all its matches is not stopped by the check. -/
theorem advancing_eq (hmatching : Matching rules run) (hlaid : input.Laid)
    (hrules : ∀ rule body, rules rule = some body → body.consumes = true) {grammar : Grammar}
    (hconsumes : grammar.consumes = true) (ctx : Context input) :
    advancing run grammar ctx = run grammar ctx := by
  unfold advancing
  cases hreply : run grammar ctx with
  | none => rfl
  | some reply =>
    rw [Option.filter_some, if_pos]
    cases hsuccess : reply.1.success with
    | false => rfl
    | true =>
      have hprogress := (hmatching _ _ _ _ hreply hsuccess).place_lt hlaid hrules hconsumes
      exact decide_eq_true hprogress

end Grammar

-- ======================================================== the trail

/-- A reference enters its rule for the first time at its place, and there is room for
the body. -/
theorem Room.enter {bounds : Bounds} {trail : List (Nat × Nat)} {levels height rule : Nat}
    {ctx : Context input} (h : Room bounds trail (levels + 1) (height + 1) ctx)
    (hrule : bounds.rule rule ≤ height) :
    (rule, ctx.place) ∉ trail
      ∧ Room bounds ((rule, ctx.place) :: trail) levels (bounds.rule rule) ctx := by
  constructor
  · intro hmem
    have hagain : height + 1 ≤ bounds.rule rule := (h.begun _ hmem).2 rfl
    omega
  · have hbelow := h.below.lower hrule
    refine ⟨hbelow.inside, hbelow.levels_le, List.forall_mem_cons.mpr ⟨?_, hbelow.begun⟩⟩
    exact ⟨Nat.le_refl _, fun _ => Nat.le_refl _⟩

namespace Grammar

open Form

variable {bounds : Bounds} {rules : RuleTable}

/-- One level of an onward run answers wherever there is room for one level more than
what is below it covers, under whatever trail. -/
theorem isSome_onwardLevel (hfit : bounds.Fit rules) (hlaid : input.Laid) {levels : Nat}
    {run : List (Nat × Nat) → Runner input}
    (hrun : ∀ trail, Covers bounds rules trail levels (run trail)) (trail : List (Nat × Nat))
    (grammar : Grammar) (ctx : Context input) (height : Nat)
    (hroom : Room bounds trail (levels + 1) height ctx)
    (hbounded : grammar.isBounded bounds ctx.inAttempt height = true) :
    (onwardLevel rules run trail grammar ctx).isSome = true := by
  have hlevel := isSome_runLevel hfit hlaid (hrun trail) grammar ctx height hroom hbounded
  have hadvancing : ∀ part : Grammar, part.consumes = true → ∀ ctx : Context input,
      advancing (run trail) part ctx = run trail part ctx :=
    fun _ => advancing_eq (hrun trail).matching hlaid hfit.consumes
  cases height with
  | zero =>
    unfold isBounded at hbounded
    cases hbounded
  | succ height =>
    cases grammar with
    | reference name rule =>
      unfold isBounded at hbounded
      obtain ⟨hheight, hplain⟩ := Bool.and_eq_true_iff.mp hbounded
      -- the body is run under a longer trail, so the runs below are those for that one
      obtain ⟨hfirst, henter⟩ := hroom.enter (of_decide_eq_true hheight)
      show (if (rule, ctx.place) ∈ trail then none else _).isSome = true
      rw [if_neg hfirst]
      exact isSome_reference (hrun _) _ name henter
        fun body hbody => hfit.isBounded_body hbody hplain
    -- what is repeated consumes a token, so that the check makes no difference
    | many child least =>
      unfold isBounded at hbounded
      obtain ⟨_, hconsumes⟩ := Bool.and_eq_true_iff.mp hbounded
      show (repeatFrom _ _ child least 0 _ ctx).isSome = true
      rw [repeatFrom_congr (hadvancing child hconsumes)]
      exact hlevel
    | fold kind start next =>
      unfold isBounded at hbounded
      obtain ⟨hbounded, hnext⟩ := Bool.and_eq_true_iff.mp hbounded
      obtain ⟨hbounded, _⟩ := Bool.and_eq_true_iff.mp hbounded
      obtain ⟨_, hstart⟩ := Bool.and_eq_true_iff.mp hbounded
      show (Form.fold _ kind start next ctx).isSome = true
      rw [fold_congr (hadvancing start hstart) (hadvancing next hnext)]
      exact hlevel
    | _ => exact hlevel

/-- The onward run answers wherever there is room. -/
theorem covers_runOnward (hfit : bounds.Fit rules) (hlaid : input.Laid) (levels : Nat) :
    ∀ trail : List (Nat × Nat),
      Covers bounds rules trail levels (runOnward rules levels trail : Runner input) := by
  induction levels with
  | zero =>
    intro trail
    refine .ofRuns (fun _ _ _ => runWithin_of_runOnward) fun grammar ctx height hroom hbounded => ?_
    rw [hroom.not_isBounded] at hbounded
    cases hbounded
  | succ levels ih =>
    intro trail
    exact .ofRuns (fun _ _ _ => runWithin_of_runOnward) (isSome_onwardLevel hfit hlaid ih trail)

end Grammar

end Offside
