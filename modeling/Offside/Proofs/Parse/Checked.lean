import Offside.Proofs.Grammar.Bounded
import Offside.Proofs.Parse.Alike
import Offside.Proofs.Parse.Matched

/-!
Runs that are checked, and runs that answer.

A parse comes down to runs nested in runs. `Grammar.runChecked` runs a grammar
with an eye on all of them: it gives no answer as soon as one of the runs, at
whatever depth and on whatever branch, even one that is taken back, comes to a
reply that is not wanted. So to say that all runs of a parse are as wanted is to
say that the checked run has the answer that the run has.

That a run answers at all is a matter of levels. `Covers` says what a way to run
grammars does with some number of levels: it answers wherever the bounds on the
nesting fit into them. Consuming a token frees the levels of the next one, so
the levels needed shrink with the tokens that are left (`Room`). What the bounds
say of the rules that are being run goes along with it, as a trail; here no run
looks at the trail, and it is empty.
-/

namespace Offside

variable {input : Input}

namespace Grammar

open Classical in
/-- Runs a grammar with at most `levels` runs nested in each other, and gives no
answer if one of the runs has a reply that is not `ok`. -/
noncomputable def runChecked (ok : Grammar → Context input → Outcome × Context input → Prop)
    (rules : RuleTable) : Nat → Runner input
  | 0, _, _ => none
  | levels + 1, grammar, ctx =>
    (runLevel rules (runChecked ok rules levels) grammar ctx).filter
      fun reply => decide (ok grammar ctx reply)

variable {ok : Grammar → Context input → Outcome × Context input → Prop} {rules : RuleTable}

/-- Where the checked run answers, so does the run, with the same reply. -/
theorem simulates_runChecked (levels : Nat) :
    (Likeness.alike input True).Simulates (runChecked ok rules levels)
      (runWithin rules levels) := by
  induction levels with
  | zero => exact fun _ _ _ _ => .none
  | succ levels ih =>
    intro grammar ctx other h outcome after hreply
    have hlevel : runLevel rules (runChecked ok rules levels) grammar ctx
        = some (outcome, after) :=
      (Option.filter_eq_some_iff.mp hreply).1
    rw [runWithin_succ]
    exact Likeness.simulates_runLevel ih rules grammar ctx other h outcome after hlevel

/-- A checked run has no other replies than the run. -/
theorem runWithin_of_runChecked {levels : Nat} {grammar : Grammar} {ctx : Context input}
    {reply : Outcome × Context input} (h : runChecked ok rules levels grammar ctx = some reply) :
    runWithin rules levels grammar ctx = some reply := by
  obtain ⟨_, after, hrun, rfl, halike⟩ :=
    simulates_runChecked levels grammar ctx ctx (.refl ctx) _ _ h
  rw [hrun, ← halike.eq trivial]

end Grammar

-- ============================================================= levels

/-- The levels suffice for `height` of them here, and for the bound at every token
that is left. The trail names the rules that are being run, each with the place
where its run began: none began further on, and the bound of one that began here
allows for `height` levels yet. -/
structure Room (bounds : Bounds) (trail : List (Nat × Nat)) (levels height : Nat)
    (ctx : Context input) : Prop where
  inside : ctx.place ≤ input.size
  levels_le : height + (input.size - ctx.place) * bounds.levels ≤ levels
  begun : ∀ entered ∈ trail, entered.2 ≤ ctx.place
    ∧ (entered.2 = ctx.place → height ≤ bounds.rule entered.1)

namespace Room

variable {bounds : Bounds} {trail : List (Nat × Nat)} {levels height : Nat}
  {ctx after : Context input}

/-- Room depends on the place alone. -/
theorem of_place (h : Room bounds trail levels height ctx) (hplace : after.place = ctx.place) :
    Room bounds trail levels height after := by
  obtain ⟨hinside, hlevels, hbegun⟩ := h
  rw [← hplace] at hinside hlevels hbegun
  exact ⟨hinside, hlevels, hbegun⟩

/-- With less height, the bounds of the rules that are being run still suffice. -/
theorem begun_of_le {lower : Nat} (h : Room bounds trail levels height ctx)
    (hle : lower ≤ height) : ∀ entered ∈ trail, entered.2 ≤ ctx.place
      ∧ (entered.2 = ctx.place → lower ≤ bounds.rule entered.1) := by
  intro entered hmem
  obtain ⟨hbefore, hheight⟩ := h.begun entered hmem
  exact ⟨hbefore, fun hplace => Nat.le_trans hle (hheight hplace)⟩

theorem below (h : Room bounds trail (levels + 1) (height + 1) ctx) :
    Room bounds trail levels height ctx :=
  ⟨h.inside, by have := h.levels_le; omega, h.begun_of_le (Nat.le_succ height)⟩

theorem lower {lower : Nat} (h : Room bounds trail levels height ctx) (hle : lower ≤ height) :
    Room bounds trail levels lower ctx :=
  ⟨h.inside, by have := h.levels_le; omega, h.begun_of_le hle⟩

/-- There is as much room further on. -/
theorem extend (h : Room bounds trail levels height ctx) (hinside : after.place ≤ input.size)
    (honward : ctx.place ≤ after.place) : Room bounds trail levels height after := by
  have hle := Nat.mul_le_mul_right bounds.levels
    (Nat.sub_le_sub_left honward input.size)
  have hroom := h.levels_le
  refine ⟨hinside, by omega, fun entered hmem => ?_⟩
  obtain ⟨hbefore, hheight⟩ := h.begun entered hmem
  exact ⟨Nat.le_trans hbefore honward, fun hplace => hheight (by omega)⟩

/-- Behind a token there is room for the bound once more. -/
theorem behind (h : Room bounds trail levels height ctx) (hinside : after.place ≤ input.size)
    (hprogress : ctx.place < after.place) : Room bounds trail levels bounds.levels after := by
  have hle := Nat.mul_le_mul_right bounds.levels
    (show input.size - after.place + 1 ≤ input.size - ctx.place by omega)
  rw [Nat.succ_mul] at hle
  have hroom := h.levels_le
  refine ⟨hinside, by omega, fun entered hmem => ?_⟩
  have hbefore := (h.begun entered hmem).1
  exact ⟨by omega, fun hplace => by omega⟩

/-- Without levels there is room for no grammar. -/
theorem not_isBounded {grammar : Grammar} {attempted : Bool}
    (h : Room bounds trail 0 height ctx) : grammar.isBounded bounds attempted height = false := by
  obtain rfl : height = 0 := by
    have := h.levels_le
    omega
  unfold Grammar.isBounded
  rfl

end Room

/-- The rules keep to the bounds, and consume tokens. -/
structure Bounds.Fit (bounds : Bounds) (rules : RuleTable) : Prop where
  consumes : ∀ rule body, rules rule = some body → body.consumes = true
  isBounded : ∀ rule body, rules rule = some body →
    body.isBounded bounds false (bounds.rule rule) = true
  isPlain : ∀ rule body, rules rule = some body → bounds.isPlain rule = true →
    body.isBounded bounds true (bounds.rule rule) = true

namespace Bounds.Fit

variable {bounds : Bounds} {rules : RuleTable}

/-- The body of a rule keeps to the bound of the rule, speculative or not. -/
theorem isBounded_body (h : bounds.Fit rules) {rule : Nat} {body : Grammar} {attempted : Bool}
    (hbody : rules rule = some body) (hplain : (!attempted || bounds.isPlain rule) = true) :
    body.isBounded bounds attempted (bounds.rule rule) = true := by
  cases attempted with
  | false => exact h.isBounded rule body hbody
  | true => exact h.isPlain rule body hbody hplain

end Bounds.Fit

/-- A way to run grammars that answers where there is room, and only extends the
context and matches. -/
structure Covers (bounds : Bounds) (rules : RuleTable) (trail : List (Nat × Nat)) (levels : Nat)
    (run : Runner input) : Prop where
  extending : Extending run
  matching : Matching rules run
  answers : ∀ (grammar : Grammar) (ctx : Context input) (height : Nat),
    Room bounds trail levels height ctx → grammar.isBounded bounds ctx.inAttempt height = true →
      (run grammar ctx).isSome = true

namespace Covers

variable {bounds : Bounds} {rules : RuleTable} {trail : List (Nat × Nat)} {levels more : Nat}
  {run : Runner input}

/-- Replies of runs extend the context and match, and so do those of any way to run grammars
that has no others. -/
theorem ofRuns
    (hruns : ∀ (grammar : Grammar) (ctx : Context input) (reply : Outcome × Context input),
      run grammar ctx = some reply → Grammar.runWithin rules more grammar ctx = some reply)
    (hanswers : ∀ (grammar : Grammar) (ctx : Context input) (height : Nat),
      Room bounds trail levels height ctx → grammar.isBounded bounds ctx.inAttempt height = true →
        (run grammar ctx).isSome = true) : Covers bounds rules trail levels run where
  extending grammar ctx reply h :=
    Grammar.extends_runWithin rules more grammar ctx reply (hruns _ _ _ h)
  matching grammar ctx outcome after h :=
    Grammar.matches_runWithin rules more grammar ctx outcome after (hruns _ _ _ h)
  answers := hanswers

end Covers

/-- What goes on from a reply answers. -/
theorem isSome_bind {reply : Reply input} {next : Outcome → Context input → Reply input}
    (hnext : ∀ outcome after, reply = some (outcome, after) →
      (next outcome after).isSome = true) : reply.isSome = true →
    (match reply with
      | none => none
      | some (outcome, ctx) => next outcome ctx).isSome = true := by
  intro h
  cases reply with
  | none => cases h
  | some reply => exact hnext _ _ rfl

namespace Form

open Context

variable {bounds : Bounds} {rules : RuleTable} {trail : List (Nat × Nat)} {levels height : Nat}
  {run : Runner input} {ctx : Context input}

/-- What extends a context does not change whether it is speculative, and so not the bounds. -/
theorem isBounded_keep {before after : Context input} {grammar : Grammar}
    (h : before.SameBook after)
    (hbounded : grammar.isBounded bounds before.inAttempt height = true) :
    grammar.isBounded bounds after.inAttempt height = true := by
  rw [h.inAttempt]
  exact hbounded

/-- A part that matched without a token leaves as much room, and one that consumed leaves more. -/
theorem isSome_seq (hrun : Covers bounds rules trail levels run) (hlaid : input.Laid)
    (hrules : ∀ rule body, rules rule = some body → body.consumes = true) (parts : List Grammar) :
    ∀ (sofar : Outcome) (ctx : Context input) (height : Nat), Room bounds trail levels height ctx →
      Grammar.seqBounded bounds parts ctx.inAttempt height = true →
      (seq run sofar parts ctx).isSome = true := by
  induction parts with
  | nil => exact fun _ _ _ _ _ => rfl
  | cons part rest ih =>
    intro sofar ctx height hroom hbounded
    unfold Grammar.seqBounded at hbounded
    obtain ⟨hpart, hrest⟩ := Bool.and_eq_true_iff.mp hbounded
    unfold seq
    refine isSome_bind (fun step after hstep => ?_) (hrun.answers part ctx height hroom hpart)
    have hextends := hrun.extending _ _ _ hstep
    have hinside := hextends.last_le hroom.inside
    dsimp only
    split
    case isFalse => rfl
    case isTrue hmatched =>
      rw [Outcome.success_merge] at hmatched
      rw [← hextends.inAttempt] at hrest
      by_cases hconsumes : part.consumes = true
      · rw [if_pos hconsumes] at hrest
        have hprogress := (hrun.matching _ _ _ _ hstep hmatched).place_lt hlaid hrules hconsumes
        exact ih _ _ _ (hroom.behind hinside hprogress) hrest
      · rw [if_neg hconsumes] at hrest
        exact ih _ _ _ (hroom.extend hinside hextends.place_le) hrest

/-- A child that runs in a transaction. -/
theorem isSome_started (hrun : Covers bounds rules trail levels run) {child : Grammar}
    (hroom : Room bounds trail levels height ctx)
    (hchild : child.isBounded bounds ctx.inAttempt height = true) :
    (run child ctx.start.2).isSome = true :=
  hrun.answers child ctx.start.2 height (hroom.of_place rfl) hchild

/-- Every alternative starts at the place of the choice, with all of its room. -/
theorem isSome_choose (hrun : Covers bounds rules trail levels run) (alternatives : List Grammar) :
    ∀ (sofar : Option Outcome) (ctx : Context input), Room bounds trail levels height ctx →
      (∀ alternative ∈ alternatives,
        alternative.isBounded bounds ctx.inAttempt height = true) →
      (choose run sofar alternatives ctx).isSome = true := by
  induction alternatives with
  | nil => exact fun _ _ _ _ => rfl
  | cons alternative rest ih =>
    intro sofar ctx hroom hbounded
    unfold choose
    refine isSome_bind (fun outcome after hstep => ?_)
      (isSome_started hrun hroom (hbounded _ List.mem_cons_self))
    split
    · rfl
    · have hrollback := (hrun.extending _ _ _ hstep).rollback
      refine ih _ _ (hroom.extend (hrollback.last_le hroom.inside) hrollback.place_le) ?_
      intro other hmem
      exact isBounded_keep hrollback.toSameBook (hbounded _ (List.mem_cons_of_mem _ hmem))

/-- One alternative keeps to the bound if all of them do. -/
theorem isBounded_of_mem {alternatives : List Grammar} {attempted : Bool}
    (h : Grammar.allBounded bounds alternatives attempted height = true) {alternative : Grammar}
    (hmem : alternative ∈ alternatives) :
    alternative.isBounded bounds attempted height = true := by
  induction alternatives with
  | nil => cases hmem
  | cons head rest ih =>
    unfold Grammar.allBounded at h
    obtain ⟨hhead, hrest⟩ := Bool.and_eq_true_iff.mp h
    cases hmem with
    | head => exact hhead
    | tail _ hmem => exact ih hrest hmem

/-- The candidates are some of the alternatives. -/
theorem isSome_choice (hrun : Covers bounds rules trail levels run) {self : Grammar}
    {alternatives : List Grammar} (hroom : Room bounds trail levels height ctx)
    (hbounded : Grammar.allBounded bounds alternatives ctx.inAttempt height = true) :
    (choice run self alternatives ctx).isSome = true := by
  unfold choice
  dsimp only
  split
  · rfl
  · exact isSome_choose hrun _ _ _ hroom fun alternative hmem =>
      isBounded_of_mem hbounded (Grammar.mem_of_mem_candidates hmem)

-- ====================================================== repetition

/-- A repetition goes on behind a token only, where there is room again. -/
theorem isSome_repeatFrom (hrun : Covers bounds rules trail levels run) (self child : Grammar)
    (least count : Nat) (sofar : Outcome) (ctx : Context input)
    (hroom : Room bounds trail levels height ctx)
    (hbounded : child.isBounded bounds ctx.inAttempt height = true) :
    (repeatFrom run self child least count sofar ctx).isSome = true := by
  fun_induction repeatFrom run self child least count sofar ctx with
  | case1 => rfl
  | case2 count sofar ctx hinside transaction opened hopen hnone =>
    cases hopen
    have hanswers := isSome_started hrun hroom hbounded
    rw [show run child ctx.start.2 = none from hnone] at hanswers
    cases hanswers
  | case3 count sofar ctx hinside place transaction opened hopen step after hstep hmatched
      hprogress ih =>
    cases hopen
    have hcommit : ctx.Extends (after.commit ctx.start.1) := (hrun.extending _ _ _ hstep).commit
    exact ih (hroom.extend (hcommit.last_le hroom.inside) hcommit.place_le)
      (isBounded_keep hcommit.toSameBook hbounded)
  | case4 | case5 | case6 => rfl

/-- A fold goes on behind a token only, where there is room again. -/
theorem isSome_foldFrom (hrun : Covers bounds rules trail levels run) (kind : NodeKind)
    (next : Grammar) (node : Marker ⊕ CompletedMarker) (sofar : Outcome) (ctx : Context input)
    (hroom : Room bounds trail levels height ctx)
    (hbounded : next.isBounded bounds ctx.inAttempt height = true) :
    (foldFrom run kind next node sofar ctx).isSome = true := by
  fun_induction foldFrom run kind next node sofar ctx with
  | case1 => rfl
  | case2 node sofar ctx hinside transaction opened hstart hnone =>
    cases hstart
    have hanswers := isSome_started hrun hroom hbounded
    rw [show run next ctx.start.2 = none from hnone] at hanswers
    cases hanswers
  | case3 node sofar ctx hinside place transaction opened hstart step after hstep hmatched
      done wrapped hwrap ih =>
    cases hstart
    have hcommit : ctx.Extends (after.commit ctx.start.1) := (hrun.extending _ _ _ hstep).commit
    obtain rfl : ((after.commit ctx.start.1).wrap node kind).2 = wrapped := congrArg Prod.snd hwrap
    refine ih (hroom.extend ?_ ?_) ?_
    · rw [place_wrap]
      exact hcommit.last_le hroom.inside
    · rw [place_wrap]
      exact hcommit.place_le
    · rw [inAttempt_wrap]
      exact isBounded_keep hcommit.toSameBook hbounded
  | case4 => rfl

/-- Behind a start that consumes there is room for the rest. -/
theorem room_behind (hrun : Covers bounds rules trail levels run) (hlaid : input.Laid)
    (hrules : ∀ rule body, rules rule = some body → body.consumes = true) {start : Grammar}
    {outcome : Outcome} {after : Context input} (hroom : Room bounds trail levels height ctx)
    (hconsumes : start.consumes = true) (h : run start ctx = some (outcome, after))
    (hsuccess : outcome.success = true) : Room bounds trail levels bounds.levels after :=
  hroom.behind ((hrun.extending _ _ _ h).last_le hroom.inside)
    ((hrun.matching _ _ _ _ h hsuccess).place_lt hlaid hrules hconsumes)

/-- The steps come behind the start, which has consumed a token. -/
theorem isSome_fold (hrun : Covers bounds rules trail levels run) (hlaid : input.Laid)
    (hrules : ∀ rule body, rules rule = some body → body.consumes = true) (kind : NodeKind)
    {start next : Grammar} (hroom : Room bounds trail levels height ctx)
    (hstart : start.isBounded bounds ctx.inAttempt height = true)
    (hconsumes : start.consumes = true)
    (hnext : next.isBounded bounds ctx.inAttempt bounds.levels = true) :
    (fold run kind start next ctx).isSome = true := by
  have hmarked : Room bounds trail levels height ctx.mark.2 := hroom.of_place rfl
  unfold fold
  refine isSome_bind (fun outcome after hstep => ?_)
    (hrun.answers start ctx.mark.2 _ hmarked hstart)
  split
  case isFalse => rfl
  case isTrue hmatched =>
    exact isSome_foldFrom hrun kind next _ _ _
      (room_behind hrun hlaid hrules hmarked hconsumes hstep hmatched)
      (isBounded_keep (hrun.extending _ _ _ hstep).toSameBook hnext)

/-- The rest comes behind the start, which has consumed a token. -/
theorem isSome_continuation (hrun : Covers bounds rules trail levels run) (hlaid : input.Laid)
    (hrules : ∀ rule body, rules rule = some body → body.consumes = true) (kind : NodeKind)
    {start rest : Grammar} (hroom : Room bounds trail levels height ctx)
    (hstart : start.isBounded bounds ctx.inAttempt height = true)
    (hconsumes : start.consumes = true)
    (hrest : rest.isBounded bounds ctx.inAttempt bounds.levels = true) :
    (continuation run kind start rest ctx).isSome = true := by
  have hmarked : Room bounds trail levels height ctx.mark.2 := hroom.of_place rfl
  unfold continuation
  refine isSome_bind (fun outcome after hstep => ?_)
    (hrun.answers start ctx.mark.2 _ hmarked hstart)
  split
  case isFalse => rfl
  case isTrue hmatched =>
    have hbehind := room_behind hrun hlaid hrules hmarked hconsumes hstep hmatched
    have hkept : ctx.mark.2.SameBook after := (hrun.extending _ _ _ hstep).toSameBook
    refine isSome_bind (fun more last _ => ?_)
      (isSome_started hrun hbehind (isBounded_keep hkept hrest))
    split
    · rfl
    · rfl

-- ==================================================== taking back

/-- The child starts at the place itself. -/
theorem isSome_optional (hrun : Covers bounds rules trail levels run) {child : Grammar}
    (hroom : Room bounds trail levels height ctx)
    (hchild : child.isBounded bounds ctx.inAttempt height = true) :
    (optional run child ctx).isSome = true := by
  unfold optional
  refine isSome_bind (fun outcome after _ => ?_) (isSome_started hrun hroom hchild)
  split
  · rfl
  · rfl

/-- The child starts at the place itself, and taking it back needs no run. -/
theorem isSome_whole (hrun : Covers bounds rules trail levels run) (self : Grammar)
    {child : Grammar} (hroom : Room bounds trail levels height ctx)
    (hchild : child.isBounded bounds ctx.inAttempt height = true) :
    (whole run self child ctx).isSome = true := by
  unfold whole
  refine isSome_bind (fun outcome after _ => ?_) (isSome_started hrun hroom hchild)
  split
  · rfl
  · rfl

/-- The child is run at the place, or not at all. -/
theorem isSome_heal (hrun : Covers bounds rules trail levels run) (self : Grammar) {child : Grammar}
    (hroom : Room bounds trail levels height ctx)
    (hchild : child.isBounded bounds ctx.inAttempt height = true) :
    (heal run self child ctx).isSome = true := by
  unfold heal
  split
  · exact isSome_whole hrun self hroom hchild
  · rfl

/-- The bound is that of the child in an attempt. -/
theorem isSome_attempt (hrun : Covers bounds rules trail levels run) (self : Grammar)
    {child : Grammar} (hroom : Room bounds trail levels height ctx)
    (hchild : child.isBounded bounds true height = true) :
    (attempt run self child ctx).isSome = true := by
  unfold attempt
  split
  · have hspeculative : Room bounds trail levels height (ctx.setInAttempt true) :=
      hroom.of_place rfl
    exact isSome_bind (fun outcome after _ => rfl) (isSome_whole hrun self hspeculative hchild)
  · rfl

/-- Accepting and rejecting need no run. -/
theorem isSome_guard (hrun : Covers bounds rules trail levels run) (self : Grammar)
    (message : String) (accepts : String → Bool) {child : Grammar}
    (hroom : Room bounds trail levels height ctx)
    (hchild : child.isBounded bounds ctx.inAttempt height = true) :
    (guard run self child message accepts ctx).isSome = true := by
  unfold guard
  refine isSome_bind (fun outcome after _ => ?_) (isSome_started hrun hroom hchild)
  split
  · split
    · rfl
    · rfl
  · split
    · rfl
    · rfl

-- ================================================= nodes and labels

/-- A node nests its child and nothing else. -/
theorem isSome_node (hrun : Covers bounds rules trail levels run) (kind : NodeKind)
    {child : Grammar} (hroom : Room bounds trail levels height ctx)
    (hchild : child.isBounded bounds ctx.inAttempt height = true) :
    (node run kind child ctx).isSome = true := by
  unfold node
  split
  · refine isSome_bind (fun outcome after _ => ?_)
      (hrun.answers child ctx.mark.2 height (hroom.of_place rfl) hchild)
    split
    · rfl
    · rfl
  · rfl

/-- A label nests its child and nothing else. -/
theorem isSome_labeled (hrun : Covers bounds rules trail levels run) (self : Grammar)
    {child : Grammar} (hroom : Room bounds trail levels height ctx)
    (hchild : child.isBounded bounds ctx.inAttempt height = true) :
    (labeled run self child ctx).isSome = true := by
  unfold labeled
  refine isSome_bind (fun outcome after _ => ?_) (hrun.answers child ctx height hroom hchild)
  split
  · rfl
  · rfl

/-- The child is run at the place, or not at all. -/
theorem isSome_lookahead (hrun : Covers bounds rules trail levels run) (self : Grammar)
    (holds : View → Bool) {child : Grammar} (hroom : Room bounds trail levels height ctx)
    (hchild : child.isBounded bounds ctx.inAttempt height = true) :
    (lookahead run self child holds ctx).isSome = true := by
  unfold lookahead
  split
  · exact hrun.answers child ctx height hroom hchild
  · rfl

/-- The body of a rule answers within the bound of the rule. -/
theorem isSome_reference (hrun : Covers bounds rules trail levels run) (self : Grammar)
    (name : String) {body? : Option Grammar} (hroom : Room bounds trail levels height ctx)
    (hbody : ∀ body, body? = some body → body.isBounded bounds ctx.inAttempt height = true) :
    (reference run self name body? ctx).isSome = true := by
  unfold reference
  split
  · exact hrun.answers _ ctx height hroom (hbody _ rfl)
  · rfl

-- ========================================================= recovery

/-- Where the child is taken back, the recovery has the room of the child. -/
theorem isSome_orRecover (hrun : Covers bounds rules trail levels run) {child : Grammar}
    {recover : Context input → Reply input} (hroom : Room bounds trail levels height ctx)
    (hchild : child.isBounded bounds ctx.inAttempt height = true)
    (hrecover : ∀ after : Context input, Room bounds trail levels height after →
      (recover after).isSome = true) : (orRecover run child recover ctx).isSome = true := by
  unfold orRecover
  split
  · exact hrun.answers child ctx height hroom hchild
  · refine isSome_bind (fun outcome after _ => ?_) (isSome_started hrun hroom hchild)
    split
    · rfl
    · exact hrecover _ (hroom.of_place rfl)

theorem isSome_relax (hrun : Covers bounds rules trail levels run) (message : String)
    {child : Grammar} (hroom : Room bounds trail levels height ctx)
    (hchild : child.isBounded bounds ctx.inAttempt height = true) :
    (relax run message child ctx).isSome = true := by
  unfold relax
  exact isSome_orRecover hrun hroom hchild fun _ _ => rfl

/-- Skipping comes to an end: a tree is more than no token. -/
theorem isSome_skipTo (hrun : Covers bounds rules trail levels run) (hlaid : input.Laid)
    {sync : Grammar} (ctx : Context input) (hroom : Room bounds trail levels height ctx)
    (hsync : sync.isBounded bounds true height = true) : (skipTo run sync ctx).isSome = true := by
  fun_induction skipTo run sync ctx with
  | case1 | case2 | case4 => rfl
  | case3 ctx _ _ hnone =>
    have hanswers := hrun.answers sync (ctx.start.2.setInAttempt true) height
      (hroom.of_place rfl) hsync
    unfold syncMatches at hnone
    dsimp only at hnone
    split at hnone
    case h_1 heq =>
      rw [heq] at hanswers
      cases hanswers
    case h_2 => cases hnone
  | case5 ctx _ _ last hmatches place skipped hprogress ih =>
    refine ih (hroom.extend ?_ (Nat.le_of_lt hprogress))
    refine (Skips.skipTokenTree last).inside ?_
    rw [place_syncMatches hmatches]
    exact hroom.inside
  | case6 ctx hend hstop last hmatches place skipped hstuck =>
    have hplace := place_syncMatches hmatches
    have hkind : last.kind = ctx.kind := by
      unfold Context.kind
      rw [hplace]
    have hopen : last.kind ≠ .layoutEnd := by
      rw [hkind]
      exact fun heq => hstop (by unfold Context.isAt; rw [heq]; rfl)
    have hroot : anyRoot last.kind = true := rfl
    have hprogress := (trees_skipTokenTree hlaid (hplace ▸ place_lt_size hend) hopen hroot).2
    rw [hplace] at hprogress
    exact absurd hprogress hstuck

/-- Skipping starts behind a tree that is there. -/
theorem isSome_skipMalformed (hrun : Covers bounds rules trail levels run) (hlaid : input.Laid)
    {sync : Grammar} (message : String) (hroom : Room bounds trail levels height ctx)
    (hsync : sync.isBounded bounds true height = true) :
    (skipMalformed run sync message ctx).isSome = true := by
  unfold skipMalformed
  split
  · rfl
  · have hskips := Skips.skipTokenTree ctx.mark.2
    have hskip := isSome_skipTo hrun hlaid ctx.mark.2.skipTokenTree.2
      (hroom.extend (hskips.inside hroom.inside) hskips.onward) hsync
    dsimp only
    split
    case h_1 hnone =>
      rw [hnone] at hskip
      cases hskip
    case h_2 => rfl

end Form

namespace Grammar

open Form

variable {bounds : Bounds} {rules : RuleTable} {trail : List (Nat × Nat)} {levels : Nat}
  {run : Runner input} {ok : Grammar → Context input → Outcome × Context input → Prop}

/-- One level of a run covers one level more than what is below. -/
theorem isSome_runLevel (hfit : bounds.Fit rules) (hlaid : input.Laid)
    (hrun : Covers bounds rules trail levels run) (grammar : Grammar) (ctx : Context input)
    (height : Nat) (hroom : Room bounds trail (levels + 1) height ctx)
    (hbounded : grammar.isBounded bounds ctx.inAttempt height = true) :
    (runLevel rules run grammar ctx).isSome = true := by
  cases height with
  | zero =>
    unfold isBounded at hbounded
    cases hbounded
  | succ height =>
    -- the run of the grammar itself takes one level, and its children have the rest
    have hbelow := hroom.below
    cases grammar with
    | token | literal | succeed => rfl
    | seq parts =>
      unfold isBounded at hbounded
      exact isSome_seq hrun hlaid hfit.consumes parts _ _ _ hbelow hbounded
    | choice alternatives =>
      unfold isBounded at hbounded
      exact isSome_choice hrun hbelow hbounded
    | many child least =>
      unfold isBounded at hbounded
      exact isSome_repeatFrom hrun _ child least 0 _ _ hbelow (Bool.and_eq_true_iff.mp hbounded).1
    | optional child =>
      unfold isBounded at hbounded
      exact isSome_optional hrun hbelow hbounded
    | attempt child =>
      unfold isBounded at hbounded
      exact isSome_attempt hrun _ hbelow hbounded
    | heal child =>
      unfold isBounded at hbounded
      exact isSome_heal hrun _ hbelow hbounded
    | guard child message accepts =>
      unfold isBounded at hbounded
      exact isSome_guard hrun _ message accepts hbelow hbounded
    | node kind child =>
      unfold isBounded at hbounded
      exact isSome_node hrun kind hbelow hbounded
    | labeled label child =>
      unfold isBounded at hbounded
      exact isSome_labeled hrun _ hbelow hbounded
    | relax message child =>
      unfold isBounded at hbounded
      obtain ⟨hattempted, hchild⟩ := Bool.and_eq_true_iff.mp hbounded
      -- recovery is bounded outside of attempts only
      rw [← show ctx.inAttempt = false by simpa using hattempted] at hchild
      exact isSome_relax hrun message hbelow hchild
    | relaxTo message child sync =>
      unfold isBounded at hbounded
      obtain ⟨hbounded, _⟩ := Bool.and_eq_true_iff.mp hbounded
      obtain ⟨hbounded, hsync⟩ := Bool.and_eq_true_iff.mp hbounded
      obtain ⟨hattempted, hchild⟩ := Bool.and_eq_true_iff.mp hbounded
      rw [← show ctx.inAttempt = false by simpa using hattempted] at hchild
      exact isSome_orRecover hrun hbelow hchild fun after hroom =>
        isSome_skipMalformed hrun hlaid message hroom hsync
    | fold kind start next =>
      unfold isBounded at hbounded
      obtain ⟨hbounded, _⟩ := Bool.and_eq_true_iff.mp hbounded
      obtain ⟨hbounded, hnext⟩ := Bool.and_eq_true_iff.mp hbounded
      obtain ⟨hstart, hconsumes⟩ := Bool.and_eq_true_iff.mp hbounded
      exact isSome_fold hrun hlaid hfit.consumes kind hbelow hstart hconsumes hnext
    | continuation kind start rest =>
      unfold isBounded at hbounded
      obtain ⟨hbounded, hrest⟩ := Bool.and_eq_true_iff.mp hbounded
      obtain ⟨hstart, hconsumes⟩ := Bool.and_eq_true_iff.mp hbounded
      exact isSome_continuation hrun hlaid hfit.consumes kind hbelow hstart hconsumes hrest
    | reference name rule =>
      unfold isBounded at hbounded
      obtain ⟨hheight, hplain⟩ := Bool.and_eq_true_iff.mp hbounded
      -- what a rule is bounded by is less than the height of the reference to it
      exact isSome_reference hrun _ name (hbelow.lower (of_decide_eq_true hheight))
        fun body hbody => hfit.isBounded_body hbody hplain
    | lookahead holds child =>
      unfold isBounded at hbounded
      exact isSome_lookahead hrun _ holds hbelow hbounded
    | capture name select =>
      unfold isBounded at hbounded
      cases hbounded

/-- The checked run answers wherever there is room, if the runs that answer have
wanted replies. -/
theorem covers_runChecked (hfit : bounds.Fit rules) (hlaid : input.Laid)
    (hok : ∀ (levels height : Nat) (grammar : Grammar) (ctx : Context input)
      (reply : Outcome × Context input), ctx.place ≤ input.size →
      grammar.isBounded bounds ctx.inAttempt height = true →
      runWithin rules levels grammar ctx = some reply → ok grammar ctx reply) (levels : Nat) :
    Covers bounds rules [] levels (runChecked ok rules levels) := by
  induction levels with
  | zero =>
    refine .ofRuns (fun _ _ _ => runWithin_of_runChecked)
      fun grammar ctx height hroom hbounded => ?_
    rw [hroom.not_isBounded] at hbounded
    cases hbounded
  | succ levels ih =>
    refine .ofRuns (fun _ _ _ => runWithin_of_runChecked)
      fun grammar ctx height hroom hbounded => ?_
    obtain ⟨⟨outcome, after⟩, hreply⟩ := Option.isSome_iff_exists.mp
      (isSome_runLevel hfit hlaid ih grammar ctx height hroom hbounded)
    obtain ⟨_, _, hrun, rfl, halike⟩ := Likeness.simulates_runLevel (simulates_runChecked levels)
      rules grammar ctx ctx (.refl ctx) outcome after hreply
    rw [← halike.eq trivial, ← runWithin_succ] at hrun
    unfold runChecked
    have hwanted : ok grammar ctx (outcome, after) := hok _ _ _ _ _ hroom.inside hbounded hrun
    simp [hreply, Option.filter_some, hwanted]

end Grammar

end Offside
