import Offside.Proofs.Parse.Cases

/-!
What a run starts with.

The kinds of token that a grammar can start with, and whether it can match
nothing, are read off the grammar without running it. Here they are held
against runs. `Admitted` is what a run at a token owes them: it has consumed
that token only if the kind is among the first ones, and it has succeeded
without consuming only if the grammar can match nothing, or may start anyhow.

# Heads

What follows a head that can match nothing may come first itself. A sequence
accounts for that, and a fold or a continuation does not: their first kinds are
those of the start alone. So the statement is for grammars whose heads consume
(`headsConsume`), and `first_misses_step` shows what goes wrong in another one.
A rule or a captured grammar may start with anything, so nothing is asked of
the grammars behind it.
-/

namespace Offside

namespace Grammar

mutual

/-- Whether no start of a fold or of a continuation can match nothing, of those that
the kinds to start with are read off. -/
def headsConsume : Grammar → Bool
  | .token _ | .literal _ | .succeed | .reference .. | .capture .. | .relaxTo .. => true
  | .seq parts => allHeadsConsume parts
  | .choice alternatives => allHeadsConsume alternatives
  | .many child _ | .optional child | .relax _ child | .attempt child | .heal child
  | .guard child .. | .node _ child | .labeled _ child | .lookahead _ child => child.headsConsume
  | .fold _ start _ | .continuation _ start _ => !start.isNullable && start.headsConsume

/-- Whether that holds of all grammars. -/
def allHeadsConsume : List Grammar → Bool
  | [] => true
  | grammar :: rest => grammar.headsConsume && allHeadsConsume rest

end

theorem allHeadsConsume_iff {grammars : List Grammar} :
    allHeadsConsume grammars = true ↔ ∀ grammar ∈ grammars, grammar.headsConsume = true := by
  induction grammars with
  | nil => simp [allHeadsConsume]
  | cons grammar rest ih => simp [allHeadsConsume, ih]

end Grammar

namespace TokenSet

theorem contains_single (kind : TokenKind) : (single kind).contains kind = true := by
  have hindex : kind.index < 128 := by cases kind <;> decide
  show (BitVec.twoPow 128 kind.index).getLsbD kind.index = true
  rw [BitVec.getLsbD_twoPow]
  simp [hindex]

theorem eq_of_contains_single {kind other : TokenKind} (h : (single kind).contains other = true) :
    kind = other := by
  change (BitVec.twoPow 128 kind.index).getLsbD other.index = true at h
  rw [BitVec.getLsbD_twoPow, Bool.and_eq_true_iff, decide_eq_true_eq, decide_eq_true_eq] at h
  apply Option.some.inj
  rw [← TokenKind.ofIndex?_index kind, h.2, TokenKind.ofIndex?_index]

end TokenSet

namespace FirstSet

/-- What comes first in either comes first in both together. -/
theorem admits_union (first second : FirstSet) (kind : TokenKind) :
    (first.union second).admits kind = (first.admits kind || second.admits kind) := by
  cases first with
  | any => rfl
  | tokens set =>
    cases second with
    | any => exact (Bool.or_true _).symm
    | tokens other => exact BitVec.getLsbD_or

theorem union_eq_any (first second : FirstSet) :
    first.union second = .any ↔ first = .any ∨ second = .any := by
  cases first <;> cases second <;> simp [union]

end FirstSet

-- ================================================== what a run owes

variable {input : Input}

/-- A run with these first kinds, which can match nothing if `nullable`. -/
structure Admitted (first : FirstSet) (nullable : Bool) (ctx : Context input)
    (reply : Outcome × Context input) : Prop where
  /-- Only one of the first kinds is consumed. -/
  consumed : ctx.place < reply.2.place → first.admits ctx.kind = true
  /-- Nothing is matched only if that can be. -/
  stayed : reply.1.success = true → reply.2.place ≤ ctx.place → nullable = true ∨ first = .any

/-- Runs of grammars whose heads consume start with the first kinds. -/
def Admitting (run : Runner input) : Prop :=
  ∀ (grammar : Grammar) (ctx : Context input) (reply : Outcome × Context input),
    run grammar ctx = some reply → grammar.headsConsume = true →
      Admitted grammar.first grammar.isNullable ctx reply

namespace Admitted

variable {first other : FirstSet} {nullable : Bool} {ctx start : Context input}
  {reply result : Outcome × Context input}

/-- Where anything may come first, nothing is owed. -/
theorem of_any (nullable : Bool) (ctx : Context input) (reply : Outcome × Context input) :
    Admitted .any nullable ctx reply :=
  ⟨fun _ => rfl, fun _ _ => .inr rfl⟩

/-- A run that fails without consuming owes nothing. -/
theorem of_failed (hplace : reply.2.place ≤ ctx.place) (hfailed : reply.1.success = false) :
    Admitted first nullable ctx reply := by
  refine ⟨fun hlt => absurd hlt (Nat.not_lt_of_le hplace), fun hsuccess => ?_⟩
  rw [hfailed] at hsuccess
  cases hsuccess

/-- A run that consumes nothing may succeed where nothing can be matched. -/
theorem of_nullable (hplace : reply.2.place ≤ ctx.place) : Admitted first true ctx reply :=
  ⟨fun hlt => absurd hlt (Nat.not_lt_of_le hplace), fun _ _ => .inl rfl⟩

/-- The reply of a run that did what another one did at the same place. -/
theorem transfer (h : Admitted first nullable start result) (hstart : start.place = ctx.place)
    (hplace : reply.2.place = result.2.place)
    (hsuccess : reply.1.success = true → result.1.success = true) :
    Admitted first nullable ctx reply := by
  have hkind : start.kind = ctx.kind := by
    unfold Context.kind
    rw [hstart]
  refine ⟨fun hlt => ?_, fun hmatched hle => ?_⟩
  · rw [← hkind]
    exact h.consumed (by omega)
  · exact h.stayed (hsuccess hmatched) (by omega)

/-- More may come first, and it may be possible to match nothing. -/
theorem weaken {more : Bool} (h : Admitted first nullable ctx reply)
    (hnullable : nullable = true → more = true) : Admitted first more ctx reply :=
  ⟨h.consumed, fun hsuccess hplace => (h.stayed hsuccess hplace).imp_left hnullable⟩

/-- What the left side admits is admitted by both together. -/
theorem union_left {other : FirstSet} {more : Bool} (h : Admitted first nullable ctx reply)
    (hnullable : nullable = true → more = true) : Admitted (first.union other) more ctx reply := by
  refine ⟨fun hlt => ?_, fun hsuccess hplace => ?_⟩
  · rw [FirstSet.admits_union, h.consumed hlt]
    rfl
  · exact (h.stayed hsuccess hplace).imp hnullable
      fun hany => (FirstSet.union_eq_any ..).mpr (.inl hany)

theorem union_right {other : FirstSet} {more : Bool} (h : Admitted other nullable ctx reply)
    (hnullable : nullable = true → more = true) : Admitted (first.union other) more ctx reply := by
  refine ⟨fun hlt => ?_, fun hsuccess hplace => ?_⟩
  · rw [FirstSet.admits_union, h.consumed hlt, Bool.or_true]
  · exact (h.stayed hsuccess hplace).imp hnullable
      fun hany => (FirstSet.union_eq_any ..).mpr (.inr hany)

end Admitted

-- ============================================================ forms

namespace Form

open Context Grammar

variable {run : Runner input} {ctx : Context input} {reply : Outcome × Context input}

/-- A token consumes its own kind and matches nothing else. -/
theorem admitted_token (self : Grammar) (kind : TokenKind) (ctx : Context input) :
    Admitted (.tokens (.single kind)) false ctx (single self (ctx.isAt kind) ctx) := by
  fun_cases single self (ctx.isAt kind) ctx with
  | case1 hmatch =>
    obtain ⟨hend, hkind⟩ := Bool.and_eq_true_iff.mp hmatch
    have hinside : ¬ctx.atEnd = true := by simpa using hend
    refine ⟨fun _ => ?_, fun _ hle => absurd (place_lt_advance hinside) (Nat.not_lt_of_le hle)⟩
    rw [show ctx.kind = kind from eq_of_beq hkind]
    exact TokenSet.contains_single kind
  | case2 => exact .of_failed (Nat.le_refl _) rfl

/-- The parts of a sequence move on, or stay. -/
theorem place_le_seq (hextending : Extending run) (parts : List Grammar) {sofar : Outcome}
    (h : seq run sofar parts ctx = some reply) : ctx.place ≤ reply.2.place := by
  obtain ⟨outcome, after⟩ := reply
  induction parts generalizing sofar ctx with
  | nil =>
    cases h
    exact Nat.le_refl _
  | cons part rest ih =>
    obtain ⟨step, between, hpart, hcases⟩ := seq_cases h
    have honward : ctx.place ≤ between.place := (hextending _ _ _ hpart).place_le
    rcases hcases with ⟨_, hrest⟩ | ⟨_, _, rfl⟩
    · exact Nat.le_trans honward (ih hrest)
    · exact honward

/-- The first part that consumes anything decides on the token. Parts before it have matched
nothing, so their kinds and those of the next part come first together. -/
theorem admitted_seq (hrun : Admitting run) (hextending : Extending run) (parts : List Grammar) :
    ∀ (sofar : Outcome) (ctx : Context input), seq run sofar parts ctx = some reply →
      allHeadsConsume parts = true →
      Admitted (firstOfSeq parts) (allNullable parts) ctx reply := by
  obtain ⟨outcome, after⟩ := reply
  induction parts with
  | nil =>
    intro sofar ctx h _
    cases h
    exact .of_nullable (Nat.le_refl _)
  | cons part rest ih =>
    intro sofar ctx h hheads
    obtain ⟨hpartHeads, hrestHeads⟩ := Bool.and_eq_true_iff.mp hheads
    obtain ⟨step, between, hpart, hcases⟩ := seq_cases h
    have hfirst := hrun _ _ _ hpart hpartHeads
    unfold firstOfSeq allNullable
    rcases hcases with ⟨hmatched, h⟩ | ⟨hfailed, houtcome, hafter⟩
    case inr =>
      -- the part failed, and with it the sequence
      have hends : Admitted part.first false ctx (outcome, after) :=
        ⟨fun hlt => hfirst.consumed (hafter ▸ hlt), fun hsuccess => by
          rw [houtcome] at hsuccess
          cases hsuccess⟩
      split
      · exact hends.union_left nofun
      · exact hends.weaken nofun
    case inl =>
      have hrest := ih _ _ h hrestHeads
      have honward : ctx.place ≤ between.place := (hextending _ _ _ hpart).place_le
      have hlater : between.place ≤ after.place := place_le_seq hextending rest h
      by_cases hprogress : ctx.place < between.place
      · -- the part consumed the token
        have hends : Admitted part.first false ctx (outcome, after) :=
          ⟨fun _ => hfirst.consumed hprogress, fun _ hle =>
            absurd hprogress (Nat.not_lt_of_le (Nat.le_trans hlater hle))⟩
        split
        · exact hends.union_left nofun
        · exact hends.weaken nofun
      · -- the part matched nothing, so what follows it comes first
        have hsame : between.place = ctx.place := by omega
        have hbehind : Admitted (firstOfSeq rest) (allNullable rest) ctx (outcome, after) :=
          hrest.transfer hsame rfl id
        rcases hfirst.stayed hmatched (Nat.le_of_not_lt hprogress) with hnullable | hany
        · rw [if_pos hnullable, hnullable]
          exact hbehind.union_right id
        · rw [hany]
          split
          · exact .of_any _ _ _
          · exact .of_any _ _ _

/-- What one alternative admits the choice admits. -/
theorem first_of_mem {alternative : Grammar} {alternatives : List Grammar}
    (hmem : alternative ∈ alternatives)
    (h : Admitted alternative.first alternative.isNullable ctx reply) :
    Admitted (firstOfChoice alternatives) (anyNullable alternatives) ctx reply := by
  induction alternatives with
  | nil => cases hmem
  | cons head rest ih =>
    unfold firstOfChoice anyNullable
    rcases List.mem_cons.mp hmem with rfl | hmem
    · exact h.union_left fun hnullable => by rw [hnullable]; rfl
    · exact (ih hmem).union_right fun hnullable => by rw [hnullable, Bool.or_true]

/-- The reply is that of a candidate, which is one of the alternatives, or a failure that
consumed nothing. -/
theorem admitted_choice (hrun : Admitting run) (hextending : Extending run) {self : Grammar}
    {alternatives : List Grammar} (h : choice run self alternatives ctx = some reply)
    (hheads : allHeadsConsume alternatives = true) :
    Admitted (firstOfChoice alternatives) (anyNullable alternatives) ctx reply := by
  obtain ⟨outcome, after⟩ := reply
  unfold choice at h
  dsimp only at h
  split at h
  case isTrue =>
    cases h
    exact .of_failed (Nat.le_refl _) rfl
  case isFalse =>
    rcases choose_cases hextending _ none ctx nofun h with
      ⟨before, alternative, behind, nextId, step, between, hsplit, _, htaken, _, hsuccess,
        hplace, _⟩ | ⟨_, hfailed, nextId, rfl⟩
    case inr => exact .of_failed (Nat.le_refl _) hfailed
    case inl =>
      have hmem : alternative ∈ alternatives := by
        have hcandidate : alternative ∈ candidates alternatives ctx.kind := by
          rw [hsplit]
          exact List.mem_append_right _ List.mem_cons_self
        exact mem_of_mem_candidates hcandidate
      have hadmitted := hrun _ _ _ htaken (allHeadsConsume_iff.mp hheads _ hmem)
      exact first_of_mem hmem (hadmitted.transfer rfl hplace fun hmatched => hsuccess ▸ hmatched)

/-- The matches of a repetition move on, or stay. -/
theorem place_le_repeatFrom (hextending : Extending run) (self child : Grammar)
    (least count : Nat) (sofar : Outcome) (ctx : Context input)
    (h : repeatFrom run self child least count sofar ctx = some reply) :
    ctx.place ≤ reply.2.place := by
  fun_induction repeatFrom run self child least count sofar ctx with
  | case1 =>
    cases h
    exact Nat.le_refl _
  | case2 => cases h
  | case3 count sofar ctx hinside place transaction opened hopen step after hstep hmatched
      hprogress ih =>
    cases hopen
    exact Nat.le_trans (Nat.le_of_lt hprogress) (ih h)
  | case4 count sofar ctx hinside place transaction opened hopen step after hstep =>
    cases hopen
    cases h
    exact Nat.le_refl _
  | case5 count sofar ctx hinside place transaction opened hopen step after hstep =>
    cases hopen
    cases h
    exact (hextending _ _ _ hstep).place_le
  | case6 count sofar ctx hinside place transaction opened hopen step after hstep =>
    cases hopen
    cases h
    exact Nat.le_refl _

/-- The first match decides on the token. Without one the repetition has matched nothing,
which is enough only if none is required or the child matches nothing itself. -/
theorem admitted_many (hrun : Admitting run) (hextending : Extending run) {self child : Grammar}
    {least : Nat} {sofar : Outcome}
    (h : repeatFrom run self child least 0 sofar ctx = some reply)
    (hheads : child.headsConsume = true) :
    Admitted child.first (least == 0 || child.isNullable) ctx reply := by
  unfold repeatFrom at h
  split at h
  case isTrue =>
    -- the tokens have ended
    cases h
    refine ⟨fun hlt => absurd hlt (Nat.lt_irrefl _), fun hsuccess _ => .inl ?_⟩
    rcases Nat.eq_zero_or_pos least with rfl | hpos
    · rfl
    · rw [if_pos hpos, Outcome.success_merge] at hsuccess
      cases hsuccess
  case isFalse =>
    dsimp only at h
    obtain ⟨step, between, hchild, h⟩ := reply_bind h
    have hadmitted : Admitted child.first child.isNullable ctx (step, between) :=
      (hrun _ _ _ hchild hheads).transfer rfl rfl id
    have honward := (hextending _ _ _ hchild).place_le
    split at h
    case isTrue hmatched =>
      split at h
      case isTrue hprogress =>
        -- the first match consumed the token
        have hlater := place_le_repeatFrom hextending _ _ _ _ _ _ h
        rw [place_commit] at hlater
        exact ⟨fun _ => hadmitted.consumed hprogress, fun _ hle => absurd hle (by omega)⟩
      case isFalse =>
        cases h
        refine .of_failed (Nat.le_refl _) ?_
        rw [Outcome.success_merge]
        rfl
    case isFalse hfailed =>
      split at h
      case isTrue hprogress =>
        cases h
        refine ⟨hadmitted.consumed, fun hsuccess => ?_⟩
        rw [Outcome.success_merge] at hsuccess
        exact absurd hsuccess hfailed
      case isFalse =>
        cases h
        refine ⟨fun hlt => absurd hlt (Nat.lt_irrefl _), fun hsuccess _ => .inl ?_⟩
        have hleast : least ≤ 0 := of_decide_eq_true hsuccess
        rw [Nat.le_zero.mp hleast]
        rfl

/-- The steps of a fold move on, or stay. -/
theorem place_le_foldFrom (kind : NodeKind) (next : Grammar)
    (node : Marker ⊕ CompletedMarker) (sofar : Outcome) (ctx : Context input)
    (h : foldFrom run kind next node sofar ctx = some reply) : ctx.place ≤ reply.2.place := by
  fun_induction foldFrom run kind next node sofar ctx with
  | case1 =>
    cases h
    rw [place_abandonUnwrapped]
  | case2 => cases h
  | case3 node sofar ctx hinside place transaction opened hopen step between hstep hmatched
      done wrapped hwrap ih =>
    cases hopen
    have hplace : wrapped.place = between.place :=
      (place_of_wrap hwrap).trans (place_commit between _)
    have hlater := ih h
    have hprogress : ctx.place < between.place := hmatched.2
    omega
  | case4 node sofar ctx hinside place transaction opened hopen step between hstep =>
    cases hopen
    cases h
    rw [place_abandonUnwrapped]
    exact Nat.le_refl _

/-- A start that cannot match nothing, and what goes on from it. -/
theorem admitted_headed {start : Grammar} {step : Outcome} {between : Context input}
    (hstart : Admitted start.first start.isNullable ctx (step, between))
    (hhead : start.isNullable = false) (honward : between.place ≤ reply.2.place)
    (hmatched : step.success = true) :
    Admitted start.first start.isNullable ctx reply := by
  by_cases hprogress : ctx.place < between.place
  · exact ⟨fun _ => hstart.consumed hprogress, fun _ hle => absurd hle (by omega)⟩
  · rcases hstart.stayed hmatched (Nat.le_of_not_lt hprogress) with hnullable | hany
    · rw [hhead] at hnullable
      cases hnullable
    · rw [hany]
      exact .of_any _ _ _

/-- The start of a fold consumes, so that no step of it comes first. -/
theorem admitted_fold (hrun : Admitting run) {kind : NodeKind} {start next : Grammar}
    (h : fold run kind start next ctx = some reply)
    (hhead : start.isNullable = false) (hheads : start.headsConsume = true) :
    Admitted start.first start.isNullable ctx reply := by
  unfold fold at h
  dsimp only at h
  obtain ⟨step, between, hstart, h⟩ := reply_bind h
  have hadmitted : Admitted start.first start.isNullable ctx (step, between) :=
    (hrun _ _ _ hstart hheads).transfer rfl rfl id
  split at h
  case isTrue hmatched =>
    exact admitted_headed hadmitted hhead (place_le_foldFrom _ _ _ _ _ h) hmatched
  case isFalse =>
    cases h
    exact hadmitted.transfer rfl rfl id

/-- The start of a continuation consumes, so that its rest does not come first. -/
theorem admitted_continuation (hrun : Admitting run) (hextending : Extending run)
    {kind : NodeKind} {start rest : Grammar}
    (h : continuation run kind start rest ctx = some reply)
    (hhead : start.isNullable = false) (hheads : start.headsConsume = true) :
    Admitted start.first start.isNullable ctx reply := by
  unfold continuation at h
  dsimp only at h
  obtain ⟨step, between, hstart, h⟩ := reply_bind h
  have hadmitted : Admitted start.first start.isNullable ctx (step, between) :=
    (hrun _ _ _ hstart hheads).transfer rfl rfl id
  split at h
  case isFalse =>
    cases h
    exact hadmitted.transfer rfl rfl id
  case isTrue hmatched =>
    obtain ⟨more, last, hrest, h⟩ := reply_bind h
    refine admitted_headed hadmitted hhead ?_ hmatched
    split at h
    · cases h
      exact (hextending _ _ _ hrest).place_le
    · cases h
      exact Nat.le_refl _

/-- An optional child may match nothing, and else it is the child that comes first. -/
theorem admitted_optional (hrun : Admitting run) {child : Grammar}
    (h : Form.optional run child ctx = some reply) (hheads : child.headsConsume = true) :
    Admitted child.first true ctx reply := by
  unfold Form.optional at h
  dsimp only at h
  obtain ⟨step, between, hchild, h⟩ := reply_bind h
  have hadmitted := hrun _ _ _ hchild hheads
  split at h
  · cases h
    exact (hadmitted.weaken fun _ => rfl).transfer rfl rfl id
  · cases h
    exact .of_nullable (Nat.le_refl _)

/-- What is taken back owes nothing, and what stays is the child's. -/
theorem admitted_whole (hrun : Admitting run) {self child : Grammar}
    (h : whole run self child ctx = some reply) (hheads : child.headsConsume = true) :
    Admitted child.first child.isNullable ctx reply := by
  obtain ⟨step, between, hchild, ⟨_, houtcome, hafter⟩ | ⟨_, hfailed, hafter⟩⟩ := whole_cases h
  · refine (hrun _ _ _ hchild hheads).transfer rfl ?_ fun hsuccess => houtcome ▸ hsuccess
    rw [hafter, place_commit]
  · refine .of_failed ?_ hfailed
    rw [hafter, place_rollback]
    exact Nat.le_refl _

/-- A token that does not start the child is refused before it is run. -/
theorem admitted_heal (hrun : Admitting run) {self child : Grammar}
    (h : heal run self child ctx = some reply) (hheads : child.headsConsume = true) :
    Admitted child.first child.isNullable ctx reply := by
  unfold heal at h
  split at h
  · exact admitted_whole hrun h hheads
  · cases h
    exact .of_failed (Nat.le_refl _) rfl

/-- Being speculative changes nothing in what comes first. -/
theorem admitted_attempt (hrun : Admitting run) {self child : Grammar}
    (h : attempt run self child ctx = some reply) (hheads : child.headsConsume = true) :
    Admitted child.first child.isNullable ctx reply := by
  unfold attempt at h
  split at h
  case isTrue =>
    dsimp only at h
    obtain ⟨outcome, after, hwhole, h⟩ := reply_bind h
    cases h
    exact (admitted_whole hrun hwhole hheads).transfer rfl rfl id
  case isFalse =>
    cases h
    exact .of_failed (Nat.le_refl _) rfl

/-- What is not accepted is taken back and owes nothing. -/
theorem admitted_guard (hrun : Admitting run) {self child : Grammar} {message : String}
    {accepts : String → Bool} (h : Form.guard run self child message accepts ctx = some reply)
    (hheads : child.headsConsume = true) :
    Admitted child.first child.isNullable ctx reply := by
  unfold Form.guard at h
  dsimp only at h
  obtain ⟨step, between, hchild, h⟩ := reply_bind h
  have hadmitted := hrun _ _ _ hchild hheads
  split at h
  case isTrue =>
    split at h
    · cases h
      exact hadmitted.transfer rfl rfl id
    · cases h
      exact .of_failed (Nat.le_refl _) rfl
  case isFalse hfailed =>
    split at h
    · cases h
      exact hadmitted.transfer rfl rfl id
    · cases h
      exact .of_failed (Nat.le_refl _) (Bool.eq_false_iff.mpr hfailed)

/-- A node starts with what its child starts with. -/
theorem admitted_node (hrun : Admitting run) {kind : NodeKind} {child : Grammar}
    (h : node run kind child ctx = some reply) (hheads : child.headsConsume = true) :
    Admitted child.first child.isNullable ctx reply := by
  unfold node at h
  split at h
  case isTrue =>
    dsimp only at h
    obtain ⟨step, between, hchild, h⟩ := reply_bind h
    have hadmitted := hrun _ _ _ hchild hheads
    split at h
    · cases h
      exact hadmitted.transfer rfl rfl id
    · cases h
      exact hadmitted.transfer rfl rfl id
  case isFalse =>
    cases h
    exact .of_failed (Nat.le_refl _) rfl

/-- A label that takes effect stands for a failure, and that owes nothing more. -/
theorem admitted_labeled (hrun : Admitting run) {self child : Grammar}
    (h : labeled run self child ctx = some reply) (hheads : child.headsConsume = true) :
    Admitted child.first child.isNullable ctx reply := by
  unfold labeled at h
  dsimp only at h
  obtain ⟨step, between, hchild, h⟩ := reply_bind h
  have hadmitted := hrun _ _ _ hchild hheads
  split at h
  · cases h
    exact hadmitted.transfer rfl rfl nofun
  · cases h
    exact hadmitted

/-- A condition that fails consumes nothing. -/
theorem admitted_lookahead (hrun : Admitting run) {self child : Grammar} {holds : View → Bool}
    (h : lookahead run self child holds ctx = some reply) (hheads : child.headsConsume = true) :
    Admitted child.first child.isNullable ctx reply := by
  unfold lookahead at h
  split at h
  · exact hrun _ _ _ h hheads
  · cases h
    exact .of_failed (Nat.le_refl _) rfl

/-- Something missing may be reported in place of the child, so that nothing is matched. -/
theorem admitted_relax (hrun : Admitting run) {message : String} {child : Grammar}
    (h : relax run message child ctx = some reply) (hheads : child.headsConsume = true) :
    Admitted child.first true ctx reply := by
  unfold relax orRecover at h
  split at h
  case isTrue => exact (hrun _ _ _ h hheads).weaken fun _ => rfl
  case isFalse =>
    dsimp only at h
    obtain ⟨step, between, hchild, h⟩ := reply_bind h
    split at h
    · cases h
      exact ((hrun _ _ _ hchild hheads).weaken fun _ => rfl).transfer rfl rfl id
    · cases h
      exact .of_nullable (Nat.le_refl _)

end Form

-- ========================================================== the run

namespace Grammar

open Form

/-- One level of a run starts with the first kinds if what is below does. -/
theorem admitting_runLevel {run : Runner input} (hrun : Admitting run)
    (hextending : Extending run) (rules : RuleTable) : Admitting (runLevel rules run) := by
  intro grammar ctx reply h hheads
  unfold headsConsume at hheads
  unfold Grammar.first isNullable
  cases grammar with
  | token kind =>
    cases h
    exact admitted_token _ kind ctx
  | literal text => exact .of_any _ _ _
  | seq parts => exact admitted_seq hrun hextending parts _ _ h hheads
  | choice alternatives => exact admitted_choice hrun hextending h hheads
  | many child least => exact admitted_many hrun hextending h hheads
  | optional child => exact admitted_optional hrun h hheads
  | attempt child => exact admitted_attempt hrun h hheads
  | heal child => exact admitted_heal hrun h hheads
  | guard child message accepts => exact admitted_guard hrun h hheads
  | node kind child => exact admitted_node hrun h hheads
  | labeled label child => exact admitted_labeled hrun h hheads
  | relax message child => exact admitted_relax hrun h hheads
  | relaxTo message child sync => exact .of_any _ _ _
  | fold kind start next =>
    obtain ⟨hhead, hheads⟩ := Bool.and_eq_true_iff.mp hheads
    exact admitted_fold hrun h (by simpa using hhead) hheads
  | continuation kind start rest =>
    obtain ⟨hhead, hheads⟩ := Bool.and_eq_true_iff.mp hheads
    exact admitted_continuation hrun hextending h (by simpa using hhead) hheads
  | reference name rule => exact .of_any _ _ _
  | succeed =>
    cases h
    exact .of_nullable (Nat.le_refl _)
  | lookahead holds child => exact admitted_lookahead hrun h hheads
  | capture name select => exact .of_any _ _ _

/-- A run of a grammar whose heads consume starts with its first kinds. -/
theorem admitting_runWithin (rules : RuleTable) (levels : Nat) :
    Admitting (runWithin rules levels : Runner input) := by
  induction levels with
  | zero =>
    intro grammar ctx reply h
    cases h
  | succ levels ih =>
    intro grammar ctx reply h
    rw [runWithin_succ] at h
    exact admitting_runLevel ih (extends_runWithin rules levels) rules grammar ctx reply h

-- ================================================ the current token

variable {rules : RuleTable} {levels : Nat} {grammar : Grammar} {ctx : Context input}
  {reply : Outcome × Context input}

/-- A grammar that succeeds or consumes a token may start with the current token. -/
theorem canStart_of_taken (hheads : grammar.headsConsume = true)
    (hrun : runWithin rules levels grammar ctx = some reply)
    (htaken : reply.1.success = true ∨ ctx.place < reply.2.place) :
    grammar.canStart ctx.kind = true := by
  have hadmitted := admitting_runWithin rules levels grammar ctx reply hrun hheads
  unfold canStart
  by_cases hprogress : ctx.place < reply.2.place
  · rw [hadmitted.consumed hprogress, Bool.or_true]
  · rcases htaken with hsuccess | hconsumed
    · rcases hadmitted.stayed hsuccess (Nat.le_of_not_lt hprogress) with hnullable | hany
      · rw [hnullable]
        rfl
      · rw [hany]
        exact Bool.or_true _
    · exact absurd hconsumed hprogress

/-- A choice with room for all alternatives tries those that may start with the
current token. -/
theorem mem_candidates {alternatives : List Grammar} {kind : TokenKind}
    (hroom : alternatives.length ≤ dispatchCapacity) (hmem : grammar ∈ alternatives)
    (hstart : grammar.canStart kind = true) : grammar ∈ candidates alternatives kind := by
  unfold candidates
  split
  · rw [List.take_of_length_le hroom]
    exact List.mem_filter.mpr ⟨hmem, hstart⟩
  · exact hmem

/-- The first kinds are those that a run starts with, in grammars whose heads
consume: a token that is consumed is of a first kind, and a match of nothing is
announced. So wherever a grammar matches, what looks at the current token first
lets it: the check in front of an attempt, of healing and of a node, and the
table of a choice. -/
theorem first_sound (rules : RuleTable) (grammar : Grammar) (hheads : grammar.headsConsume = true)
    (input : Input) (levels : Nat) (ctx : Context input) (reply : Outcome × Context input)
    (hrun : runWithin rules levels grammar ctx = some reply) :
    (∀ set, grammar.first = .tokens set →
        (ctx.place < reply.2.place → set.contains ctx.kind = true)
          ∧ (reply.1.success = true → reply.2.place = ctx.place → grammar.isNullable = true))
      ∧ (reply.1.success = true → grammar.canStart ctx.kind = true
        ∧ ∀ alternatives : List Grammar, alternatives.length ≤ dispatchCapacity →
          grammar ∈ alternatives → grammar ∈ candidates alternatives ctx.kind) := by
  have hadmitted := admitting_runWithin rules levels grammar ctx reply hrun hheads
  refine ⟨fun set hfirst => ⟨fun hlt => ?_, fun hsuccess hplace => ?_⟩, fun hsuccess => ?_⟩
  · have hadmits := hadmitted.consumed hlt
    rw [hfirst] at hadmits
    exact hadmits
  · refine (hadmitted.stayed hsuccess (Nat.le_of_eq hplace)).resolve_right ?_
    rw [hfirst]
    exact FirstSet.noConfusion
  · have hstart := canStart_of_taken hheads hrun (.inl hsuccess)
    exact ⟨hstart, fun alternatives hroom hmem => mem_candidates hroom hmem hstart⟩

/-- An application whose head may be missing, in front of an equals sign. -/
def headlessEquation : Grammar :=
  .seq [.fold .exprApp (.optional (.token .int)) (.token .lower), .token .equals]

/-- A name and an equals sign. -/
def nameAndEquals : Input :=
  .ofTokens "x=" [.raw ⟨.lower, ⟨1, 1, 0⟩, ⟨1, 2, 1⟩⟩, .raw ⟨.equals, ⟨1, 2, 1⟩, ⟨1, 3, 2⟩⟩]

/-- A sequence with an optional head: the head is missing, and what follows it is
consumed. -/
theorem first_sound_optional :
    (seq [.optional (.token .int), .token .lower]).headsConsume = true
      ∧ ∃ reply : Outcome × Context nameAndEquals,
        runWithin (fun _ => none) 3 (.seq [.optional (.token .int), .token .lower])
            (Context.initial nameAndEquals) = some reply
          ∧ reply.1.success = true ∧ 0 < reply.2.place
          ∧ (seq [.optional (.token .int), .token .lower]).canStart .lower = true := by
  refine ⟨rfl, _, rfl, rfl, by decide, ?_⟩
  exact ((first_sound (fun _ => none) (.seq [.optional (.token .int), .token .lower]) rfl
    nameAndEquals 3 (Context.initial nameAndEquals) _ rfl).2 rfl).1

/-- Where the start of a fold matches nothing, a step comes first, and its kind is
not among the first ones: the equation matches, and healing rejects it. -/
theorem first_misses_step :
    ∃ (set : TokenSet) (reply healed : Outcome × Context nameAndEquals),
      headlessEquation.first = .tokens set ∧ headlessEquation.isNullable = false
        ∧ runWithin (fun _ => none) 5 headlessEquation (Context.initial nameAndEquals) = some reply
        ∧ reply.1.success = true ∧ 0 < reply.2.place
        ∧ set.contains (Context.initial nameAndEquals).kind = false
        ∧ runWithin (fun _ => none) 6 (.heal headlessEquation) (Context.initial nameAndEquals)
          = some healed
        ∧ healed.1.success = false := by
  have hmatch : (runWithin (fun _ => none) 5 headlessEquation
      (Context.initial nameAndEquals)).map (fun reply => (reply.1.success, reply.2.place))
        = some (true, 2) := by
    decide +kernel
  obtain ⟨reply, hreply, hends⟩ := Option.map_eq_some_iff.mp hmatch
  obtain ⟨hsuccess, hplace⟩ := Prod.mk.inj hends
  exact ⟨_, reply, _, rfl, rfl, hreply, hsuccess, by rw [hplace]; decide, rfl, rfl, rfl⟩

end Grammar

end Offside
