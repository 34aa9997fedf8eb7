import Offside.Proofs.Parse.Scanned

/-!
Grammars in a row.

A sequence is held against the grammars it was made of with two relations. Grammars
succeed in a row (`InRow`) if each does, from where the one before it ended; a row
breaks off (`BreaksOff`) where one of them fails. The two exclude each other, and a
sequence comes to one of them (`sequence_comesTo`).

Sequences are spliced into sequences, and a single grammar stands for itself. Neither
makes a difference to what is in a row (`inRow_flatMap`, `succeeds_sequence`), so
it is no matter whether the grammars of a row are sequences themselves.

Two runs from contexts that share their log come to contexts that share their log
(`run_shared`). So a row may be followed where transactions are open, and read off where
they are not.
-/

namespace Offside

open Form Context

variable {input : Input}

theorem Context.SharesLog.symm {ctx other : Context input} (h : SharesLog ctx other) :
    SharesLog other ctx :=
  .of_eq h.place.symm h.inAttempt.symm h.events_eq.symm

/-- Opening a transaction records nothing. -/
theorem Context.sharesLog_start (ctx : Context input) : SharesLog ctx ctx.start.2 :=
  .of_eq rfl rfl rfl

/-- Closing a transaction records nothing. -/
theorem Context.sharesLog_commit (ctx : Context input) (transaction : Transaction) :
    SharesLog ctx (ctx.commit transaction) :=
  .of_eq rfl rfl rfl

namespace Grammar

variable {rules : RuleTable} {grammar : Grammar} {rest others : List Grammar}
  {ctx between after other last : Context input} {reply : Outcome × Context input}

-- ============================================== success and failure

/-- The grammar succeeds here, and leaves off there. -/
def Succeeds (rules : RuleTable) (grammar : Grammar) (ctx after : Context input) : Prop :=
  ∃ outcome, Evaluates rules grammar ctx (outcome, after) ∧ outcome.success = true

/-- The grammar comes to a failure here. -/
def Fails (rules : RuleTable) (grammar : Grammar) (ctx : Context input) : Prop :=
  ∃ reply, Evaluates rules grammar ctx reply ∧ reply.1.success = false

/-- Wherever the grammar succeeds in an input, it has consumed a token. -/
def MovesOn (rules : RuleTable) (grammar : Grammar) (input : Input) : Prop :=
  ∀ ctx after : Context input, Succeeds rules grammar ctx after → ctx.place < after.place

theorem evaluates_of_runLevel {levels : Nat}
    (h : runLevel rules (runWithin rules levels) grammar ctx = some reply) :
    Evaluates rules grammar ctx reply :=
  ⟨levels + 1, by rw [runWithin_succ, h]⟩

theorem Succeeds.unique (h : Succeeds rules grammar ctx after)
    (hother : Succeeds rules grammar ctx other) : after = other := by
  obtain ⟨_, heval, _⟩ := h
  obtain ⟨_, hagain, _⟩ := hother
  exact congrArg Prod.snd (heval.unique hagain)

theorem Fails.not_succeeds (h : Fails rules grammar ctx) : ¬Succeeds rules grammar ctx after := by
  rintro ⟨outcome, heval, hsuccess⟩
  obtain ⟨reply, hreply, hfailed⟩ := h
  rw [hreply.unique heval, hsuccess] at hfailed
  cases hfailed

/-- Where contexts share their log, a grammar comes to the same in both. -/
theorem run_shared {levels : Nat} {outcome : Outcome}
    (h : runWithin rules levels grammar ctx = some (outcome, after))
    (hshared : SharesLog ctx other) :
    ∃ last, runWithin rules levels grammar other = some (outcome, last)
      ∧ SharesLog after last := by
  obtain ⟨last, hlast, hshifted⟩ := run_shifted h other hshared.place hshared.inAttempt
  obtain ⟨log, hafter, hother⟩ := hshifted.events
  refine ⟨last, hlast, .of_eq hshifted.place hshifted.inAttempt ?_⟩
  rw [← Array.toList_inj, hafter, hother, hshared.events_eq]

/-- Contexts that share their log share it afterwards. -/
theorem Succeeds.shared (h : Succeeds rules grammar ctx after) (hshared : SharesLog ctx other) :
    ∃ last, Succeeds rules grammar other last ∧ SharesLog after last := by
  obtain ⟨outcome, ⟨levels, hrun⟩, hsuccess⟩ := h
  obtain ⟨last, hlast, hafter⟩ := run_shared hrun hshared
  exact ⟨last, ⟨outcome, ⟨levels, hlast⟩, hsuccess⟩, hafter⟩

-- ================================================ grammars in a row

/-- The grammars succeed in a row, each from where the one before it left off. -/
inductive InRow (rules : RuleTable) : List Grammar → Context input → Context input → Prop
  | nil (ctx : Context input) : InRow rules [] ctx ctx
  | cons {grammar : Grammar} {rest : List Grammar} {ctx between after : Context input} :
    Succeeds rules grammar ctx between → InRow rules rest between after →
      InRow rules (grammar :: rest) ctx after

/-- Some of the grammars succeed in a row, and the next one fails. -/
inductive BreaksOff (rules : RuleTable) : List Grammar → Context input → Prop
  | here {grammar : Grammar} {rest : List Grammar} {ctx : Context input} :
    Fails rules grammar ctx → BreaksOff rules (grammar :: rest) ctx
  | later {grammar : Grammar} {rest : List Grammar} {ctx between : Context input} :
    Succeeds rules grammar ctx between → BreaksOff rules rest between →
      BreaksOff rules (grammar :: rest) ctx

theorem inRow_single : InRow rules [grammar] ctx after ↔ Succeeds rules grammar ctx after := by
  constructor
  · rintro (_ | ⟨hfirst, ⟨⟩⟩)
    exact hfirst
  · exact fun h => .cons h (.nil after)

/-- A row succeeds as its front and then its back. -/
theorem inRow_append : InRow rules (rest ++ others) ctx after
    ↔ ∃ between, InRow rules rest ctx between ∧ InRow rules others between after := by
  constructor
  · intro h
    induction rest generalizing ctx with
    | nil => exact ⟨ctx, .nil ctx, h⟩
    | cons grammar rest ih =>
      obtain _ | ⟨hfirst, hrest⟩ := h
      obtain ⟨between, hfront, hback⟩ := ih hrest
      exact ⟨between, .cons hfirst hfront, hback⟩
  · rintro ⟨between, hfront, hback⟩
    induction hfront with
    | nil => exact hback
    | cons hfirst _ ih => exact .cons hfirst (ih hback)

/-- A row breaks off in its front, or behind it. -/
theorem breaksOff_append (h : BreaksOff rules (rest ++ others) ctx) : BreaksOff rules rest ctx
    ∨ ∃ between, InRow rules rest ctx between ∧ BreaksOff rules others between := by
  induction rest generalizing ctx with
  | nil => exact .inr ⟨ctx, .nil ctx, h⟩
  | cons grammar rest ih =>
    obtain hfails | ⟨hfirst, hrest⟩ := h
    · exact .inl (.here hfails)
    · rcases ih hrest with hbreaks | ⟨between, hrow, hbreaks⟩
      · exact .inl (.later hfirst hbreaks)
      · exact .inr ⟨between, .cons hfirst hrow, hbreaks⟩

theorem BreaksOff.append (h : BreaksOff rules rest ctx) (others : List Grammar) :
    BreaksOff rules (rest ++ others) ctx := by
  induction h with
  | here hfails => exact .here hfails
  | later hfirst _ ih => exact .later hfirst ih

/-- A row comes to one end. -/
theorem InRow.unique (h : InRow rules rest ctx after) (hother : InRow rules rest ctx other) :
    after = other := by
  induction h with
  | nil =>
    cases hother
    rfl
  | cons hfirst _ ih =>
    obtain _ | ⟨hagain, hrest⟩ := hother
    obtain rfl := hfirst.unique hagain
    exact ih hrest

/-- A row that breaks off does not come to its end. -/
theorem BreaksOff.not_inRow (h : BreaksOff rules rest ctx) : ¬InRow rules rest ctx after := by
  induction h with
  | here hfails =>
    rintro (_ | ⟨hfirst, _⟩)
    exact hfails.not_succeeds hfirst
  | later hfirst _ ih =>
    rintro (_ | ⟨hagain, hrest⟩)
    obtain rfl := hfirst.unique hagain
    exact ih hrest

/-- A row may be followed in a context that shares the log. -/
theorem InRow.shared (h : InRow rules rest ctx after) (hshared : SharesLog ctx other) :
    ∃ last, InRow rules rest other last ∧ SharesLog after last := by
  induction h generalizing other with
  | nil => exact ⟨other, .nil other, hshared⟩
  | cons hfirst _ ih =>
    obtain ⟨between, hbetween, hshared⟩ := hfirst.shared hshared
    obtain ⟨last, hlast, hshared⟩ := ih hshared
    exact ⟨last, .cons hbetween hlast, hshared⟩

-- ======================================================== sequences

/-- A part that succeeds leaves the sequence to the others. -/
theorem seq_of_success {run : Runner input} {sofar step : Outcome}
    (hrun : run grammar ctx = some (step, between)) (hsuccess : step.success = true) :
    Form.seq run sofar (grammar :: rest) ctx = Form.seq run (sofar.merge step) rest between := by
  conv_lhs => unfold Form.seq
  rw [hrun]
  dsimp only
  rw [if_pos (by rw [Outcome.success_merge, hsuccess])]

/-- With levels enough, the loop of a sequence goes through a row. -/
theorem exists_seq_of_inRow (h : InRow rules rest ctx after) :
    ∃ levels, ∀ more, levels ≤ more → ∀ sofar : Outcome, sofar.success = true →
      ∃ outcome, Form.seq (runWithin rules more) sofar rest ctx = some (outcome, after)
        ∧ outcome.success = true := by
  induction h with
  | nil => exact ⟨0, fun _ _ sofar hsofar => ⟨sofar, rfl, hsofar⟩⟩
  | cons hfirst _ ih =>
    obtain ⟨step, ⟨enough, hrun⟩, hsuccess⟩ := hfirst
    obtain ⟨levels, hrest⟩ := ih
    refine ⟨max enough levels, fun more hmore sofar _ => ?_⟩
    rw [seq_of_success (runWithin_mono (by omega : enough ≤ more) hrun) hsuccess]
    exact hrest more (by omega) (sofar.merge step) (by rw [Outcome.success_merge, hsuccess])

/-- With levels enough, it stops where a row breaks off. -/
theorem exists_seq_of_breaksOff (h : BreaksOff rules rest ctx) :
    ∃ levels, ∀ more, levels ≤ more → ∀ sofar : Outcome, ∃ reply,
      Form.seq (runWithin rules more) sofar rest ctx = some reply := by
  induction h with
  | here hfails =>
    obtain ⟨⟨step, after⟩, ⟨enough, hrun⟩, hfailed⟩ := hfails
    refine ⟨enough, fun more hmore sofar => ⟨(sofar.merge step, after), ?_⟩⟩
    have hmerged : ¬(sofar.merge step).success = true := by
      rw [Outcome.success_merge, hfailed]
      exact Bool.false_ne_true
    unfold Form.seq
    rw [runWithin_mono hmore hrun]
    exact if_neg hmerged
  | later hfirst _ ih =>
    obtain ⟨step, ⟨enough, hrun⟩, hsuccess⟩ := hfirst
    obtain ⟨levels, hrest⟩ := ih
    refine ⟨max enough levels, fun more hmore sofar => ?_⟩
    rw [seq_of_success (runWithin_mono (by omega : enough ≤ more) hrun) hsuccess]
    exact hrest more (by omega) (sofar.merge step)

/-- The loop of a sequence goes through a row, or the row breaks off. -/
theorem seq_goesThrough {levels : Nat} : ∀ {sofar : Outcome} {ctx : Context input},
    Form.seq (runWithin rules levels) sofar rest ctx = some reply →
      sofar.success = true → reply.1.success = true ∧ InRow rules rest ctx reply.2
        ∨ reply.1.success = false ∧ BreaksOff rules rest ctx := by
  obtain ⟨outcome, after⟩ := reply
  induction rest with
  | nil =>
    intro sofar ctx h hsofar
    cases h
    exact .inl ⟨hsofar, .nil _⟩
  | cons grammar rest ih =>
    intro sofar ctx h _
    obtain ⟨step, between, hrun, ⟨hsuccess, h⟩ | ⟨hfailed, houtcome, _⟩⟩ := seq_cases h
    · have hfirst : Succeeds rules grammar ctx between := ⟨step, ⟨levels, hrun⟩, hsuccess⟩
      have hmerged : (sofar.merge step).success = true := by
        rw [Outcome.success_merge, hsuccess]
      rcases ih h hmerged with ⟨houtcome, hrow⟩ | ⟨houtcome, hbreaks⟩
      · exact .inl ⟨houtcome, .cons hfirst hrow⟩
      · exact .inr ⟨houtcome, .later hfirst hbreaks⟩
    · exact .inr ⟨houtcome, .here ⟨_, ⟨levels, hrun⟩, hfailed⟩⟩

/-- What a sequence comes to. -/
theorem seq_comesTo (h : Evaluates rules (.seq rest) ctx reply) :
    reply.1.success = true ∧ InRow rules rest ctx reply.2
      ∨ reply.1.success = false ∧ BreaksOff rules rest ctx := by
  obtain ⟨levels, hrun⟩ := h
  obtain ⟨below, hrun⟩ := runLevel_of_runWithin hrun
  change Form.seq _ _ rest ctx = _ at hrun
  exact seq_goesThrough hrun rfl

/-- A sequence succeeds just as its parts do in a row. -/
theorem succeeds_seq : Succeeds rules (.seq rest) ctx after ↔ InRow rules rest ctx after := by
  constructor
  · rintro ⟨outcome, heval, hsuccess⟩
    rcases seq_comesTo heval with ⟨_, hrow⟩ | ⟨hfailed, _⟩
    · exact hrow
    · rw [hsuccess] at hfailed
      cases hfailed
  · intro h
    obtain ⟨levels, hlevels⟩ := exists_seq_of_inRow h
    obtain ⟨outcome, hseq, hsuccess⟩ := hlevels levels (Nat.le_refl _) (.matched ctx.place) rfl
    exact ⟨outcome, evaluates_of_runLevel hseq, hsuccess⟩

/-- A grammar succeeds as what it is spliced into does in a row. -/
theorem inRow_parts : InRow rules grammar.parts ctx after ↔ Succeeds rules grammar ctx after := by
  unfold parts
  split
  · exact succeeds_seq.symm
  · exact inRow_single

/-- Sequences that are spliced in are in the row as they were. -/
theorem inRow_flatMap :
    InRow rules (rest.flatMap parts) ctx after ↔ InRow rules rest ctx after := by
  induction rest generalizing ctx with
  | nil => rfl
  | cons grammar rest ih =>
    rw [List.flatMap_cons, inRow_append, ← List.singleton_append, inRow_append]
    simp only [inRow_parts, inRow_single, ih]

/-- What grammars in order come to. -/
theorem sequence_comesTo (h : Evaluates rules (sequence rest) ctx reply) :
    reply.1.success = true ∧ InRow rules rest ctx reply.2
      ∨ reply.1.success = false ∧ BreaksOff rules (rest.flatMap parts) ctx := by
  unfold sequence at h
  split at h
  case h_1 single hsingle =>
    rw [← inRow_flatMap, hsingle]
    cases hsuccess : reply.1.success with
    | true => exact .inl ⟨rfl, inRow_single.mpr ⟨reply.1, h, hsuccess⟩⟩
    | false => exact .inr ⟨rfl, .here ⟨reply, h, hsuccess⟩⟩
  case h_2 =>
    rw [← inRow_flatMap]
    exact seq_comesTo h

/-- Grammars in order come to a reply where their row breaks off. -/
theorem sequence_answers (h : BreaksOff rules (rest.flatMap parts) ctx) :
    ∃ reply, Evaluates rules (sequence rest) ctx reply := by
  unfold sequence
  split
  case h_1 single hsingle =>
    rw [hsingle] at h
    obtain ⟨reply, heval, _⟩ | ⟨_, ⟨⟩⟩ := h
    exact ⟨reply, heval⟩
  case h_2 =>
    obtain ⟨levels, hlevels⟩ := exists_seq_of_breaksOff h
    obtain ⟨reply, hseq⟩ := hlevels levels (Nat.le_refl _) (.matched ctx.place)
    exact ⟨reply, evaluates_of_runLevel hseq⟩

/-- If a grammar fails, so does what it is spliced into. -/
theorem breaksOff_parts (h : Fails rules grammar ctx) : BreaksOff rules grammar.parts ctx := by
  unfold parts
  split
  · obtain ⟨reply, heval, hfailed⟩ := h
    rcases seq_comesTo heval with ⟨hsuccess, _⟩ | ⟨_, hbreaks⟩
    · rw [hfailed] at hsuccess
      cases hsuccess
    · exact hbreaks
  · exact .here h

/-- Splicing makes no difference to what succeeds. -/
theorem succeeds_sequence :
    Succeeds rules (sequence rest) ctx after ↔ InRow rules rest ctx after := by
  rw [← inRow_flatMap]
  unfold sequence
  split
  case h_1 single hsingle => rw [hsingle, inRow_single]
  case h_2 => exact succeeds_seq

end Grammar

end Offside
