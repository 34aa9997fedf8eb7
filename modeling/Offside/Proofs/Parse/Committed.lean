import Offside.Proofs.Parse.Starts

/-!
Choice is committed, and looking at the current token first changes nothing.

A choice is the first of its alternatives, in their order, that succeeds or
consumes a token (`Takes`). The evaluation does less than that says: it passes
over the alternatives that the current token cannot start, and it tries the
others one after the other, each from where the one before was taken back.
`choice_commits` says that it comes to the same.

# What is passed over

An alternative that is passed over without a try would not have taken
(`neverTakes_of_canStart`), by what a run starts with. But it might have gone on
for ever, and then the choice answers where trying all alternatives does not. So
of an alternative in front of the one taken it is said that no reply of it
takes (`NeverTakes`); and where the alternatives come to replies up to the one
that takes, so does the choice (`choose_answers`).
-/

namespace Offside

variable {input : Input}

/-- The reply has succeeded or consumed a token. -/
def Takes (ctx : Context input) (reply : Outcome × Context input) : Prop :=
  reply.1.success = true ∨ ctx.place < reply.2.place

/-- The replies agree in success, place and log. -/
structure SameEffect (reply other : Outcome × Context input) : Prop where
  success : reply.1.success = other.1.success
  place : reply.2.place = other.2.place
  events : reply.2.events = other.2.events

/-- The reply is a failure that has consumed nothing and recorded nothing. -/
structure NoTrace (ctx : Context input) (reply : Outcome × Context input) : Prop where
  failed : reply.1.success = false
  place : reply.2.place = ctx.place
  events : reply.2.events = ctx.events

/-- What taking a failed run back leaves of a reply. -/
structure TakenBack (ctx : Context input) (reply result : Outcome × Context input) : Prop where
  kept : reply.1.success = true → SameEffect result reply
  undone : reply.1.success = false → NoTrace ctx result

namespace Grammar

open Form

variable {rules : RuleTable} {levels : Nat} {grammar : Grammar} {ctx : Context input}

/-- Whatever the grammar comes to here, a choice does not commit to it. -/
def NeverTakes (rules : RuleTable) (ctx : Context input) (grammar : Grammar) : Prop :=
  ∀ reply, Evaluates rules grammar ctx reply → ¬Takes ctx reply

/-- The first of the alternatives that takes, with its reply. -/
def FirstTaken (rules : RuleTable) (ctx : Context input) (alternatives : List Grammar)
    (reply : Outcome × Context input) : Prop :=
  ∃ before alternative behind, alternatives = before ++ alternative :: behind
    ∧ (∀ other ∈ before, NeverTakes rules ctx other)
    ∧ Evaluates rules alternative ctx reply ∧ Takes ctx reply

-- ==================================================== what is tried

/-- What the current token cannot start does not take. -/
theorem neverTakes_of_canStart (hheads : grammar.headsConsume = true)
    (hstart : grammar.canStart ctx.kind = false) : NeverTakes rules ctx grammar := by
  intro reply ⟨levels, hrun⟩ htaken
  have hcan := canStart_of_taken hheads hrun htaken
  rw [hstart] at hcan
  cases hcan

/-- What gave up in a transaction of its own does not take. -/
theorem neverTakes_of_givesUp (h : GivesUp (runWithin rules levels) ctx grammar) :
    NeverTakes rules ctx grammar := by
  obtain ⟨nextId, step, between, hrun, hfailed, hstayed⟩ := h
  intro reply hreply htaken
  obtain ⟨another, hanother, houtcome, hplace, _⟩ :=
    hreply.sameLog ({ ctx with nextId := nextId } : Context input).start.2 rfl rfl rfl
  obtain rfl := hanother.unique ⟨levels, hrun⟩
  rcases htaken with hsuccess | hprogress
  · rw [← houtcome, hfailed] at hsuccess
    cases hsuccess
  · rw [← hplace] at hprogress
    exact absurd hprogress (Nat.not_lt_of_le hstayed)

/-- A choice with room for all alternatives passes over some of them, none of which
the current token can start. -/
theorem candidates_eq_filter {alternatives : List Grammar}
    (hroom : alternatives.length ≤ dispatchCapacity) (kind : TokenKind) :
    ∃ tries : Grammar → Bool, candidates alternatives kind = alternatives.filter tries
      ∧ ∀ grammar, tries grammar = false → grammar.canStart kind = false := by
  unfold candidates
  split
  · exact ⟨(·.canStart kind), by rw [List.take_of_length_le hroom], fun _ h => h⟩
  · exact ⟨fun _ => true, (List.filter_true _).symm, nofun⟩

/-- The first candidate that takes is the first alternative that does. -/
theorem firstTaken_of_filter {alternatives : List Grammar} {tries : Grammar → Bool}
    (hpassed : ∀ grammar ∈ alternatives, tries grammar = false → NeverTakes rules ctx grammar)
    {reply : Outcome × Context input}
    (h : FirstTaken rules ctx (alternatives.filter tries) reply) :
    FirstTaken rules ctx alternatives reply := by
  obtain ⟨before, alternative, behind, hsplit, hbefore, htaken⟩ := h
  obtain ⟨front, rest, halternatives, hfront, hrest⟩ := List.filter_eq_append_iff.mp hsplit
  obtain ⟨skipped, others, hothers, hskipped, _, _⟩ := List.filter_eq_cons_iff.mp hrest
  refine ⟨front ++ skipped, alternative, others, ?_, fun other hmem => ?_, htaken⟩
  · rw [halternatives, hothers, List.append_assoc]
  · have hamong : other ∈ alternatives := by
      rw [halternatives, hothers]
      rcases List.mem_append.mp hmem with hmem | hmem
      · exact List.mem_append_left _ hmem
      · exact List.mem_append_right _ (List.mem_append_left _ hmem)
    by_cases htries : tries other = true
    · rcases List.mem_append.mp hmem with hmem | hmem
      · exact hbefore other (hfront ▸ List.mem_filter.mpr ⟨hmem, htries⟩)
      · exact absurd htries (hskipped other hmem)
    · exact hpassed other hamong (Bool.eq_false_iff.mpr htries)

/-- Trying alternatives one after the other comes to the first that takes. -/
theorem choose_commits {alternatives : List Grammar} {result : Outcome × Context input}
    (h : choose (runWithin rules levels) none alternatives ctx = some result) :
    (∃ reply, FirstTaken rules ctx alternatives reply ∧ SameEffect result reply)
      ∨ (∀ other ∈ alternatives, NeverTakes rules ctx other) ∧ NoTrace ctx result := by
  obtain ⟨outcome, after⟩ := result
  rcases choose_cases (extends_runWithin rules levels) _ none ctx nofun h with
    ⟨before, alternative, behind, nextId, step, between, hsplit, hbefore, hrun, htaken, hsuccess,
      hplace, hevents⟩ | ⟨hall, hfailed, nextId, rfl⟩
  · obtain ⟨reply, hreply, houtcome, hsamePlace, hsameEvents⟩ :=
      Evaluates.sameLog ⟨levels, hrun⟩ ctx rfl rfl rfl
    refine .inl ⟨reply, ⟨before, alternative, behind, hsplit,
      fun other hmem => neverTakes_of_givesUp (hbefore other hmem), hreply, ?_⟩, ?_⟩
    · unfold Takes
      rw [houtcome, hsamePlace]
      exact htaken
    · exact ⟨hsuccess.trans (congrArg _ houtcome.symm), hplace.trans hsamePlace.symm,
        hevents.trans hsameEvents.symm⟩
  · exact .inr ⟨fun other hmem => neverTakes_of_givesUp (hall other hmem), hfailed, rfl, rfl⟩

-- ================================================== that it answers

/-- Trying alternatives answers where they do, up to the one that takes. -/
theorem choose_answers {before behind : List Grammar}
    (hbefore : ∀ other ∈ before, ∃ reply, runWithin rules levels other ctx = some reply)
    (hends : behind = [] ∨ ∃ other ∈ before, ∃ reply, Evaluates rules other ctx reply
      ∧ Takes ctx reply) :
    ∀ (sofar : Option Outcome) (nextId : Nat), ∃ result,
      choose (runWithin rules levels) sofar (before ++ behind)
        ({ ctx with nextId := nextId } : Context input) = some result := by
  induction before with
  | nil =>
    intro sofar nextId
    rcases hends with rfl | ⟨other, hmem, _⟩
    · exact ⟨_, rfl⟩
    · cases hmem
  | cons alternative rest ih =>
    intro sofar nextId
    obtain ⟨⟨step, after⟩, hrun⟩ := hbefore alternative List.mem_cons_self
    obtain ⟨between, hbetween, hshifted⟩ := run_shifted hrun
      ({ ctx with nextId := nextId } : Context input).start.2 rfl rfl
    rw [List.cons_append]
    by_cases hfirst : step.success = true ∨ ctx.place < between.place
    · exact ⟨_, choose_of_taken hbetween hfirst⟩
    · -- the alternative gave up, so another one takes, if one has to
      have hleft : step.success = false ∧ between.place ≤ ctx.place := by simpa using hfirst
      have hlater : behind = [] ∨ ∃ other ∈ rest, ∃ reply, Evaluates rules other ctx reply
          ∧ Takes ctx reply := by
        rcases hends with hnil | ⟨other, hmem, reply, hreply, htaken⟩
        · exact .inl hnil
        rcases List.mem_cons.mp hmem with rfl | hmem
        · obtain rfl := hreply.unique ⟨levels, hrun⟩
          unfold Takes at htaken
          rw [hshifted.place] at htaken
          exact absurd htaken hfirst
        · exact .inr ⟨other, hmem, reply, hreply, htaken⟩
      have hrollback := Context.rollback_eq (extends_runWithin rules levels _ _ _ hbetween)
      obtain ⟨result, hresult⟩ := ih (fun other hmem => hbefore other (List.mem_cons_of_mem _ hmem))
        hlater (some (joined sofar step)) between.nextId
      refine ⟨result, ?_⟩
      rw [choose_of_left hbetween hleft, hrollback]
      exact hresult

/-- What is evaluated here can be evaluated with a number of levels that serves for
all of it. -/
theorem exists_levels {grammars : List Grammar}
    (h : ∀ grammar ∈ grammars, ∃ reply, Evaluates rules grammar ctx reply) :
    ∃ levels, ∀ grammar ∈ grammars, ∃ reply, runWithin rules levels grammar ctx = some reply := by
  induction grammars with
  | nil => exact ⟨0, nofun⟩
  | cons grammar rest ih =>
    obtain ⟨reply, first, hfirst⟩ := h grammar List.mem_cons_self
    obtain ⟨others, hothers⟩ := ih fun other hmem => h other (List.mem_cons_of_mem _ hmem)
    refine ⟨max first others, List.forall_mem_cons.mpr ⟨⟨reply, ?_⟩, fun other hmem => ?_⟩⟩
    · exact runWithin_mono (Nat.le_max_left _ _) hfirst
    · obtain ⟨another, hanother⟩ := hothers other hmem
      exact ⟨another, runWithin_mono (Nat.le_max_right _ _) hanother⟩

section Choices

variable {alternatives : List Grammar}

/-- An alternative that takes is among those that are tried. -/
theorem mem_tried {tries : Grammar → Bool} {reply : Outcome × Context input}
    (hpassed : ∀ other, tries other = false → other.canStart ctx.kind = false)
    (hheads : grammar.headsConsume = true) (h : Evaluates rules grammar ctx reply)
    (htaken : Takes ctx reply) : tries grammar = true := by
  cases htries : tries grammar with
  | true => rfl
  | false => exact absurd htaken (neverTakes_of_canStart hheads (hpassed _ htries) reply h)

/-- What a choice comes to. -/
theorem choice_first (hroom : alternatives.length ≤ dispatchCapacity)
    (hheads : ∀ alternative ∈ alternatives, alternative.headsConsume = true)
    {result : Outcome × Context input} (h : Evaluates rules (.choice alternatives) ctx result) :
    (∃ reply, FirstTaken rules ctx alternatives reply ∧ SameEffect result reply)
      ∨ (∀ other ∈ alternatives, NeverTakes rules ctx other) ∧ NoTrace ctx result := by
  obtain ⟨levels, hrun⟩ := h
  obtain ⟨below, hrun⟩ := runLevel_of_runWithin hrun
  change Form.choice _ _ alternatives ctx = _ at hrun
  obtain ⟨tries, hcandidates, hpassed⟩ := candidates_eq_filter hroom ctx.kind
  have hnever : ∀ other ∈ alternatives, tries other = false → NeverTakes rules ctx other :=
    fun other hmem hskipped => neverTakes_of_canStart (hheads other hmem) (hpassed other hskipped)
  unfold Form.choice at hrun
  dsimp only at hrun
  rw [hcandidates] at hrun
  split at hrun
  case isTrue hempty =>
    cases hrun
    have hnone := List.isEmpty_iff.mp (Bool.and_eq_true_iff.mp hempty).2
    refine .inr ⟨fun other hmem => hnever other hmem ?_, rfl, rfl, rfl⟩
    exact Bool.eq_false_iff.mpr (List.filter_eq_nil_iff.mp hnone other hmem)
  case isFalse =>
    rcases choose_commits hrun with ⟨reply, hfirst, hsame⟩ | ⟨hall, htrace⟩
    · exact .inl ⟨reply, firstTaken_of_filter hnever hfirst, hsame⟩
    · refine .inr ⟨fun other hmem => ?_, htrace⟩
      cases htries : tries other with
      | true => exact hall other (List.mem_filter.mpr ⟨hmem, htries⟩)
      | false => exact hnever other hmem htries

/-- A choice comes to a reply if its alternatives do, up to the one that takes. -/
theorem choice_answers {before behind : List Grammar}
    (hroom : (before ++ behind).length ≤ dispatchCapacity)
    (hheads : ∀ other ∈ before, other.headsConsume = true)
    (hbefore : ∀ other ∈ before, ∃ reply, Evaluates rules other ctx reply)
    (hends : behind = [] ∨ ∃ other ∈ before, ∃ reply, Evaluates rules other ctx reply
      ∧ Takes ctx reply) :
    ∃ result, Evaluates rules (.choice (before ++ behind)) ctx result := by
  obtain ⟨levels, hlevels⟩ := exists_levels hbefore
  obtain ⟨tries, hcandidates, hpassed⟩ := candidates_eq_filter hroom ctx.kind
  have hsome : ∃ result,
      Form.choice (runWithin rules levels) (.choice (before ++ behind)) (before ++ behind) ctx
        = some result := by
    unfold Form.choice
    dsimp only
    split
    · exact ⟨_, rfl⟩
    · rw [hcandidates, List.filter_append]
      refine choose_answers (fun other hmem => hlevels other (List.mem_filter.mp hmem).1)
        (hends.imp (fun hnil => by rw [hnil]; rfl) fun ⟨other, hmem, reply, hreply, htaken⟩ => ?_)
        none ctx.nextId
      have htries := mem_tried hpassed (hheads other hmem) hreply htaken
      exact ⟨other, List.mem_filter.mpr ⟨hmem, htries⟩, reply, hreply, htaken⟩
  obtain ⟨result, hresult⟩ := hsome
  exact ⟨result, levels + 1, by rw [runWithin_succ]; exact hresult⟩

end Choices

-- ================================================== taking back

/-- Taking back, from the reply of the child here. -/
theorem whole_takesBack {self child : Grammar} {reply : Outcome × Context input}
    (h : runWithin rules levels child ctx = some reply) :
    ∃ result, whole (runWithin rules levels) self child ctx = some result
      ∧ TakenBack ctx reply result := by
  obtain ⟨between, hbetween, hshifted⟩ := run_shifted h ctx.start.2 rfl rfl
  have hevents : between.events = reply.2.events := by
    obtain ⟨log, hafter, hlog⟩ := hshifted.events
    rw [← Array.toList_inj, hafter, hlog]
    rfl
  have hresult : ∃ result, whole (runWithin rules levels) self child ctx = some result := by
    unfold whole
    dsimp only
    rw [hbetween]
    dsimp only
    split
    · exact ⟨_, rfl⟩
    · exact ⟨_, rfl⟩
  obtain ⟨⟨outcome, after⟩, hwhole⟩ := hresult
  obtain ⟨step, last, hchild, hcases⟩ := whole_cases hwhole
  obtain ⟨rfl, rfl⟩ := Prod.mk.inj (Option.some.inj (hbetween.symm.trans hchild))
  refine ⟨_, hwhole, ?_⟩
  rcases hcases with ⟨hmatched, rfl, rfl⟩ | ⟨hfailed, houtcome, rfl⟩
  · exact ⟨fun _ => ⟨rfl, hshifted.place.symm, hevents⟩, fun hfailed => by
      rw [hmatched] at hfailed
      cases hfailed⟩
  · refine ⟨fun hmatched => ?_, fun _ => ⟨houtcome, rfl, ?_⟩⟩
    · rw [hfailed] at hmatched
      cases hmatched
    · rw [Context.rollback_eq (extends_runWithin rules levels _ _ _ hbetween)]

/-- Healing looks at the current token first, which changes nothing. -/
theorem heal_takesBack (self : Grammar) {child : Grammar} {reply : Outcome × Context input}
    (hheads : child.headsConsume = true) (h : runWithin rules levels child ctx = some reply) :
    ∃ result, Form.heal (runWithin rules levels) self child ctx = some result
      ∧ TakenBack ctx reply result := by
  unfold Form.heal
  cases hstart : child.canStart ctx.kind with
  | true => exact whole_takesBack h
  | false =>
    have hnever : NeverTakes rules ctx child := neverTakes_of_canStart hheads hstart
    exact ⟨_, rfl, fun hmatched => absurd (.inl hmatched) (hnever reply ⟨levels, h⟩),
      fun _ => ⟨rfl, rfl, rfl⟩⟩

-- ==================================================== the statement

/-- A choice succeeds, consumes and logs what the first of its alternatives does
that succeeds or consumes a token, and where none does, it fails without a trace.
It comes to a reply if the alternatives do, up to the one that takes. And what
healing and an attempt come to is the run of the child, taken back if it fails. -/
theorem choice_commits (rules : RuleTable) (alternatives : List Grammar)
    (hroom : alternatives.length ≤ dispatchCapacity)
    (hheads : ∀ alternative ∈ alternatives, alternative.headsConsume = true)
    (child : Grammar) (hchild : child.headsConsume = true) (input : Input) (ctx : Context input) :
    (∀ result, Evaluates rules (.choice alternatives) ctx result →
        (∃ reply, FirstTaken rules ctx alternatives reply ∧ SameEffect result reply)
          ∨ (∀ other ∈ alternatives, NeverTakes rules ctx other) ∧ NoTrace ctx result)
      ∧ (∀ before behind, alternatives = before ++ behind →
          (∀ other ∈ before, ∃ reply, Evaluates rules other ctx reply) →
          (behind = [] ∨ ∃ other ∈ before, ∃ reply, Evaluates rules other ctx reply
            ∧ Takes ctx reply) →
          ∃ result, Evaluates rules (.choice alternatives) ctx result)
      ∧ (∀ reply, Evaluates rules child ctx reply →
          ∃ result, Evaluates rules (.heal child) ctx result ∧ TakenBack ctx reply result)
      ∧ ∀ reply, Evaluates rules child (ctx.setInAttempt true) reply →
          ∃ result, Evaluates rules (.attempt child) ctx result ∧ TakenBack ctx reply result := by
  refine ⟨fun result => choice_first hroom hheads, ?_, ?_, ?_⟩
  · rintro before behind rfl
    exact choice_answers hroom fun other hmem => hheads other (List.mem_append_left _ hmem)
  · rintro reply ⟨levels, hrun⟩
    obtain ⟨result, hheal, htaken⟩ := heal_takesBack (.heal child) hchild hrun
    exact ⟨result, ⟨levels + 1, by rw [runWithin_succ]; exact hheal⟩, htaken⟩
  · rintro reply ⟨levels, hrun⟩
    obtain ⟨result, hheal, hkept, hundone⟩ := heal_takesBack (.attempt child) hchild hrun
    refine ⟨(result.1, result.2.setInAttempt ctx.inAttempt), ⟨levels + 1, ?_⟩,
      fun hmatched => ?_, fun hfailed => ?_⟩
    · rw [runWithin_succ]
      show Form.attempt _ _ child ctx = _
      -- an attempt is a heal while speculating, with the flag restored behind it
      rw [attempt_eq_heal, hheal]
      rfl
    · obtain ⟨hsuccess, hplace, hevents⟩ := hkept hmatched
      exact ⟨hsuccess, hplace, hevents⟩
    · obtain ⟨hsuccess, hplace, hevents⟩ := hundone hfailed
      exact ⟨hsuccess, hplace, hevents⟩

/-- Alternatives wide enough for a table, the last of which matches anything. -/
def bindings : List Grammar :=
  [.token .int, .fold .exprApp (.token .upper) (.token .lower),
    .seq [.token .lower, .token .equals], .optional (.token .upper)]

/-- A name and an equals sign: the third alternative takes, two are passed over. And
a child with an optional head is healed as it matches. -/
theorem choice_commits_bindings :
    bindings.length ≤ dispatchCapacity
      ∧ (∀ alternative ∈ bindings, alternative.headsConsume = true)
      ∧ candidates bindings .lower
        = [.seq [.token .lower, .token .equals], .optional (.token .upper)]
      ∧ (∃ result reply, Evaluates (fun _ => none) (.choice bindings)
          (Context.initial nameAndEquals) result
        ∧ FirstTaken (fun _ => none) (Context.initial nameAndEquals) bindings reply
        ∧ SameEffect result reply ∧ result.2.place = 2)
      ∧ ∃ result, Evaluates (fun _ => none) (.heal (.seq [.optional (.token .int), .token .lower]))
          (Context.initial nameAndEquals) result
        ∧ result.1.success = true ∧ result.2.place = 1 := by
  have hroom : bindings.length ≤ dispatchCapacity := by decide
  have hheads : ∀ alternative ∈ bindings, alternative.headsConsume = true := by decide
  obtain ⟨hfirst, _, hheal, _⟩ := choice_commits (fun _ => none) bindings hroom hheads
    (.seq [.optional (.token .int), .token .lower]) rfl nameAndEquals
    (Context.initial nameAndEquals)
  refine ⟨hroom, hheads, rfl, ?_, ?_⟩
  · have hrun : (runWithin (fun _ => none) 5 (.choice bindings) (Context.initial nameAndEquals)).map
        (fun reply => (reply.1.success, reply.2.place)) = some (true, 2) := by
      decide +kernel
    obtain ⟨result, hresult, hends⟩ := Option.map_eq_some_iff.mp hrun
    obtain ⟨hsuccess, hplace⟩ := Prod.mk.inj hends
    rcases hfirst result ⟨5, hresult⟩ with ⟨reply, htaken, hsame⟩ | ⟨_, hfailed, _⟩
    · exact ⟨result, reply, ⟨5, hresult⟩, htaken, hsame, hplace⟩
    · rw [hsuccess] at hfailed
      cases hfailed
  · have hrun : (runWithin (fun _ => none) 3 (.seq [.optional (.token .int), .token .lower])
        (Context.initial nameAndEquals)).map
        (fun reply => (reply.1.success, reply.2.place)) = some (true, 1) := by
      decide +kernel
    obtain ⟨reply, hreply, hends⟩ := Option.map_eq_some_iff.mp hrun
    obtain ⟨hsuccess, hplace⟩ := Prod.mk.inj hends
    obtain ⟨result, hresult, htaken⟩ := hheal reply ⟨3, hreply⟩
    have hsame := htaken.kept hsuccess
    exact ⟨result, hresult, hsame.success.trans hsuccess, hsame.place.trans hplace⟩

end Grammar

end Offside
