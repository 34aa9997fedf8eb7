import Offside.Proofs.Parse.Denoted
import Offside.Proofs.Parse.Reported
import Offside.Proofs.Parse.Scanned

/-!
Choices with a table, and choices that try all of their alternatives.

`scanWithin` runs grammars as `runWithin` does, except that some choices try all of
their alternatives at some kinds of tokens, whatever these can start with. Which
choices, and at which kinds, is a parameter: the more scan, the less there is of
tables.

# What the two runs share

The outcomes of the two are not the same, and neither are the contexts, since what
is passed over in the one opens transactions in the other. They agree in what a run
looks at (`Outcome.Tells`), and in place, flag and log. So this is a likeness, and
all forms but the choice are dealt with by what is known of likenesses. For a choice
there is one step more: the scan in the one run is the scan in the other, and that
is compared with the choice there (`choice_of_scan`).

What is shared of the reports goes by two propositions, as it takes more of the
alternatives to say more. Without either of them the runs share success and place,
and that makes for the same tree. With `told` the messages are the same, and with a
table no more is expected than without. With `exact` the same is expected.

# What is missing

With a table, a choice does not expect what the alternatives do that it has passed
over, unless it has passed over all of them, or has tried them all, or has consumed a
token (`Settled`). So messages depend on the number of alternatives
(`table_drops_expectations`).
-/

namespace Offside

open Context

variable {input : Input}

-- ====================================================== what is told

/-- What an outcome owes to that of a run with fewer tables. -/
structure Outcome.Tells (told exact : Prop) (scan result : Outcome) : Prop where
  success : scan.success = result.success
  place : scan.place = result.place
  message : told → scan.message = result.message
  describes : told → ∀ text ∈ result.descriptions, text ∈ scan.descriptions
  all : exact → ∀ text ∈ scan.descriptions, text ∈ result.descriptions

namespace Outcome

variable {told exact : Prop} {scan result other : Outcome}

theorem Tells.refl (outcome : Outcome) : outcome.Tells told exact outcome :=
  ⟨rfl, rfl, fun _ => rfl, fun _ _ h => h, fun _ _ h => h⟩

/-- What is told is passed on from run to run. -/
theorem Tells.trans (h : scan.Tells told exact other) (hother : other.Tells told exact result) :
    scan.Tells told exact result where
  success := h.success.trans hother.success
  place := h.place.trans hother.place
  message htold := (h.message htold).trans (hother.message htold)
  describes htold text hmem := h.describes htold text (hother.describes htold text hmem)
  all hexact text hmem := hother.all hexact text (h.all hexact text hmem)

/-- A choice that leaves nothing unsaid tells all that the scan does. -/
theorem Fewer.tells {start : Nat} (h : Fewer told start scan result)
    (hall : exact → ∀ text ∈ scan.descriptions, text ∈ result.descriptions) :
    scan.Tells told exact result where
  success := h.success.symm
  place := h.place.symm
  message htold := (h.message htold).symm
  describes := h.describes
  all := hall

/-- The two outcomes of one more run, at the same place in both. -/
theorem Tells.merge {later last : Outcome} (h : scan.Tells told exact result)
    (hlater : later.Tells told exact last) :
    (scan.merge later).Tells told exact (result.merge last) := by
  have hplace := h.place
  have hlast := hlater.place
  rcases Nat.lt_trichotomy scan.place later.place with hlt | heq | hgt
  · rw [merge_of_lt hlt, merge_of_lt (by omega)]
    exact hlater
  · have hresult : result.place = last.place := by omega
    refine ⟨?_, ?_, fun htold => ?_, fun htold text => ?_, fun hexact text => ?_⟩
    · rw [success_merge, success_merge, hlater.success]
    · rw [merge_of_eq heq, merge_of_eq hresult]
      exact hlast
    · rw [merge_of_eq heq, merge_of_eq hresult, h.message htold, hlater.message htold]
    · rw [mem_descriptions_merge heq, mem_descriptions_merge hresult]
      exact Or.imp (h.describes htold text) (hlater.describes htold text)
    · rw [mem_descriptions_merge heq, mem_descriptions_merge hresult]
      exact Or.imp (h.all hexact text) (hlater.all hexact text)
  · rw [merge_of_gt hgt, merge_of_gt (by omega)]
    exact ⟨hlater.success, hplace, h.message, h.describes, h.all⟩

/-- Telling the same, as far as it goes, as an agreement of outcomes. -/
def Agreement.telling (told exact : Prop) : Agreement where
  Rel := Tells told exact
  success h := h.success
  place h := h.place
  refl := .refl
  merge h hlater := h.merge hlater
  withSuccess _ h := ⟨rfl, h.place, h.message, h.describes, h.all⟩
  relabel _ _ h := ⟨rfl, rfl, h.message, fun _ _ hmem => hmem, fun _ _ hmem => hmem⟩

end Outcome

/-- Having the same log, and outcomes that tell the same, as a likeness. -/
def Likeness.telling (input : Input) (told exact : Prop) : Likeness input :=
  { Likeness.shifted input [] [] with outcomes := .telling told exact }

namespace Grammar

open Form

-- =================================================== fewer tables

/-- One level of a run in which a choice tries all of its alternatives where `scans` says
so of them and of the kind of the current token. -/
def scanLevel (scans : List Grammar → TokenKind → Bool) (rules : RuleTable) (run : Runner input)
    (grammar : Grammar) (ctx : Context input) : Reply input :=
  match grammar with
  | .choice alternatives =>
    if scans alternatives ctx.kind then choose run none alternatives ctx
    else Form.choice run grammar alternatives ctx
  | grammar => runLevel rules run grammar ctx

/-- Runs a grammar in this way, with at most `levels` runs nested in each other. -/
def scanWithin (scans : List Grammar → TokenKind → Bool) (rules : RuleTable) : Nat → Runner input
  | 0, _, _ => none
  | levels + 1, grammar, ctx =>
    scanLevel scans rules (scanWithin scans rules levels) grammar ctx

/-- What it takes of the alternatives of a choice for a table to make no difference at a
kind of token. -/
structure Tabled (told exact : Prop) (rules : RuleTable) (alternatives : List Grammar)
    (kind : TokenKind) : Prop where
  room : alternatives.length ≤ dispatchCapacity
  heads : ∀ alternative ∈ alternatives, alternative.headsConsume = true
  candid : told → ∀ alternative ∈ alternatives, alternative.candid = true
  settled : exact → Settled rules alternatives kind

variable {told exact : Prop} {rules : RuleTable} {scans : List Grammar → TokenKind → Bool}

/-- Where the scan of alternatives answers, so does the choice among them. -/
theorem choice_tells {levels : Nat} {alternatives : List Grammar} {ctx after : Context input}
    {outcome : Outcome} (hexact : exact → told)
    (htabled : Tabled told exact rules alternatives ctx.kind)
    (h : choose (runWithin rules levels) none alternatives ctx = some (outcome, after)) :
    ∃ result last, Form.choice (runWithin rules levels) (.choice alternatives) alternatives ctx
        = some (result, last)
      ∧ outcome.Tells told exact result ∧ SharesLog after last := by
  obtain ⟨result, last, hresult, hfewer, hlog⟩ :=
    choice_of_scan htabled.room htabled.heads htabled.candid h
  refine ⟨result, last, hresult, hfewer.tells fun hall => ?_, hlog⟩
  have htold := hexact hall
  exact describes_of_settled htabled.room (htabled.candid htold) (htabled.settled hall) h hresult
    (hfewer.of_told htold)

/-- Where the run with fewer tables answers, so does the run, and tells as much. -/
theorem simulates_scanWithin (hexact : exact → told)
    (htabled : ∀ alternatives kind, scans alternatives kind = true →
      Tabled told exact rules alternatives kind) (levels : Nat) :
    (Likeness.telling input told exact).Simulates (scanWithin scans rules levels)
      (runWithin rules levels) := by
  induction levels with
  | zero => exact fun _ _ _ _ => .none
  | succ levels ih =>
    intro grammar ctx other h
    rw [runWithin_succ, scanWithin]
    unfold scanLevel
    split
    case h_2 => exact Likeness.simulates_runLevel ih rules _ ctx other h
    case h_1 alternatives =>
      split
      case isFalse => exact Likeness.answers_choice ih _ alternatives h
      case isTrue hscans =>
        intro outcome after hscan
        obtain ⟨between, middle, hmiddle, htells, hlog⟩ :=
          Likeness.answers_choose ih alternatives none none ctx other .none h _ _ hscan
        rw [(Likeness.telling input told exact).kind h] at hscans
        obtain ⟨result, last, hresult, hlast, hlater⟩ :=
          choice_tells hexact (htabled _ _ hscans) hmiddle
        exact ⟨result, last, hresult, Outcome.Tells.trans htells hlast, SharesLog.trans hlog hlater⟩

end Grammar

-- ========================================================= the parse

namespace Likeness

open Parse

variable (like : Likeness input) {ctx other : Context input}

theorem advanceMany_alike (count : Nat) : ∀ ctx other : Context input, like.Rel ctx other →
    like.Rel (advanceMany ctx count) (advanceMany other count) := by
  induction count with
  | zero => exact fun _ _ h => h
  | succ count ih => exact fun ctx other h => ih _ _ (like.advance h)

/-- What is left over goes into an error node. -/
theorem leftover_alike (h : like.Rel ctx other) :
    like.Rel ((advanceMany ctx.mark.2 (input.size - ctx.mark.2.place)).complete ctx.mark.1 .error).2
      ((advanceMany other.mark.2 (input.size - other.mark.2.place)).complete
        other.mark.1 .error).2 := by
  have hmark := like.mark h
  rw [← like.place hmark]
  exact like.complete .error (like.advanceMany_alike _ _ _ hmark) (like.marked h)

/-- What a parse does behind the run of its entry. -/
theorem close_alike (outcome : Outcome) {root another : Marker} (h : like.Rel ctx other)
    (hroot : like.Marked root.index another.index) :
    like.Rel (Parse.close root outcome ctx) (Parse.close another outcome other) := by
  refine like.complete .root ?_ hroot
  have hreported := like.report (failureDiagnostic input outcome) h
  cases outcome.success with
  | true =>
    simp only [reduceIte]
    rw [← like.atEnd h, ← like.place h]
    split
    · exact h
    · exact like.leftover_alike (like.report _ h)
  | false =>
    simp only [Bool.false_eq_true, reduceIte]
    rw [← like.atEnd hreported]
    split
    · exact hreported
    · exact like.leftover_alike hreported

end Likeness

namespace Parse

variable {ctx other : Context input} {scan result : Outcome}

/-- A parse depends on the context behind its entry by place, flag and log only. -/
theorem ofReply_of_sharesLog (outcome : Outcome) (h : SharesLog ctx other) :
    ofReply (outcome, ctx) = ofReply (outcome, other) := by
  have hclosed := (Likeness.shifted input [] []).close_alike outcome h
    (⟨0, rfl, rfl⟩ : ShiftedIndex [] [] (Context.initial input).mark.1.index
      (Context.initial input).mark.1.index)
  unfold ofReply
  rw [SharesLog.events_eq hclosed]

/-- Outcomes that tell the same make the same parse. -/
theorem ofReply_of_tells (h : scan.Tells True True result) (ctx : Context input) :
    ofReply (scan, ctx) = ofReply (result, ctx) := by
  have hdescriptions : scan.descriptions = result.descriptions :=
    Outcome.descriptions_eq_iff.mpr fun text => ⟨h.all trivial text, h.describes trivial text⟩
  have hfailure : failureDiagnostic input scan = failureDiagnostic input result := by
    unfold failureDiagnostic
    rw [h.place, hdescriptions, h.message trivial]
  have hleftover : ∀ place, leftoverDiagnostic input scan place
      = leftoverDiagnostic input result place := by
    intro place
    unfold leftoverDiagnostic
    rw [h.place, hdescriptions]
  unfold ofReply Parse.close
  simp only [h.success, hfailure, hleftover]

/-- Outcomes of one entry, with the same log, make the same tree. -/
theorem tree_of_sharesLog {rules : RuleTable} {levels : Nat} {entry : Grammar}
    {reply : Outcome × Context input}
    (hrun : entry.runWithin rules levels (Context.initial input).mark.2 = some reply)
    (hlog : SharesLog ctx reply.2) : (ofReply (scan, ctx)).tree = (ofReply reply).tree := by
  obtain ⟨pieces, hadds⟩ := (Grammar.extends_runWithin rules levels _ _ _ hrun).adds
  have hscan : (Context.initial input).mark.2.Adds (scan, reply.2).2 pieces := hadds
  rw [ofReply_of_sharesLog scan hlog, tree_ofReply hscan, tree_ofReply hadds]

end Parse

namespace Grammar

open Parse Form

variable {rules : RuleTable} {alternatives : List Grammar}

/-- All alternatives report what they describe, where the current token cannot start
them. -/
abbrev AllCandid (alternatives : List Grammar) : Prop :=
  ∀ alternative ∈ alternatives, alternative.candid = true

/-- The choice among alternatives none of which is taken, and their scan. -/
theorem choice_agrees (hroom : alternatives.length ≤ dispatchCapacity)
    (hheads : ∀ alternative ∈ alternatives, alternative.headsConsume = true) {ctx : Context input}
    (hundecided : Undecided rules alternatives ctx) :
    ∃ scan result : Outcome × Context input, Scans rules alternatives ctx scan
      ∧ Evaluates rules (.choice alternatives) ctx result
      ∧ SameEffect result scan ∧ NoTrace ctx result
      ∧ (∀ text, text ∈ scan.1.descriptions
        ↔ ∃ alternative ∈ alternatives, ∃ reply, Evaluates rules alternative ctx reply
          ∧ text ∈ reply.1.descriptions)
      ∧ (AllCandid alternatives → result.1.message = scan.1.message
        ∧ (result.1.descriptions = scan.1.descriptions
          ↔ candidates alternatives ctx.kind = []
            ∨ ∀ alternative ∈ alternatives, alternative.canStart ctx.kind = false →
              ∀ text ∈ alternative.startDescriptions, text ∈ result.1.descriptions)) := by
  obtain ⟨levels, hlevels⟩ := exists_levels fun alternative hmem =>
    (hundecided alternative hmem).imp fun _ h => h.1
  -- the scan answers, since each alternative does
  obtain ⟨⟨outcome, after⟩, hscan⟩ := choose_answers hlevels (.inl rfl) none ctx.nextId
  rw [List.append_nil] at hscan
  obtain ⟨result, last, hresult, hfewer, hlog⟩ := choice_of_scan hroom hheads id hscan
  have hevaluates : Evaluates rules (.choice alternatives) ctx (result, last) :=
    ⟨levels + 1, by rw [runWithin_succ]; exact hresult⟩
  refine ⟨(outcome, after), (result, last), ⟨levels, hscan⟩, hevaluates,
    ⟨hfewer.success, hlog.place.symm, hlog.events_eq.symm⟩, ?_, fun text => ?_,
    fun hcandid => ⟨hfewer.message hcandid,
      descriptions_eq_scan_iff hroom hcandid hundecided hscan hresult (hfewer.of_told hcandid)⟩⟩
  · -- no alternative is taken, so that the choice has failed and left nothing
    rcases choice_first hroom hheads hevaluates with
      ⟨reply, ⟨before, alternative, behind, rfl, _, hreply, htaken⟩, _⟩ | ⟨_, htrace⟩
    · obtain ⟨another, hanother, hleft⟩ :=
        hundecided alternative (List.mem_append_right _ List.mem_cons_self)
      rw [hreply.unique hanother] at htaken
      exact absurd htaken hleft
    · exact htrace
  · have hdescribes := choose_describes hundecided none ctx (.refl ctx) ⟨rfl, rfl⟩ hscan text
    rw [hdescribes, or_iff_right]
    rw [Outcome.mem_descriptions]
    rintro ⟨_, hmem, _⟩
    cases hmem

/-- A parse in which some choices scan their alternatives. -/
theorem parse_agrees {scans : List Grammar → TokenKind → Bool} {entry : Grammar}
    {scan : Outcome × Context input}
    (hpassable : ∀ alternatives kind, scans alternatives kind = true →
      alternatives.length ≤ dispatchCapacity
        ∧ ∀ alternative ∈ alternatives, alternative.headsConsume = true)
    (hscan : scanWithin scans rules (levelsFor input) entry (Context.initial input).mark.2
      = some scan) :
    ∃ result, entry.run rules (Context.initial input).mark.2 = some result
      ∧ SameEffect result scan ∧ (ofInput rules entry input).tree = (ofReply scan).tree
      ∧ ((∀ alternatives kind, scans alternatives kind = true → AllCandid alternatives) →
        result.1.message = scan.1.message
          ∧ (∀ text ∈ result.1.descriptions, text ∈ scan.1.descriptions)
          ∧ ((∀ alternatives kind, scans alternatives kind = true →
              Settled rules alternatives kind) →
            ofInput rules entry input = ofReply scan)) := by
  obtain ⟨outcome, after⟩ := scan
  generalize htold : (∀ alternatives kind, scans alternatives kind = true →
    AllCandid alternatives) = told
  generalize hsettled : (∀ alternatives kind, scans alternatives kind = true →
    Settled rules alternatives kind) = settled
  -- what is asked of the alternatives becomes two propositions, so that one likeness serves for
  -- all three statements
  have hsimulates : (Likeness.telling input told (told ∧ settled)).Simulates
      (scanWithin scans rules (levelsFor input)) (runWithin rules (levelsFor input)) := by
    refine simulates_scanWithin And.left (fun alternatives kind hscans => ?_) _
    obtain ⟨hroom, hheads⟩ := hpassable alternatives kind hscans
    subst htold hsettled
    exact ⟨hroom, hheads, fun hcandid => hcandid alternatives kind hscans,
      fun hall => hall.2 alternatives kind hscans⟩
  obtain ⟨result, last, hrun, htells, hlog⟩ :=
    hsimulates entry _ _ (SharesLog.refl _) outcome after hscan
  have hentry : runEntry rules entry (Context.initial input).mark.2 = (result, last) := by
    unfold runEntry
    rw [show entry.run rules (Context.initial input).mark.2 = some (result, last) from hrun]
    rfl
  have hparse : ofInput rules entry input = ofReply (result, last) := congrArg ofReply hentry
  refine ⟨(result, last), hrun,
    ⟨htells.success.symm, hlog.place.symm, (SharesLog.events_eq hlog).symm⟩, ?_,
    fun hcandid => ⟨(htells.message hcandid).symm, htells.describes hcandid, fun hall => ?_⟩⟩
  · rw [hparse, tree_of_sharesLog hrun hlog]
  · -- with all the hypotheses the outcomes say the same, and so the diagnostics do
    have hsame : outcome.Tells True True result :=
      ⟨htells.success, htells.place, fun _ => htells.message hcandid,
        fun _ => htells.describes hcandid, fun _ => htells.all ⟨hcandid, hall⟩⟩
    rw [hparse, ofReply_of_sharesLog outcome hlog, ofReply_of_tells hsame]

-- ================================================ choices among tokens

/-- Whether the grammar is a token that can be consumed. -/
def isToken : Grammar → Bool
  | .token kind => kind != .eof
  | _ => false

/-- Whether the alternatives are tokens, no more than a table has room for. -/
def areTokens (alternatives : List Grammar) : Bool :=
  decide (alternatives.length ≤ dispatchCapacity) && alternatives.all isToken

/-- Alternatives that are tokens fit into a table, and each has its kind. -/
theorem areTokens_cases (h : areTokens alternatives = true) :
    alternatives.length ≤ dispatchCapacity
      ∧ ∀ alternative ∈ alternatives, ∃ kind, alternative = .token kind ∧ kind ≠ .eof := by
  obtain ⟨hroom, htokens⟩ := Bool.and_eq_true_iff.mp h
  refine ⟨of_decide_eq_true hroom, fun alternative hmem => ?_⟩
  have htoken := List.all_eq_true.mp htokens alternative hmem
  cases alternative with
  | token kind => exact ⟨kind, rfl, bne_iff_ne.mp htoken⟩
  | _ => cases htoken

/-- A choice among tokens consumes the one that it is at. -/
theorem commits_of_areTokens (h : areTokens alternatives = true) {kind : TokenKind}
    (hmem : .token kind ∈ alternatives) : Commits rules alternatives kind := by
  obtain ⟨_, htokens⟩ := areTokens_cases h
  rintro input ctx scan hkind ⟨levels, hscan⟩
  rcases choose_commits hscan with
    ⟨reply, ⟨before, alternative, behind, rfl, _, ⟨more, hreply⟩, htaken⟩, hsame⟩ | ⟨hnever, _⟩
  · obtain ⟨other, rfl, _⟩ := htokens alternative (List.mem_append_right _ List.mem_cons_self)
    rw [hsame.place]
    by_contra hstayed
    have hadmitted := admitting_runWithin rules more _ _ _ hreply rfl
    rcases hadmitted.stayed (htaken.resolve_right hstayed) (Nat.le_of_not_lt hstayed) with h | h
    · cases h
    · cases h
  · obtain ⟨other, hother, heof⟩ := htokens _ hmem
    cases hother
    have hreply : runWithin rules 1 (.token kind) ctx
        = some (single (.token kind) (ctx.isAt kind) ctx) := rfl
    exact absurd (.inl (run_token hreply hkind heof).1) (hnever _ hmem _ ⟨1, hreply⟩)

/-- Choices among tokens are settled, whatever the current token is. -/
theorem settled_of_areTokens (h : areTokens alternatives = true) (kind : TokenKind) :
    Settled rules alternatives kind := by
  obtain ⟨_, htokens⟩ := areTokens_cases h
  by_cases hmem : .token kind ∈ alternatives
  · exact .inr (.inr (commits_of_areTokens h hmem))
  · have hnone : ∀ alternative ∈ alternatives, alternative.canStart kind = false := by
      intro alternative halternative
      obtain ⟨other, rfl, _⟩ := htokens alternative halternative
      rw [Bool.eq_false_iff]
      intro hstart
      rw [TokenSet.eq_of_contains_single hstart] at halternative
      exact hmem halternative
    rcases candidates_of_not_admits hnone with ⟨_, hcandidates⟩ | ⟨_, hcandidates⟩
    · exact .inl hcandidates
    · exact .inr (.inl hcandidates)

/-- So a table for them makes no difference at all. -/
theorem tabled_of_areTokens (h : areTokens alternatives = true) (kind : TokenKind) :
    Tabled True True rules alternatives kind := by
  obtain ⟨hroom, htokens⟩ := areTokens_cases h
  refine ⟨hroom, fun alternative hmem => ?_, fun _ alternative hmem => ?_,
    fun _ => settled_of_areTokens h kind⟩
  · obtain ⟨other, rfl, _⟩ := htokens alternative hmem
    rfl
  · obtain ⟨other, rfl, _⟩ := htokens alternative hmem
    rfl

-- ==================================================== the statement

/-- A table for a choice changes nothing about what the choice does. In whatever context
all alternatives come to replies and none of them is taken, the choice and the scan of
its alternatives both fail without a trace, and the scan expects what any of the
alternatives does. If these are candid, the choice makes the same report; and it expects
the same just if the table has nothing to try, or what describes the alternatives that
are passed over is expected anyway.

So it is in a parse, whichever choices scan their alternatives and at whichever kinds:
where the entry comes to a reply without the tables, it does with them, with the same
effect and the same tree. Where the alternatives are candid, the reports are the same and
nothing more is expected; and where they are settled as well, the parse is the same. -/
theorem table_agrees (rules : RuleTable) :
    (∀ alternatives : List Grammar, alternatives.length ≤ dispatchCapacity →
      (∀ alternative ∈ alternatives, alternative.headsConsume = true) →
      ∀ (input : Input) (ctx : Context input), Undecided rules alternatives ctx →
        ∃ scan result : Outcome × Context input, Scans rules alternatives ctx scan
          ∧ Evaluates rules (.choice alternatives) ctx result
          ∧ SameEffect result scan ∧ NoTrace ctx result
          ∧ (∀ text, text ∈ scan.1.descriptions
            ↔ ∃ alternative ∈ alternatives, ∃ reply, Evaluates rules alternative ctx reply
              ∧ text ∈ reply.1.descriptions)
          ∧ (AllCandid alternatives → result.1.message = scan.1.message
            ∧ (result.1.descriptions = scan.1.descriptions
              ↔ candidates alternatives ctx.kind = []
                ∨ ∀ alternative ∈ alternatives, alternative.canStart ctx.kind = false →
                  ∀ text ∈ alternative.startDescriptions, text ∈ result.1.descriptions)))
    ∧ ∀ scans : List Grammar → TokenKind → Bool,
      (∀ alternatives kind, scans alternatives kind = true →
        alternatives.length ≤ dispatchCapacity
          ∧ ∀ alternative ∈ alternatives, alternative.headsConsume = true) →
      ∀ (entry : Grammar) (input : Input) (scan : Outcome × Context input),
        scanWithin scans rules (levelsFor input) entry (Context.initial input).mark.2
          = some scan →
        ∃ result, entry.run rules (Context.initial input).mark.2 = some result
          ∧ SameEffect result scan ∧ (ofInput rules entry input).tree = (ofReply scan).tree
          ∧ ((∀ alternatives kind, scans alternatives kind = true → AllCandid alternatives) →
            result.1.message = scan.1.message
              ∧ (∀ text ∈ result.1.descriptions, text ∈ scan.1.descriptions)
              ∧ ((∀ alternatives kind, scans alternatives kind = true →
                  Settled rules alternatives kind) →
                ofInput rules entry input = ofReply scan)) := by
  constructor
  · intro alternatives hroom hheads input ctx hundecided
    exact choice_agrees hroom hheads hundecided
  · intro scans hpassable entry input scan hscan
    exact parse_agrees hpassable hscan

/-- Alternatives that come to failures without consuming are undecided. -/
theorem undecided_of_failures (levels : Nat) {ctx : Context input}
    (h : ∀ alternative ∈ alternatives, (runWithin rules levels alternative ctx).map
      (fun reply => (reply.1.success, reply.2.place)) = some (false, ctx.place)) :
    Undecided rules alternatives ctx := by
  intro alternative hmem
  obtain ⟨reply, hreply, hends⟩ := Option.map_eq_some_iff.mp (h alternative hmem)
  obtain ⟨hfailed, hstays⟩ := Prod.mk.inj hends
  refine ⟨reply, ⟨levels, hreply⟩, ?_⟩
  rintro (hsuccess | hprogress)
  · rw [hfailed] at hsuccess
    cases hsuccess
  · rw [hstays] at hprogress
    exact absurd hprogress (Nat.lt_irrefl _)

/-- Tokens, as many as make a table. -/
def literals : List Grammar := [.token .int, .token .upper, .token .string, .token .char]

/-- At a name no literal can start, and the choice expects all of them, as their scan
does. And behind the name, where there is none either, the parse is the same if choices
among tokens have no table. -/
theorem table_agrees_literals :
    literals.length ≤ dispatchCapacity
      ∧ (∀ alternative ∈ literals, alternative.headsConsume = true) ∧ AllCandid literals
      ∧ (∃ scan result : Outcome × Context nameAndEquals,
        Scans (fun _ => none) literals (Context.initial nameAndEquals) scan
          ∧ Evaluates (fun _ => none) (.choice literals) (Context.initial nameAndEquals) result
          ∧ result.1.descriptions = scan.1.descriptions)
      ∧ ∃ scan : Outcome × Context nameAndEquals,
        scanWithin (fun alternatives _ => areTokens alternatives) (fun _ => none)
            (levelsFor nameAndEquals) (.seq [.token .lower, .choice literals])
            (Context.initial nameAndEquals).mark.2 = some scan
          ∧ scan.1.success = false ∧ scan.2.place = 1
          ∧ ofInput (fun _ => none) (.seq [.token .lower, .choice literals]) nameAndEquals
            = ofReply scan := by
  have hroom : literals.length ≤ dispatchCapacity := by decide
  have hheads : ∀ alternative ∈ literals, alternative.headsConsume = true := by decide
  have hcandid : AllCandid literals := by decide
  obtain ⟨hchoice, hparse⟩ := table_agrees fun _ => none
  refine ⟨hroom, hheads, hcandid, ?_, ?_⟩
  · have hundecided : Undecided (fun _ => none) literals (Context.initial nameAndEquals) :=
      undecided_of_failures 1 (by decide +kernel)
    obtain ⟨scan, result, hscan, hresult, _, _, _, htold⟩ :=
      hchoice literals hroom hheads nameAndEquals _ hundecided
    exact ⟨scan, result, hscan, hresult, (htold hcandid).2.mpr (.inl rfl)⟩
  · have hrun : (scanWithin (fun alternatives _ => areTokens alternatives) (fun _ => none)
        (levelsFor nameAndEquals) (.seq [.token .lower, .choice literals])
        (Context.initial nameAndEquals).mark.2).map (fun reply => (reply.1.success, reply.2.place))
        = some (false, 1) := by
      decide +kernel
    obtain ⟨scan, hscan, hends⟩ := Option.map_eq_some_iff.mp hrun
    obtain ⟨hfailed, hplace⟩ := Prod.mk.inj hends
    have htabled : ∀ {alternatives : List Grammar}, areTokens alternatives = true →
        ∀ kind, Tabled True True (fun _ => none) alternatives kind := tabled_of_areTokens
    obtain ⟨_, _, _, _, htold⟩ := hparse (fun alternatives _ => areTokens alternatives)
      (fun _ kind htokens => ⟨(htabled htokens kind).room, (htabled htokens kind).heads⟩)
      _ _ scan hscan
    have hsame := htold fun _ kind htokens => (htabled htokens kind).candid trivial
    exact ⟨scan, hscan, hfailed, hplace,
      hsame.2.2 fun _ kind htokens => (htabled htokens kind).settled trivial⟩

/-- Alternatives wide enough for a table, the last of which any token may start. -/
def importParts : List Grammar := [.token .int, .token .upper, .token .string, .literal "hiding"]

/-- At a name only the last alternative is tried, and what the others expect is missing:
from what the choice expects, and from the message of the parse. -/
theorem table_drops_expectations :
    Undecided (fun _ => none) importParts (Context.initial nameAndEquals)
      ∧ (∃ scan result : Outcome × Context nameAndEquals,
        Scans (fun _ => none) importParts (Context.initial nameAndEquals) scan
          ∧ Evaluates (fun _ => none) (.choice importParts) (Context.initial nameAndEquals) result
          ∧ scan.1.descriptions = ["hiding", "integer", "proper name", "string"]
          ∧ result.1.descriptions = ["hiding"])
      ∧ ∃ scan : Outcome × Context nameAndEquals,
        scanWithin (fun _ _ => true) (fun _ => none) (levelsFor nameAndEquals)
            (.choice importParts) (Context.initial nameAndEquals).mark.2 = some scan
          ∧ (ofReply scan).diagnostics.map (·.message)
            = ["unexpected `x`, expected `hiding`, `integer`, `proper name`, or `string`"]
          ∧ (ofInput (fun _ => none) (.choice importParts)
              nameAndEquals).diagnostics.map (·.message)
            = ["unexpected `x`, expected `hiding`"] := by
  have hundecided : Undecided (fun _ => none) importParts (Context.initial nameAndEquals) :=
    undecided_of_failures 1 (by decide +kernel)
  have hsorted : sortedOnce ["integer", "proper name", "string", "hiding"]
      = ["hiding", "integer", "proper name", "string"] := by
    unfold sortedOnce
    simp [List.mergeSort]
    rfl
  have hfailure : failureDiagnostic nameAndEquals ⟨0, importParts, none, false⟩
      = .unexpected ⟨0, 1⟩ ["hiding", "integer", "proper name", "string"] "`x`" := by
    unfold failureDiagnostic Outcome.descriptions
    show Diagnostic.unexpected _ (sortedOnce ["integer", "proper name", "string", "hiding"]) _ = _
    rw [hsorted]
    rfl
  refine ⟨hundecided, ⟨_, _, ⟨1, rfl⟩, ⟨2, rfl⟩, hsorted, by decide +kernel⟩,
    ⟨_, rfl, ?_, by decide +kernel⟩⟩
  show [(failureDiagnostic nameAndEquals ⟨0, importParts, none, false⟩).message] = _
  rw [hfailure]
  decide +kernel

end Grammar

end Offside
