import Offside.Proofs.Diagnostic.Pointed
import Offside.Proofs.Parse.Accounted
import Offside.Proofs.Parse.Stopped

/-!
The diagnostics of a parse come in the order of the source, and point into it.

A report is made when recovery has done its work, on a stretch that may have begun
earlier, and what is taken back takes its reports along. What survives is in the log of
the run, and a log goes from one place of the input to another.

# The invariant

The reports in a log from one place to another are on stretches that start with tokens
in between, each no earlier than the one before it (`Reports`, `Log.reported`). It is
the place where a skipped stretch starts that counts, and the log of that stretch starts
there as well. Logs in a row meet at a place, so their reports are in order
(`Reports.append`); nodes that are wrapped change nothing about this.

What the parse itself reports is on the token at which the run of the entry stopped
(`Outcome.StopsAt`). That is where the log ends, so this report comes last.

# From places to offsets

The tokens of an input in order have starts in order (`Ordered.start_le`), and spans of
tokens lie between boundaries of the source (`Tiled.inside_spanAt`).
-/

namespace Offside

open Parse

variable {input : Input} {eof : Position}

-- ================================================= where tokens stand

namespace Input

theorem mem_of_get? {place : Nat} {token : LayoutToken} (h : input.get? place = some token) :
    token ∈ input.tokens.toList := by
  obtain ⟨index, _, htoken⟩ := Option.bind_eq_some_iff.mp h
  exact Array.mem_toList_iff.mpr (Array.mem_of_getElem? htoken)

/-- The end of the source is the stretch behind the last token. -/
theorem spanAt_of_size_le {place : Nat} (hend : input.size ≤ place) :
    input.spanAt place = Span.point input.endOffset := by
  unfold spanAt get? rawIndex?
  rw [Array.getElem?_eq_none hend]
  rfl

namespace Tiled

/-- From the start of one token to the end of another. -/
theorem inside_between (h : input.Tiled eof) {left right : LayoutToken}
    (hleft : left ∈ input.tokens.toList) (hright : right ∈ input.tokens.toList)
    (hle : left.span.start ≤ right.span.stop) :
    Span.Inside ⟨left.span.start, right.span.stop⟩ input.source := by
  rw [left.span_eq, right.span_eq] at hle ⊢
  exact Span.inside_of_isExact (h.exact left hleft).1 (h.exact right hright).2 hle

theorem inside_token (h : input.Tiled eof) {token : LayoutToken}
    (hmem : token ∈ input.tokens.toList) : token.span.Inside input.source := by
  have hwidth := h.width token hmem
  have hspan := h.inside_between hmem hmem (by rw [token.span_eq]; exact hwidth)
  rwa [token.span_eq] at hspan ⊢

/-- The token at a place, or the end of the source. -/
theorem inside_spanAt (h : input.Tiled eof) (place : Nat) :
    (input.spanAt place).Inside input.source := by
  cases htoken : input.get? place with
  | some token =>
    unfold spanAt
    rw [htoken]
    exact h.inside_token (mem_of_get? htoken)
  | none =>
    unfold spanAt
    rw [htoken]
    exact ⟨Nat.le_refl _, Nat.le_refl _, String.Pos.Raw.isValid_rawEndPos,
      String.Pos.Raw.isValid_rawEndPos⟩

end Tiled

/-- Tokens further on start no earlier. -/
theorem Ordered.start_le (h : input.Ordered) (htiled : input.Tiled eof) {first last : Nat}
    (hle : first ≤ last) : (input.spanAt first).start ≤ (input.spanAt last).start := by
  have hfirst := htiled.inside_spanAt first
  rcases Nat.lt_or_ge last input.size with hinside | hend
  · obtain ⟨tokens, ⟨hsize, hget⟩, hpairs⟩ := h
    rw [hsize] at hinside
    unfold spanAt
    rw [hget, hget, List.getElem?_eq_getElem hinside,
      List.getElem?_eq_getElem (Nat.lt_of_le_of_lt hle hinside)]
    rcases Nat.lt_or_eq_of_le hle with hlt | rfl
    · exact (List.pairwise_iff_getElem.mp hpairs _ _ _ hinside hlt).1
    · exact Nat.le_refl _
  · rw [spanAt_of_size_le hend]
    exact Nat.le_trans hfirst.le hfirst.within

end Input

-- ===================================================== reports in order

/-- The point at which a stretch starts. -/
theorem Span.Inside.point {span : Span} {source : String} (h : span.Inside source) :
    (Span.point span.start).Inside source :=
  ⟨Nat.le_refl _, Nat.le_trans h.le h.within, h.start, h.start⟩

/-- Reports from one place to another: each is on a stretch of the source that starts
with the token of a place, and the places do not go back. -/
inductive Reports (input : Input) : Nat → List Diagnostic → Nat → Prop
  | nil {first last : Nat} (onward : first ≤ last) : Reports input first [] last
  | cons {first place last : Nat} {diagnostic : Diagnostic} {rest : List Diagnostic} {span : Span}
      (onward : first ≤ place) (on : diagnostic.IsOn span)
      (start : span.start = (input.spanAt place).start) (inside : span.Inside input.source)
      (later : Reports input place rest last) : Reports input first (diagnostic :: rest) last

namespace Reports

variable {first place last : Nat} {diagnostics others : List Diagnostic}

/-- What starts further on starts no earlier. -/
theorem weaken (hle : first ≤ place) (h : Reports input place diagnostics last) :
    Reports input first diagnostics last := by
  cases h with
  | nil onward => exact .nil (Nat.le_trans hle onward)
  | cons onward on start inside later =>
    exact .cons (Nat.le_trans hle onward) on start inside later

theorem append (earlier : Reports input first diagnostics place)
    (later : Reports input place others last) :
    Reports input first (diagnostics ++ others) last := by
  induction earlier with
  | nil onward => exact later.weaken onward
  | cons onward on start inside _ ih => exact .cons onward on start inside (ih later)

/-- A single report, on the token of a place. -/
theorem single {diagnostic : Diagnostic} {span : Span} (on : diagnostic.IsOn span)
    (start : span.start = (input.spanAt first).start) (inside : span.Inside input.source)
    (hle : first ≤ last) : Reports input first [diagnostic] last :=
  .cons (Nat.le_refl _) on start inside (.nil hle)

/-- The stretches that the reports are on, in order. -/
theorem spans (htiled : input.Tiled eof) (hordered : input.Ordered)
    (h : Reports input first diagnostics last) :
    ∃ spans : List Span, List.Forall₂ Diagnostic.IsOn diagnostics spans
      ∧ spans.Pairwise (fun left right => left.start ≤ right.start)
      ∧ (∀ span ∈ spans, (input.spanAt first).start ≤ span.start)
      ∧ ∀ span ∈ spans, span.Inside input.source := by
  induction h with
  | nil => exact ⟨[], .nil, .nil, nofun, nofun⟩
  | @cons first place last diagnostic rest span onward on start inside _ ih =>
    obtain ⟨spans, hon, hpairs, hbehind, hinside⟩ := ih
    have hstart := hordered.start_le htiled onward
    rw [← start] at hbehind hstart
    refine ⟨span :: spans, .cons on hon, .cons hbehind hpairs, ?_, ?_⟩
    · intro other hmem
      rcases List.mem_cons.mp hmem with rfl | hmem
      · exact hstart
      · exact Nat.le_trans hstart (hbehind other hmem)
    · intro other hmem
      rcases List.mem_cons.mp hmem with rfl | hmem
      · exact inside
      · exact hinside other hmem

/-- Reports in the order of their places point into the text in order. -/
theorem pointInto (htiled : input.Tiled eof) (hordered : input.Ordered)
    (h : Reports input first diagnostics last) :
    Diagnostic.PointInto input.source (· ≤ ·) diagnostics := by
  obtain ⟨spans, hon, hpairs, _, hinside⟩ := h.spans htiled hordered
  exact Diagnostic.pointInto_of_forall₂ hon hpairs hinside

end Reports

-- ====================================================== what is reported

/-- A report on something missing is on the point where it is missing. -/
theorem Diagnostic.missing_isOn (span : Span) (message : String) (expected : List String) :
    (Diagnostic.missing span message expected).IsOn span := by
  unfold Diagnostic.missing
  dsimp only
  split
  · exact ⟨_, rfl⟩
  · exact ⟨_, rfl⟩

/-- What is reported without a token is reported where the next token starts. -/
theorem ReportsAt.isOn {place : Nat} {diagnostic : Diagnostic}
    (h : ReportsAt input place diagnostic) :
    diagnostic.IsOn (Span.point (input.spanAt place).start) := by
  cases h with
  | missing message expected => exact Diagnostic.missing_isOn _ _ _
  | skipped message => exact ⟨_, rfl⟩

/-- What was skipped is reported from its first token to its last. -/
theorem reports_skippedReport (htiled : input.Tiled eof) (hordered : input.Ordered)
    {first last : Nat} (honward : first ≤ last) (hinside : last ≤ input.size) (message : String) :
    Reports input first [skippedReport input first last message] last := by
  rcases Nat.lt_or_eq_of_le honward with hlt | rfl
  · obtain ⟨left, hleft⟩ := hordered.exists_get? (Nat.lt_of_lt_of_le hlt hinside)
    obtain ⟨right, hright⟩ := hordered.exists_get? (show last - 1 < input.size by omega)
    have hstart : (input.spanAt first).start = left.span.start := by
      unfold Input.spanAt
      rw [hleft]
      rfl
    have horder : left.span.start ≤ right.span.stop := by
      have hbehind := hordered.start_le htiled (show first ≤ last - 1 by omega)
      have hwidth := (htiled.inside_spanAt (last - 1)).le
      unfold Input.spanAt at hbehind hwidth
      rw [hleft, hright] at hbehind
      rw [hright] at hwidth
      exact Nat.le_trans hbehind hwidth
    refine .single ⟨_, rfl⟩ ?_ ?_ honward
    · rw [hordered.cover?_eq hlt hleft hright, hstart]
      rfl
    · rw [hordered.cover?_eq hlt hleft hright]
      exact htiled.inside_between (Input.mem_of_get? hleft) (Input.mem_of_get? hright) horder
  · have hnone : input.cover? first first = none := if_neg (Nat.lt_irrefl _)
    refine .single ⟨_, rfl⟩ ?_ ?_ honward
    · rw [hnone]
      rfl
    · rw [hnone]
      exact (htiled.inside_spanAt first).point

mutual

/-- The reports of a log are in order, between the places where it starts and ends. -/
theorem Log.reported (htiled : input.Tiled eof) (hordered : input.Ordered) {recovers : Bool}
    {first last : Nat} {log : List Event} {pieces : List Piece} :
    Log input recovers first last log pieces →
      Reports input first (Piece.allReports pieces) last
  | .nil _ | .blank _ => .nil (Nat.le_refl _)
  | .append earlier later => by
    rw [allReports_append]
    exact (earlier.reported htiled hordered).append (later.reported htiled hordered)
  | .token _ => .nil (Nat.le_succ _)
  | .report _ reports =>
    .single reports.isOn rfl (htiled.inside_spanAt _).point (Nat.le_refl _)
  | .skipped message _ onward inside => by
    rw [Piece.allReports, Piece.reports, allReports_tokenPieces]
    exact reports_skippedReport htiled hordered onward inside message
  | .node chain => by
    rw [Piece.allReports, Piece.allReports, List.append_nil]
    exact chain.reported htiled hordered

/-- A wrapper has no report of its own. -/
theorem Chain.reported (htiled : input.Tiled eof) (hordered : input.Ordered) {recovers : Bool}
    {first last : Nat} {front back : List Event} {kind : NodeKind} {piece : Piece} :
    Chain input recovers first last front kind back piece →
      Reports input first piece.reports last
  | .node kind body => body.reported htiled hordered
  | .wrap kind chain body =>
    (chain.reported htiled hordered).append (body.reported htiled hordered)

end

/-- What a parse itself reports is on the token at which its entry stopped. -/
theorem reports_closing (htiled : input.Tiled eof) {outcome : Outcome} {place : Nat}
    (hstops : outcome.StopsAt place) :
    Reports input place (Piece.allReports (closingPieces input outcome place))
      (max place input.size) := by
  have hinside := htiled.inside_spanAt place
  rw [allReports_closingPieces hstops]
  split
  · obtain ⟨text, hlabels⟩ := @labels_failureDiagnostic input outcome
    rw [hstops.place] at hlabels
    exact .single ⟨text, hlabels⟩ rfl hinside (Nat.le_max_left _ _)
  · split
    · exact .nil (Nat.le_max_left _ _)
    · exact .single ⟨_, rfl⟩ rfl hinside (Nat.le_max_left _ _)

-- ============================================================ the parse

/-- The diagnostics of a parse whose entry came to an outcome at a place: they point into
the source in order, and behind what recovery reports stands nothing but the report on
the entry, if it failed or left input over. -/
structure Parse.Points (parse : Parse) (source : String) (input : Input) (outcome : Outcome)
    (place : Nat) : Prop where
  order : Diagnostic.PointInto source (· ≤ ·) parse.diagnostics
  last : ∃ recovered : List Diagnostic, (∀ diagnostic ∈ recovered, diagnostic.Recovers)
    ∧ parse.diagnostics = recovered
      ++ if outcome.success = false then [failureDiagnostic input outcome]
        else if input.size ≤ place then []
        else [leftoverDiagnostic input outcome place]

/-- The parse of an entry that has added pieces. -/
theorem points_ofReply (htiled : input.Tiled eof) (hordered : input.Ordered)
    {reply : Outcome × Context input} {pieces : List Piece}
    (hadds : (Context.initial input).mark.2.Adds reply.2 pieces)
    (hstops : reply.1.StopsAt reply.2.place) :
    (ofReply reply).Points input.source input reply.1 reply.2.place := by
  obtain ⟨log, _, hlog⟩ := hadds.logged
  have hdiagnostics := diagnostics_ofReply hadds
  constructor
  · have hreports := (hlog.reported htiled hordered).append (reports_closing htiled hstops)
    rw [← hdiagnostics] at hreports
    exact hreports.pointInto htiled hordered
  · refine ⟨Piece.allReports pieces, hlog.recovers, ?_⟩
    rw [hdiagnostics, allReports_closingPieces hstops, leftoverDiagnostic_of_stopsAt hstops]

/-- The diagnostics of a parse come in the order of the source, whatever the grammar and
its rules, of the tokens of any source text, laid out by any rules or not at all. However
many levels the run of the entry may nest, and also where they do not suffice, every
diagnostic has a primary label; their starts do not decrease; the report on a failure of
the entry, or on what it leaves over, is the last; and every label is a stretch of the
source between two of its characters. Reading the text reports likewise, with starts that
increase, and each report is on exactly one token. -/
theorem diagnostics_in_order (rules : RuleTable) (entry : Grammar)
    (layout : Option Layout.Rules) (source : String) :
    (∀ (levels : Nat) (reply : Outcome × Context (.ofSource layout source)),
      entry.runWithin rules levels (Context.initial _).mark.2 = some reply →
        (ofReply reply).Points source (.ofSource layout source) reply.1 reply.2.place)
    ∧ (let reply := runEntry rules entry (Context.initial (.ofSource layout source)).mark.2
      (ofInput rules entry (.ofSource layout source)).Points source (.ofSource layout source)
        reply.1 reply.2.place)
    ∧ Diagnostic.PointInto source (· < ·) (Reading.ofSource source).diagnostics
    ∧ ∀ diagnostic ∈ (Reading.ofSource source).diagnostics,
      ∃ token ∈ (Reading.ofSource source).tokens, diagnostic.IsOn token.span
        ∧ ∀ other ∈ (Reading.ofSource source).tokens, other.span = token.span → other = token := by
  -- the tokens tile the text with or without a layout, so their order is that of their spans
  have htiled := Input.tiled_ofSource layout source
  have hordered := Input.ordered_ofSource layout source
  have hsource : (Input.ofSource layout source).source = source := by
    cases layout <;> rfl
  obtain ⟨hreading, htokens⟩ := Reading.diagnostics_pointInto source
  refine ⟨?_, ?_, hreading, htokens⟩
  · intro levels reply hrun
    obtain ⟨pieces, hadds⟩ := (Grammar.extends_runWithin rules levels _ _ _ hrun).adds
    have hstops := Grammar.stops_runWithin rules levels _ _ _ _ hrun
    have hpoints := points_ofReply htiled hordered hadds hstops
    rwa [hsource] at hpoints
  · obtain ⟨pieces, hadds⟩ := adds_runEntry rules entry (Context.initial _).mark.2
    have hstops := stops_runEntry rules entry (.ofSource layout source)
    have hpoints := points_ofReply htiled hordered hadds hstops
    rwa [hsource] at hpoints

/-- A number that is missing in front of an equals sign that is not there either: what
recovery reports stands in front of the report on the failure. -/
theorem diagnostics_in_order_equation :
    let entry : Grammar := .seq [.relax "missing number" (.token .int), .token .equals]
    ∃ reply, entry.runWithin (fun _ => none) 3 (Context.initial (.ofSource none "x")).mark.2
          = some reply
      ∧ reply.1.success = false
      ∧ (ofReply reply).Points "x" (.ofSource none "x") reply.1 reply.2.place := by
  intro entry
  have hfails : (entry.runWithin (fun _ => none) 3
      (Context.initial (.ofSource none "x")).mark.2).map (·.1.success) = some false := by
    decide +kernel
  obtain ⟨reply, hrun, hfailed⟩ := Option.map_eq_some_iff.mp hfails
  obtain ⟨hpoints, _⟩ := diagnostics_in_order (fun _ => none) entry none "x"
  exact ⟨reply, hrun, hfailed, hpoints 3 reply hrun⟩

end Offside
