import Mathlib.Data.List.Forall2
import Offside.Diagnostic.Basic
import Offside.Proofs.Token.Reading

/-!
Diagnostics that point into a source text, in order.

A diagnostic points with its labels, and its place is where its primary label starts. The
diagnostics of a phase point into the source (`Diagnostic.PointInto`) if every label is a
stretch of it between two characters, and the places are in order.

The problems that reading finds are the first to do so. Each is on a token of its own,
and the tokens with problems are some of all tokens, in their order (`flags_readFrom`).
-/

namespace Offside

/-- The span is a stretch of a source between two of its character boundaries. -/
structure Span.Inside (span : Span) (source : String) : Prop where
  le : span.start ≤ span.stop
  within : span.stop ≤ source.utf8ByteSize
  start : (⟨span.start⟩ : String.Pos.Raw).IsValid source
  stop : (⟨span.stop⟩ : String.Pos.Raw).IsValid source

/-- A stretch between two exact positions. -/
theorem Span.inside_of_isExact {source : String} {first last : Position}
    (hfirst : first.IsExact source) (hlast : last.IsExact source)
    (hle : first.offset ≤ last.offset) : Span.Inside ⟨first.offset, last.offset⟩ source :=
  ⟨hle, hlast.boundary.le_utf8ByteSize, hfirst.boundary, hlast.boundary⟩

/-- What stands beside an element of the first list. -/
theorem exists_of_forall₂ {α β : Type} {R : α → β → Prop} {list : List α} {others : List β}
    (h : List.Forall₂ R list others) : ∀ element ∈ list, ∃ other ∈ others, R element other := by
  induction h with
  | nil => exact nofun
  | cons hrelated _ ih =>
    intro element hmem
    rcases List.mem_cons.mp hmem with rfl | hmem
    · exact ⟨_, List.mem_cons_self, hrelated⟩
    · obtain ⟨other, hother, hrelated⟩ := ih element hmem
      exact ⟨other, List.mem_cons_of_mem _ hother, hrelated⟩

namespace Diagnostic

/-- Where the stretch of the first primary label starts. -/
def start? (diagnostic : Diagnostic) : Option Nat := diagnostic.primarySpan.map Span.start

/-- The diagnostic has one label, a primary one, on a stretch. -/
def IsOn (diagnostic : Diagnostic) (span : Span) : Prop :=
  ∃ text, diagnostic.labels = [⟨span, text, true⟩]

/-- A diagnostic on a span is sorted by where the span starts. -/
theorem IsOn.start? {diagnostic : Diagnostic} {span : Span} (h : diagnostic.IsOn span) :
    diagnostic.start? = some span.start := by
  obtain ⟨text, hlabels⟩ := h
  unfold Diagnostic.start? primarySpan
  rw [hlabels]
  rfl

/-- The labels of the diagnostics are stretches of the source, and the places that the
diagnostics point at are in order. -/
structure PointInto (source : String) (precedes : Nat → Nat → Prop)
    (diagnostics : List Diagnostic) : Prop where
  places : ∃ places : List Nat, diagnostics.map start? = places.map some
    ∧ places.Pairwise precedes
  inside : ∀ diagnostic ∈ diagnostics, ∀ label ∈ diagnostic.labels, label.span.Inside source

/-- Diagnostics that are each on a span, of spans in order. -/
theorem pointInto_of_forall₂ {source : String} {precedes : Nat → Nat → Prop}
    {diagnostics : List Diagnostic} {spans : List Span}
    (hon : List.Forall₂ IsOn diagnostics spans)
    (horder : spans.Pairwise fun left right => precedes left.start right.start)
    (hinside : ∀ span ∈ spans, span.Inside source) :
    PointInto source precedes diagnostics := by
  refine ⟨⟨spans.map Span.start, ?_, List.pairwise_map.mpr horder⟩, ?_⟩
  · clear horder hinside
    induction hon with
    | nil => rfl
    | cons h _ ih => rw [List.map_cons, List.map_cons, List.map_cons, h.start?, ih]
  · intro diagnostic hmem label hlabel
    obtain ⟨span, hspan, text, hlabels⟩ := exists_of_forall₂ hon diagnostic hmem
    rw [hlabels] at hlabel
    rw [List.mem_singleton.mp hlabel]
    exact hinside span hspan

end Diagnostic

-- ======================================================= reading tokens

/-- Tokens that cover a stretch, none of them empty, start one behind the other. -/
theorem Token.Tile.pairwise {tokens : List Token}
    (hwidth : ∀ token ∈ tokens, token.start.offset < token.stop.offset) :
    ∀ {first last : Position}, Token.Tile first tokens last →
      (∀ token ∈ tokens, first.offset ≤ token.start.offset)
        ∧ tokens.Pairwise fun left right => left.start.offset < right.start.offset := by
  induction tokens with
  | nil => exact fun _ => ⟨nofun, .nil⟩
  | cons token rest ih =>
    intro first last htile
    obtain ⟨rfl, hrest⟩ := htile
    obtain ⟨hbehind, hpairs⟩ :=
      ih (fun token hmem => hwidth token (List.mem_cons_of_mem _ hmem)) hrest
    have hlater : ∀ later ∈ rest, token.start.offset < later.start.offset := fun later hmem =>
      Nat.lt_of_lt_of_le (hwidth token List.mem_cons_self) (hbehind later hmem)
    refine ⟨fun found hfound => ?_, .cons hlater hpairs⟩
    rcases List.mem_cons.mp hfound with rfl | hmem
    · exact Nat.le_refl _
    · exact Nat.le_of_lt (hlater found hmem)

/-- What is wrong in a token is reported on the token. -/
theorem LexProblem.diagnostic_isOn (problem : LexProblem) (span : Span) :
    (problem.diagnostic span).IsOn span := by
  cases problem <;> exact ⟨_, rfl⟩

namespace Reading

/-- The problems are each on a token, and these tokens are some of all, in order. -/
theorem flags_readFrom (position : Position) (chars : List Char) :
    ∃ flagged : List Token, flagged.Sublist (readFrom position chars).tokens
      ∧ List.Forall₂ Diagnostic.IsOn (readFrom position chars).diagnostics
        (flagged.map Token.span) := by
  fun_induction readFrom position chars with
  | case1 position => exact ⟨[], .slnil, .nil⟩
  | case2 position c rest lexeme stop ih =>
    obtain ⟨flagged, hsublist, hon⟩ := ih
    unfold cons
    cases lexeme.problem with
    | none => exact ⟨flagged, hsublist.cons _, hon⟩
    | some problem =>
      exact ⟨_ :: flagged, hsublist.cons_cons _, .cons (problem.diagnostic_isOn _) hon⟩

/-- The problems of a source text point into it, one behind the other, and each is on
exactly one token. -/
theorem diagnostics_pointInto (source : String) :
    Diagnostic.PointInto source (· < ·) (ofSource source).diagnostics
      ∧ ∀ diagnostic ∈ (ofSource source).diagnostics, ∃ token ∈ (ofSource source).tokens,
        diagnostic.IsOn token.span
          ∧ ∀ other ∈ (ofSource source).tokens, other.span = token.span → other = token := by
  obtain ⟨htile, _, htokens, _⟩ := ofSource_exact source
  obtain ⟨_, hpairs⟩ := htile.pairwise fun token hmem => (htokens token hmem).1
  obtain ⟨flagged, hsublist, hon⟩ := flags_readFrom .start source.toList
  -- starts increase, so tokens of one span are one token
  have honly : ∀ ⦃other⦄, other ∈ (ofSource source).tokens →
      ∀ ⦃token⦄, token ∈ (ofSource source).tokens → other.span = token.span → other = token := by
    refine List.Pairwise.forall_of_forall_of_flip
      (R := fun other token : Token => other.span = token.span → other = token)
      (fun _ _ _ => rfl) ?_ ?_
    · exact hpairs.imp fun hlt hsame => absurd (congrArg Span.start hsame) (Nat.ne_of_lt hlt)
    · exact hpairs.imp fun hlt hsame => absurd (congrArg Span.start hsame) (Nat.ne_of_gt hlt)
  constructor
  · refine Diagnostic.pointInto_of_forall₂ hon (List.pairwise_map.mpr (hpairs.sublist hsublist)) ?_
    intro span hspan
    obtain ⟨token, hmem, rfl⟩ := List.mem_map.mp hspan
    obtain ⟨hwidth, _, hstart, hstop⟩ := htokens token (hsublist.subset hmem)
    exact Span.inside_of_isExact hstart hstop (Nat.le_of_lt hwidth)
  · intro diagnostic hmem
    obtain ⟨span, hspan, hlabel⟩ := exists_of_forall₂ hon diagnostic hmem
    obtain ⟨token, htoken, rfl⟩ := List.mem_map.mp hspan
    exact ⟨token, hsublist.subset htoken, hlabel,
      fun other hother hsame => honly hother (hsublist.subset htoken) hsame⟩

end Reading

end Offside
