import Offside.Proofs.Diagnostic.Pointed
import Offside.Proofs.Token.Cut

/-!
A token on its own: its text, read alone, is that token again.

What a token is, and what is wrong with it, is decided by its text. What stands in front
of the token does not matter, since reading keeps no state between tokens but the
position. What stands behind it does not matter, since the lexeme comes out the same
where the text is cut at its end (`Lexeme.first_take`).

# From a reading to its lexemes

`IsLexeme` names, for one token of a reading, the place at which reading it started. A
reading is an induction on its tokens (`isLexeme_readFrom`). The diagnostics of a
token are found by its span, so the induction carries along where the tokens start: a
token further on starts behind the one in front, and cannot be mistaken for it.
-/

namespace Offside

open Text

theorem Diagnostic.IsOn.primarySpan {diagnostic : Diagnostic} {span : Span}
    (h : diagnostic.IsOn span) : diagnostic.primarySpan = some span := by
  obtain ⟨text, hlabels⟩ := h
  unfold Diagnostic.primarySpan
  rw [hlabels]
  rfl

namespace Reading

-- ============================================= diagnostics by token

/-- The diagnostics on a token. -/
def diagnosticsOn (reading : Reading) (token : Token) : List Diagnostic :=
  reading.diagnostics.filter (·.primarySpan == some token.span)

/-- A token in front has the diagnostics of its own problem, if the others start behind it. -/
theorem diagnosticsOn_cons_self {token : Token} {problem : Option LexProblem} {reading : Reading}
    (hlater : ∀ diagnostic ∈ reading.diagnostics, diagnostic.primarySpan ≠ some token.span) :
    (cons token problem reading).diagnosticsOn token
      = (problem.map (·.diagnostic token.span)).toList := by
  unfold diagnosticsOn cons
  rw [List.filter_append]
  have hrest : reading.diagnostics.filter (·.primarySpan == some token.span) = [] := by
    rw [List.filter_eq_nil_iff]
    intro diagnostic hmem
    simpa using hlater diagnostic hmem
  rw [hrest, List.append_nil, List.filter_eq_self]
  intro diagnostic hmem
  obtain ⟨found, _, rfl⟩ := Option.map_eq_some_iff.mp (Option.mem_toList.mp hmem)
  simp [(found.diagnostic_isOn token.span).primarySpan]

/-- A token further on has the diagnostics that it has without the token in front. -/
theorem diagnosticsOn_cons_of_ne {token other : Token} {problem : Option LexProblem}
    {reading : Reading} (hne : token.span ≠ other.span) :
    (cons token problem reading).diagnosticsOn other = reading.diagnosticsOn other := by
  unfold diagnosticsOn cons
  rw [List.filter_append]
  have hfront : ((problem.map (·.diagnostic token.span)).toList).filter
      (·.primarySpan == some other.span) = [] := by
    rw [List.filter_eq_nil_iff]
    intro diagnostic hmem
    obtain ⟨found, _, rfl⟩ := Option.map_eq_some_iff.mp (Option.mem_toList.mp hmem)
    simpa [(found.diagnostic_isOn token.span).primarySpan] using hne
  rw [hfront, List.nil_append]

-- =========================================== tokens and their lexemes

/-- The token is the lexeme that starts at a boundary of the text, and what is said to
be wrong with it is the problem of the lexeme. -/
def IsLexeme (chars : List Char) (token : Token) (diagnostics : List Diagnostic) : Prop :=
  ∃ first c rest, chars.drop first = c :: rest
    ∧ token.Holds chars first (first + (Lexeme.first c rest).length)
    ∧ token.kind = (Lexeme.first c rest).kind
    ∧ diagnostics = ((Lexeme.first c rest).problem.map (·.diagnostic token.span)).toList

/-- Reading from a boundary on finds lexemes, none of them in front of the boundary. -/
theorem isLexeme_readFrom {source : List Char} (position : Position) (chars : List Char) :
    ∀ {count : Nat}, count ≤ source.length → position = .after source count →
      source.drop count = chars →
      ∀ token ∈ (readFrom position chars).tokens,
        position.offset ≤ token.start.offset
          ∧ IsLexeme source token ((readFrom position chars).diagnosticsOn token) := by
  fun_induction readFrom position chars with
  | case1 position =>
    intro count _ _ _ token hmem
    cases hmem
  | @case2 position c rest lexeme stop ih =>
    intro count hle hposition hdrop token hmem
    subst hposition
    have hholds := holds_first hdrop
    have hwidth := Position.offset_after_lt hholds.nonempty hholds.inside
    have hrest := ih hholds.inside hholds.stop_eq (drop_first hdrop)
    have hstop : stop = .after source (count + lexeme.length) := hholds.stop_eq
    rw [← hstop] at hwidth
    rcases List.mem_cons.mp hmem with rfl | hmem
    · refine ⟨Nat.le_refl _, count, c, rest, hdrop, hholds, rfl, diagnosticsOn_cons_self ?_⟩
      intro diagnostic hdiagnostic hspan
      obtain ⟨flagged, hsublist, hon⟩ := flags_readFrom stop (rest.drop (lexeme.length - 1))
      obtain ⟨span, hfound, hison⟩ := exists_of_forall₂ hon diagnostic hdiagnostic
      obtain ⟨other, hother, rfl⟩ := List.mem_map.mp hfound
      have hbehind := (hrest other (hsublist.subset hother)).1
      rw [hison.primarySpan] at hspan
      have hstart := congrArg Span.start (Option.some.inj hspan)
      change other.start.offset = (Position.after source count).offset at hstart
      omega
    · obtain ⟨hbehind, hlexeme⟩ := hrest token hmem
      refine ⟨by omega, ?_⟩
      rw [diagnosticsOn_cons_of_ne]
      · exact hlexeme
      · intro hspan
        have hstart := congrArg Span.start hspan
        change (Position.after source count).offset = token.start.offset at hstart
        omega

/-- The text of a token is a lexeme of its own, with the kind and the problem of the token. -/
theorem IsLexeme.text {chars : List Char} {token : Token} {diagnostics : List Diagnostic}
    (h : IsLexeme chars token diagnostics) :
    ∃ c cut, (token.text (String.ofList chars)).toList = c :: cut
      ∧ (Lexeme.first c cut).length = cut.length + 1
      ∧ token.kind = (Lexeme.first c cut).kind
      ∧ diagnostics = ((Lexeme.first c cut).problem.map (·.diagnostic token.span)).toList := by
  obtain ⟨first, c, rest, hdrop, hholds, hkind, hproblem⟩ := h
  have hfits := Lexeme.first_fits c rest
  have hlength : (first + (Lexeme.first c rest).length) - first = (Lexeme.first c rest).length :=
    Nat.add_sub_cancel_left ..
  obtain ⟨more, hmore⟩ := Nat.exists_eq_add_of_le' hfits.1
  have hinside := hfits.2
  have hcut := Lexeme.first_take c rest
  rw [hmore, Nat.add_sub_cancel] at hcut
  refine ⟨c, rest.take more, ?_, ?_, ?_, ?_⟩
  · rw [hholds.text_eq, hlength, hdrop, String.toList_ofList, hmore, List.take_succ_cons]
  · rw [List.length_cons] at hinside
    rw [hcut, hmore, List.length_take]
    omega
  · rw [hcut, hkind]
  · rw [hcut, hproblem]

-- ================================================ one token, read alone

/-- A text that is one lexeme is read as one token. -/
theorem ofSource_of_first {text : String} {c : Char} {cut : List Char}
    (htext : text.toList = c :: cut)
    (hwhole : (Lexeme.first c cut).length = cut.length + 1) :
    ∃ stop, ofSource text
      = ⟨[⟨(Lexeme.first c cut).kind, .start, stop⟩],
          ((Lexeme.first c cut).problem.map (·.diagnostic ⟨0, stop.offset⟩)).toList,
          stop⟩ := by
  unfold ofSource
  rw [htext, readFrom]
  rw [hwhole, Nat.add_sub_cancel, List.drop_length, readFrom]
  exact ⟨_, congrArg (Reading.mk _ · _) (List.append_nil _)⟩

/-- Every token of a text is one of its lexemes, with the diagnostics that are on it. -/
theorem isLexeme_ofSource {source : String} {token : Token}
    (h : token ∈ (ofSource source).tokens) :
    IsLexeme source.toList token ((ofSource source).diagnosticsOn token) :=
  (isLexeme_readFrom .start source.toList (Nat.zero_le _) rfl rfl token h).2

/-- The text of a token, read on its own, is one token over all of it, of the same kind and with the
same problem, or none. So wherever a token has this text, it has this kind and this problem. -/
theorem ofSource_text (source : String) :
    ∀ token ∈ (ofSource source).tokens, ∃ (stop : Position) (problem : Option LexProblem),
      ofSource (token.text source)
          = ⟨[⟨token.kind, .start, stop⟩],
              (problem.map (·.diagnostic ⟨0, stop.offset⟩)).toList, stop⟩
        ∧ stop.offset = (token.text source).utf8ByteSize
        ∧ ∀ (other : String), ∀ twin ∈ (ofSource other).tokens,
          twin.text other = token.text source →
          twin.kind = token.kind
            ∧ (ofSource other).diagnosticsOn twin
                = (problem.map (·.diagnostic twin.span)).toList := by
  intro token hmem
  have hlexeme := (isLexeme_ofSource hmem).text
  rw [String.ofList_toList] at hlexeme
  obtain ⟨c, cut, htext, hwhole, hkind, _⟩ := hlexeme
  obtain ⟨stop, hreading⟩ := ofSource_of_first htext hwhole
  refine ⟨stop, (Lexeme.first c cut).problem, ?_, ?_, ?_⟩
  · rw [hreading, hkind]
  · have heof := (ofSource_exact (token.text source)).2.1
    rwa [hreading] at heof
  · intro other twin htwin hsame
    -- two tokens of one text are read from the same characters
    have htwinLexeme := (isLexeme_ofSource htwin).text
    rw [String.ofList_toList, hsame, htext] at htwinLexeme
    obtain ⟨_, _, heq, _, htwinKind, hdiagnostics⟩ := htwinLexeme
    cases heq
    exact ⟨htwinKind.trans hkind.symm, hdiagnostics⟩

/-- In `M.do{-` the comment has no end, and it has none wherever else its text is a token. -/
theorem ofSource_text_comment :
    let token : Token := ⟨.blockComment, ⟨1, 5, 4⟩, ⟨1, 7, 6⟩⟩
    token ∈ (ofSource "M.do\x7b-").tokens
      ∧ (ofSource "M.do\x7b-").diagnosticsOn token
        = [LexProblem.unterminatedComment.diagnostic ⟨4, 6⟩]
      ∧ ∃ (stop : Position) (problem : Option LexProblem),
        ofSource (token.text "M.do\x7b-")
            = ⟨[⟨.blockComment, .start, stop⟩],
                (problem.map (·.diagnostic ⟨0, stop.offset⟩)).toList, stop⟩
          ∧ stop.offset = (token.text "M.do\x7b-").utf8ByteSize
          ∧ ∀ (other : String), ∀ twin ∈ (ofSource other).tokens,
            twin.text other = token.text "M.do\x7b-" →
            twin.kind = .blockComment
              ∧ (ofSource other).diagnosticsOn twin
                  = (problem.map (·.diagnostic twin.span)).toList := by
  intro token
  have hmem : token ∈ (ofSource "M.do\x7b-").tokens := by decide +kernel
  have hflagged : (ofSource "M.do\x7b-").diagnosticsOn token
      = [LexProblem.unterminatedComment.diagnostic ⟨4, 6⟩] := by decide +kernel
  exact ⟨hmem, hflagged, ofSource_text "M.do\x7b-" token hmem⟩

end Reading

end Offside
