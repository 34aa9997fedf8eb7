import Offside.Proofs.Token.Lexeme
import Offside.Token.Reading

/-!
The kinds that tokens of a source text can have.

The kinds of the virtual tokens and of the end of the text belong to no token
that was written. A token of the unknown kind is a character that starts no
token, and comes with the problem that says so. That a lexeme has none of these
kinds otherwise is read off its forms.
-/

namespace Offside

/-- A token that stands in a text can have the kind. -/
def TokenKind.isWritten (kind : TokenKind) : Bool := !kind.isLayout && kind != .eof

/-- The kind is one of a token that was made out. -/
def TokenKind.isKnown (kind : TokenKind) : Bool := kind.isWritten && kind != .unknown

/-- The kinds of strings. -/
def TokenKind.isText : TokenKind → Bool
  | .string | .rawString => true
  | _ => false

/-- The kind is one of a token that was made out, and no string. -/
def TokenKind.isPlain (kind : TokenKind) : Bool := kind.isKnown && !kind.isText

namespace TokenKind

theorem isPlain_keyword {word : String} {kind : TokenKind} (h : keyword? word = some kind) :
    kind.isPlain = true := by
  unfold keyword? at h
  split at h <;> cases h <;> rfl

theorem isPlain_reservedSymbol {word : String} {kind : TokenKind}
    (h : reservedSymbol? word = some kind) : kind.isPlain = true := by
  unfold reservedSymbol? at h
  split at h <;> cases h <;> rfl

/-- With or without an entry in a table, the kind is no string. -/
theorem isPlain_getD {kind? : Option TokenKind} {kind : TokenKind}
    (hsome : ∀ found, kind? = some found → found.isPlain = true)
    (hkind : kind.isPlain = true) : (kind?.getD kind).isPlain = true := by
  cases kind? with
  | none => exact hkind
  | some found => exact hsome found rfl

end TokenKind

namespace Lexeme

theorem isPlain_single {c : Char} {kind : TokenKind} (h : single? c = some kind) :
    kind.isPlain = true := by
  unfold single? at h
  split at h <;> cases h <;> rfl

/-- However many segments follow, a name is no string. -/
theorem isPlain_qualifiedRest (sofar : TokenKind) (chars : List Char)
    (h : sofar.isPlain = true) : (qualifiedRest sofar chars).1.isPlain = true := by
  fun_induction qualifiedRest sofar chars with
  | case1 sofar c rest segment hupper kind more heq ih =>
    rw [heq] at ih
    exact ih rfl
  | case2 | case4 | case5 => exact h
  | case3 => rfl

theorem isPlain_properName (chars : List Char) : (properName chars).kind.isPlain = true :=
  isPlain_qualifiedRest .upper _ rfl

theorem isPlain_name (chars : List Char) : (name chars).kind.isPlain = true := by
  fun_cases name chars with
  | case1 => rfl
  | case2 => exact TokenKind.isPlain_getD (fun _ => TokenKind.isPlain_keyword) rfl

theorem isPlain_operator (chars : List Char) : (operator chars).kind.isPlain = true := by
  fun_cases operator chars with
  | case1 => rfl
  | case2 => exact TokenKind.isPlain_getD (fun _ => TokenKind.isPlain_reservedSymbol) rfl

theorem isPlain_number (chars : List Char) : (number chars).kind.isPlain = true := by
  fun_cases number chars with
  | case1 => rfl
  | case2 =>
    dsimp only
    split <;> rfl

theorem isKnown_stringAfter (rest : List Char) : (stringAfter rest).kind.isKnown = true := by
  fun_cases stringAfter rest <;> rfl

theorem isPlain_charAfter (rest : List Char) : (charAfter rest).kind.isPlain = true := by
  fun_cases charAfter rest <;> rfl

/-- The first token of a text is a string behind a quote, or of another kind that is made out, or a
character that starts none. -/
theorem first_cases (c : Char) (rest : List Char) :
    (c = '"' ∧ first c rest = stringAfter rest)
      ∨ (first c rest).kind.isPlain = true
      ∨ first c rest = ⟨.unknown, 1, some (.invalidCharacter c)⟩ := by
  fun_cases first c rest with
  | case1 | case2 | case3 | case8 => exact .inr (.inl rfl)
  | case4 _ _ _ kind hsingle => exact .inr (.inl (isPlain_single hsingle))
  | case5 _ _ _ _ hquote => exact .inl ⟨hquote, rfl⟩
  | case6 => exact .inr (.inl (isPlain_charAfter rest))
  | case7 => exact .inr (.inl (isPlain_number _))
  | case9 => exact .inr (.inl (isPlain_properName _))
  | case10 => exact .inr (.inl (isPlain_name _))
  | case11 => exact .inr (.inl (isPlain_operator _))
  | case12 => exact .inr (.inr rfl)

/-- The first token of a text is made out, or it is a character that starts none. -/
theorem isKnown_first (c : Char) (rest : List Char) :
    (first c rest).kind.isKnown = true
      ∨ first c rest = ⟨.unknown, 1, some (.invalidCharacter c)⟩ := by
  rcases first_cases c rest with ⟨_, hstring⟩ | hplain | hunknown
  · rw [hstring]
    exact .inl (isKnown_stringAfter rest)
  · exact .inl (Bool.and_eq_true_iff.mp hplain).1
  · exact .inr hunknown

/-- Only a quote starts a string. -/
theorem eq_stringAfter_of_isText {c : Char} {rest : List Char}
    (h : (first c rest).kind.isText = true) : c = '"' ∧ first c rest = stringAfter rest := by
  rcases first_cases c rest with hstring | hplain | hunknown
  · exact hstring
  · have hother := (Bool.and_eq_true_iff.mp hplain).2
    rw [h] at hother
    cases hother
  · rw [hunknown] at h
    cases h

/-- The first token of a text has a kind that is written. -/
theorem isWritten_first (c : Char) (rest : List Char) :
    (first c rest).kind.isWritten = true := by
  rcases isKnown_first c rest with hknown | hunknown
  · exact (Bool.and_eq_true_iff.mp hknown).1
  · rw [hunknown]
    rfl

end Lexeme

/-- Every token of a source text has a kind that is written. -/
theorem Reading.isWritten_ofSource (source : String) :
    ∀ token ∈ (ofSource source).tokens, token.kind.isWritten = true := by
  unfold ofSource
  fun_induction readFrom Position.start source.toList with
  | case1 =>
    intro token hmem
    cases hmem
  | case2 position c rest lexeme stop ih =>
    intro token hmem
    rcases List.mem_cons.mp hmem with rfl | hrest
    · exact Lexeme.isWritten_first c rest
    · exact ih token hrest

/-- A diagnostic on a token, made while reading. -/
structure Diagnostic.Lexical (diagnostic : Diagnostic) : Prop where
  isError : diagnostic.isError = true
  code : diagnostic.code.isLexical = true

theorem LexProblem.lexical (problem : LexProblem) (span : Span) :
    (problem.diagnostic span).Lexical := by
  cases problem <;> exact ⟨rfl, rfl⟩

/-- Reading reports problems of tokens. -/
theorem Reading.lexical_ofSource (source : String) :
    ∀ diagnostic ∈ (ofSource source).diagnostics, diagnostic.Lexical := by
  unfold ofSource
  fun_induction readFrom Position.start source.toList with
  | case1 =>
    intro diagnostic hmem
    cases hmem
  | case2 position c rest lexeme stop ih =>
    intro diagnostic hmem
    rcases List.mem_append.mp hmem with hproblem | hrest
    · obtain ⟨problem, _, rfl⟩ := Option.map_eq_some_iff.mp (Option.mem_toList.mp hproblem)
      exact problem.lexical _
    · exact ih diagnostic hrest

/-- Where reading reports nothing, every token was made out. -/
theorem Reading.isKnown_ofSource {source : String} (h : (ofSource source).diagnostics = []) :
    ∀ token ∈ (ofSource source).tokens, token.kind.isKnown = true := by
  unfold ofSource at h ⊢
  revert h
  fun_induction readFrom Position.start source.toList with
  | case1 =>
    intro _ token hmem
    cases hmem
  | case2 position c rest lexeme stop ih =>
    intro h
    obtain ⟨hproblem, hrest⟩ := List.append_eq_nil_iff.mp h
    intro token hmem
    rcases List.mem_cons.mp hmem with rfl | hmem
    · rcases Lexeme.isKnown_first c rest with hknown | hunknown
      · exact hknown
      · rw [show lexeme.problem = some (.invalidCharacter c) from
          congrArg Lexeme.problem hunknown] at hproblem
        cases hproblem
    · exact ih hrest token hmem

end Offside
