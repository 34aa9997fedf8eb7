import Offside.Proofs.Language.Bounds
import Offside.Proofs.Parse.Accounted

/-!
What is wrong with a text shows in the tree and in the diagnostics alike.

The first part holds of any grammar that makes no error node of its own, over the
layout of any text. The second is about the language, whose grammar is such a one:
a text without errors is read, laid out and parsed to the end.
-/

namespace Offside.Language

open Parse

theorem makesNo_entry (entry : Entry) : entry.grammar.MakesNo .error :=
  Grammar.makesNo_of_avoids (by cases entry <;> decide)

theorem makesNo_rule {rule : Nat} {body : Grammar} (h : ruleTable rule = some body) :
    body.MakesNo .error := by
  obtain ⟨name, _, rfl⟩ := rule_cases h
  exact Grammar.makesNo_of_avoids (by cases name <;> decide)

/-- All that is reported on a text are errors. -/
theorem isError_parse (entry : Entry) (source : String) :
    ∀ diagnostic ∈ (Language.parse entry source).diagnostics, diagnostic.isError = true := by
  intro diagnostic hmem
  rw [diagnostics_parse] at hmem
  rcases List.mem_append.mp hmem with hmem | hmem
  · exact (Reading.lexical_ofSource source diagnostic hmem).isError
  · exact isError_ofInput _ _ _ diagnostic hmem

/-- A text without errors has no diagnostics. -/
theorem diagnostics_of_hasErrors {entry : Entry} {source : String}
    (h : (Language.parse entry source).hasErrors = false) :
    (Reading.ofSource source).diagnostics = []
      ∧ (Parse.ofInput ruleTable entry.grammar (inputOf source)).diagnostics = [] := by
  rw [← List.append_eq_nil_iff, ← diagnostics_parse]
  refine List.eq_nil_iff_forall_not_mem.mpr fun diagnostic hmem => ?_
  rw [Parse.hasErrors, List.any_eq_false] at h
  exact h diagnostic hmem (isError_parse entry source diagnostic hmem)

/-- Error nodes and diagnostics correspond, for every grammar that makes no error node of
its own, whatever the rules of the layout and the text. Every error node has leaves
alone as children. The error nodes match diagnostics, one to one and in order: each
one of skipped input a report on skipped input that points at the span of the node,
and the one of what is left over, if there is one, the last diagnostic. A parse
without diagnostics has run its entry successfully through all tokens, and has no
error node. In the language, a text without errors has besides no token that could
not be made out. -/
theorem errors_correspond :
    (∀ (rules : RuleTable) (entry : Grammar), entry.MakesNo .error →
      (∀ rule body, rules rule = some body → body.MakesNo .error) →
      ∀ (layout : Layout.Rules) (source : String),
        let reading := Reading.ofSource source
        let input := Input.ofTokens source (Layout.tokensOf layout reading.tokens reading.eof)
        let parse := Parse.ofInput rules entry input
        (∀ node ∈ parse.tree.errorNodes, node.IsFlat)
          ∧ parse.ErrorsMatch input (runEntry rules entry (Context.initial input).mark.2).2.place
          ∧ (parse.diagnostics = [] → Flawless rules entry input))
      ∧ ∀ (entry : Entry) (source : String), (Language.parse entry source).hasErrors = false →
        Flawless ruleTable entry.grammar (inputOf source)
          ∧ (Language.parse entry source).tree.errorNodes = []
          ∧ ∀ token ∈ (Reading.ofSource source).tokens, token.kind ≠ .unknown := by
  constructor
  · intro rules entry hentry hrules layout source reading input parse
    have hlaid : input.Laid :=
      Input.laid_ofTokens source layout _ (Reading.isWritten_ofSource source)
    have hordered : input.Ordered := ordered_layout source layout
    obtain ⟨hmatch, hflat⟩ := errorsMatch_ofInput hentry hrules hlaid hordered
    exact ⟨hflat, hmatch, flawless_of_diagnostics hentry hrules hlaid hordered⟩
  · intro entry source hnone
    obtain ⟨hread, hparsed⟩ := diagnostics_of_hasErrors hnone
    have hflawless := flawless_of_diagnostics (makesNo_entry entry) (fun _ _ => makesNo_rule)
      (laid_inputOf source) (ordered_layout source layoutRules) hparsed
    refine ⟨hflawless, ?_, fun token hmem hunknown => ?_⟩
    · rw [tree_parse]
      exact hflawless.2
    · have hknown := Reading.isKnown_ofSource hread token hmem
      rw [hunknown] at hknown
      cases hknown

/-- A comma, in front of which an equals sign is wanted. -/
def equalsComma : Grammar :=
  .seq [.relaxTo "an equals sign is missing" (.token .equals) (.token .comma), .token .comma]

/-- A name that is skipped in front of a comma, and one that is left over behind it: two
error nodes, each with a diagnostic. -/
theorem errors_correspond_skipped :
    let reading := Reading.ofSource "a , b"
    let input := Input.ofTokens "a , b" (Layout.tokensOf layoutRules reading.tokens reading.eof)
    let parse := Parse.ofInput (fun _ => none) equalsComma input
    equalsComma.MakesNo .error
      ∧ parse.tree.errorNodes.map Tree.span = [⟨0, 1⟩, ⟨4, 5⟩]
      ∧ parse.diagnostics.map Diagnostic.code = [.skippedInput, .unexpectedToken]
      ∧ (∀ node ∈ parse.tree.errorNodes, node.IsFlat)
      ∧ parse.ErrorsMatch input
        (runEntry (fun _ => none) equalsComma (Context.initial input).mark.2).2.place := by
  have hmakes : equalsComma.MakesNo .error := Grammar.makesNo_of_avoids rfl
  obtain ⟨hflat, hmatch, _⟩ := errors_correspond.1 (fun _ => none) equalsComma hmakes
    (fun _ _ => nofun) layoutRules "a , b"
  exact ⟨hmakes, by decide +kernel, by decide +kernel, hflat, hmatch⟩

end Offside.Language
