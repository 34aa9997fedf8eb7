import Offside.Proofs.Language.Bounds
import Offside.Proofs.Parse.Explained
import Offside.Proofs.Parse.Mute
import Offside.Proofs.Parse.Onward
import Offside.Proofs.Parse.Reported

/-!
Every parse of a text comes to an end, and finds no fault with the grammar.

# The measure

A run of any grammar consumes a token within a number of levels of nesting, and the
run of a rule within the bound of the rule. So the tokens that are left, and then
the levels up to the next one, fall from each run to those nested in it, and the
loops go on only with fewer tokens left. What the grammar has to satisfy for this is
`bounds_fit` and `isBounded_entry`, by evaluation; that it holds of malformed texts
as well is due to `Grammar.Laid`, which the layout guarantees of every text.
-/

namespace Offside.Language

open Parse Grammar

theorem isMute_entry (entry : Entry) : entry.grammar.isMute ruleTable = true := by
  cases entry <;> decide

/-- No rule has a guard or repeats what consumes nothing, and all that it refers to are there. -/
theorem isMute_rule {rule : Nat} {body : Grammar} (h : ruleTable rule = some body) :
    body.isMute ruleTable = true := by
  obtain ⟨name, _, rfl⟩ := rule_cases h
  cases name <;> decide

-- ====================================================== the end of a run

/-- With so many levels for each token an entry comes to a reply, and its runs never
come back to where they are. -/
theorem runOnward_answers {input : Input} (hlaid : input.Laid) (entry : Entry) {levels : Nat}
    (hlevels : (input.size + 1) * bounds.levels ≤ levels) :
    ∃ reply, runOnward ruleTable levels [] entry.grammar (Context.initial input).mark.2
        = some reply
      ∧ runWithin ruleTable levels entry.grammar (Context.initial input).mark.2 = some reply := by
  have hcovers := covers_runOnward bounds_fit hlaid levels []
  obtain ⟨reply, hreply⟩ := Option.isSome_iff_exists.mp (hcovers.answers entry.grammar
    (Context.initial input).mark.2 bounds.levels (room_start rfl hlevels) (isBounded_entry entry))
  exact ⟨reply, hreply, runWithin_of_runOnward hreply⟩

/-- What is skipped at once is at least one token. -/
theorem lt_place_skipBlocks {input : Input} (hlaid : input.Laid) {ctx : Context input}
    (hinside : ctx.place < input.size) (depth : Nat) :
    ctx.place < (ctx.skipBlocks depth).place := by
  rw [Form.place_skipBlocks]
  exact Direct.lt_skipBlocks hlaid hinside depth

-- ============================================================ the codes

/-- An entry that comes to a reply makes its parse from it. -/
theorem ofInput_of_run {input : Input} {entry : Grammar} {reply : Outcome × Context input}
    (h : entry.run ruleTable (Context.initial input).mark.2 = some reply) :
    ofInput ruleTable entry input = ofReply reply := by
  unfold ofInput runEntry
  rw [h, Option.getD_some]

/-- What a parse reports, besides what is wrong with the tokens. -/
theorem code_parse {source : String} {entry : Entry}
    {reply : Outcome × Context (inputOf source)}
    (h : entry.grammar.run ruleTable (Context.initial (inputOf source)).mark.2 = some reply) :
    ∀ diagnostic ∈ (Language.parse entry source).diagnostics,
      diagnostic.code.isLexical = true ∨ diagnostic.code = .unexpectedToken
        ∨ diagnostic.code = .missingInput ∨ diagnostic.code = .skippedInput := by
  have hlaid := laid_inputOf source
  have hmute := mute_runWithin hlaid bounds_fit.consumes (fun _ _ => isMute_rule) _ _ _ _ _
    (isMute_entry entry) h
  obtain ⟨pieces, hadds⟩ := (extends_runWithin ruleTable _ _ _ _ h).adds
  intro diagnostic hmem
  rw [diagnostics_parse, ofInput_of_run h] at hmem
  rcases List.mem_append.mp hmem with hmem | hmem
  · exact .inl (Reading.lexical_ofSource source diagnostic hmem).code
  · exact .inr (code_ofReply hadds hmute diagnostic hmem)

/-- Every parse of a text comes to an end, whatever the entry and the text. With so
many levels for each token the entry comes to a reply, the same for any greater number
of levels, and the parse is made from it. No run on the way enters a rule that is being
run from the same place, with no token consumed since, or repeats what matches without
consuming a token. What is skipped at once is at least one token, and a recovery that
would skip without end has no reply. A parse reports what is wrong with the tokens, what
is unexpected, what is missing and what was skipped, and never a fault of the grammar. -/
theorem parse_terminates (entry : Entry) (source : String) :
    let input := inputOf source
    let start := (Context.initial input).mark.2
    (∃ reply, Parse.ofInput ruleTable entry.grammar input = ofReply reply
        ∧ entry.grammar.run ruleTable start = some reply
        ∧ ∀ levels, (input.size + 1) * bounds.levels ≤ levels →
          runWithin ruleTable levels entry.grammar start = some reply
            ∧ runOnward ruleTable levels [] entry.grammar start = some reply)
      ∧ (∀ (ctx : Context input) (depth : Nat), ctx.place < input.size →
          ctx.place < (ctx.skipBlocks depth).place)
      ∧ ∀ diagnostic ∈ (Language.parse entry source).diagnostics,
          diagnostic.code.spelling
            ∈ ["E0001", "E0002", "E0003", "E0004", "E1001", "E1002", "E1003"] := by
  intro input start
  have hlaid : input.Laid := laid_inputOf source
  -- the levels of the bound suffice for an answer, and more of them do not change it
  obtain ⟨reply, _, hreply⟩ := runOnward_answers hlaid entry (Nat.le_refl _)
  have hmore : ∀ levels, (input.size + 1) * bounds.levels ≤ levels →
      runWithin ruleTable levels entry.grammar start = some reply :=
    fun levels hlevels => runWithin_mono hlevels hreply
  have hrun : entry.grammar.run ruleTable start = some reply := hmore _ (levels_le_levelsFor input)
  refine ⟨⟨reply, ofInput_of_run hrun, hrun, fun levels hlevels => ⟨hmore levels hlevels, ?_⟩⟩,
    fun ctx depth hinside => lt_place_skipBlocks hlaid hinside depth, ?_⟩
  · obtain ⟨same, honward, hsame⟩ := runOnward_answers hlaid entry hlevels
    rw [honward, ← hsame, hmore levels hlevels]
  · intro diagnostic hmem
    rcases code_parse hrun diagnostic hmem with hlexical | hunexpected | hmissing | hskipped
    · cases hcode : diagnostic.code with
      | unterminatedString | invalidCharacter | unterminatedComment | invalidCharLiteral => decide
      | unexpectedToken | missingInput | skippedInput | notAllowedHere | grammarFault =>
        rw [hcode] at hlexical
        cases hlexical
    · rw [hunexpected]
      decide
    · rw [hmissing]
      decide
    · rw [hskipped]
      decide

/-- A module with a branch that has no body and with a text that is not closed. -/
def brokenBranch : String := "module M where\nf = case x of\n  1 -> = \"a\n"

/-- With forty levels for each of its sixteen tokens, and once more, its parse ends; the
text that is not closed is reported, and the branch is skipped. -/
theorem parse_terminates_brokenBranch :
    ((inputOf brokenBranch).size + 1) * bounds.levels = 680
      ∧ (Language.parse .wholeModule brokenBranch).diagnostics.map (·.code.spelling)
        = ["E0001", "E1003"]
      ∧ ∃ reply, Parse.ofInput ruleTable Entry.wholeModule.grammar (inputOf brokenBranch)
          = ofReply reply
        ∧ runOnward ruleTable 680 [] Entry.wholeModule.grammar
          (Context.initial (inputOf brokenBranch)).mark.2 = some reply := by
  have hlevels : ((inputOf brokenBranch).size + 1) * bounds.levels = 680 := by decide +kernel
  obtain ⟨⟨reply, hparse, _, hends⟩, _, _⟩ := parse_terminates .wholeModule brokenBranch
  exact ⟨hlevels, by decide +kernel, reply, hparse, (hends 680 (Nat.le_of_eq hlevels)).2⟩

end Offside.Language
