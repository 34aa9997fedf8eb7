import Offside.Language.Entries
import Offside.Proofs.Grammar.Bounded
import Offside.Proofs.Parse.Checked
import Offside.Proofs.Parse.Traces

/-!
The rules of the language keep to bounds, consume tokens and take whole trees.

All of it is read off the grammar by evaluation. Together with what the layout
guarantees of every source text, it gives every parse of a text the levels that
it needs.
-/

namespace Offside.Language

/-- Bounds for the rules: the types and the binders are free of blocks. -/
def bounds : Bounds where
  levels := 40
  rule
    | 0 => 20
    | 1 => 12
    | _ => 8
  isPlain rule := rule == RuleName.type.number || rule == RuleName.binder.number

/-- Whatever the table has a body for is a rule of the language. -/
theorem rule_cases {rule : Nat} {body : Grammar} (h : ruleTable rule = some body) :
    ∃ name : RuleName, rule = name.number ∧ body = name.body := by
  unfold ruleTable at h
  split at h
  · exact ⟨.expression, rfl, (Option.some.inj h).symm⟩
  · exact ⟨.type, rfl, (Option.some.inj h).symm⟩
  · exact ⟨.binder, rfl, (Option.some.inj h).symm⟩
  · exact ⟨.localDeclaration, rfl, (Option.some.inj h).symm⟩
  · cases h

/-- Every rule consumes a token, and its body nests no more levels than its bound allows. -/
theorem bounds_fit : bounds.Fit ruleTable := by
  refine ⟨fun rule body h => ?_, fun rule body h => ?_, fun rule body h hplain => ?_⟩
  · obtain ⟨name, _, rfl⟩ := rule_cases h
    cases name <;> decide
  · obtain ⟨name, rfl, rfl⟩ := rule_cases h
    cases name <;> decide
  · obtain ⟨name, rfl, rfl⟩ := rule_cases h
    cases name with
    | expression | localDeclaration => cases hplain
    | type | binder => decide

/-- The body of every rule takes whole trees with no separator at the roots. -/
theorem takesTrees_rule {rule : Nat} {body : Grammar} (h : ruleTable rule = some body) :
    body.takesTrees noSeparator = true := by
  obtain ⟨name, _, rfl⟩ := rule_cases h
  cases name <;> decide

theorem isBounded_entry (entry : Entry) :
    entry.grammar.isBounded bounds false bounds.levels = true := by
  cases entry <;> decide

/-- Where a rule fails without consuming a token, it leaves nothing in the log. -/
theorem tidy_ruleTable : Grammar.Tidy ruleTable := by
  intro rule body h
  obtain ⟨name, _, rfl⟩ := rule_cases h
  cases name <;> decide

/-- Where the parse of a category fails without consuming a token, wherever it starts,
it leaves nothing in the log. -/
theorem failure_leaves_nothing {input : Input} {entry : Entry} {levels : Nat}
    {ctx after : Context input} {outcome : Outcome}
    (hrun : entry.grammar.runWithin ruleTable levels ctx = some (outcome, after))
    (hfailed : outcome.success = false) (hplace : after.place = ctx.place) :
    after.events = ctx.events := by
  have htrace : entry.grammar.trace false = .clean := by cases entry <;> decide
  have hbounds := Grammar.bounds_runWithin tidy_ruleTable levels _ _ _ _ hrun
  rw [hfailed, htrace] at hbounds
  exact hbounds hplace

/-- The tokens of every source text are well laid out. -/
theorem laid_inputOf (source : String) : (inputOf source).Laid :=
  Input.laid_ofTokens source layoutRules _ (Reading.isWritten_ofSource source)

/-- So many levels for each token, and once more, are enough for a parse. -/
theorem room_start {input : Input} {ctx : Context input} {levels : Nat} (hstart : ctx.place = 0)
    (hlevels : (input.size + 1) * bounds.levels ≤ levels) :
    Room bounds [] levels bounds.levels ctx := by
  refine ⟨by rw [hstart]; exact Nat.zero_le _, ?_, nofun⟩
  rw [Nat.succ_mul] at hlevels
  rw [hstart, Nat.sub_zero]
  omega

/-- A parse of a text has the levels that it needs. -/
theorem levels_le_levelsFor (input : Input) :
    (input.size + 1) * bounds.levels ≤ Grammar.levelsFor input := by
  unfold Grammar.levelsFor Grammar.levelsPerToken
  rw [show bounds.levels = 40 from rfl]
  omega

theorem room_levelsFor {input : Input} {ctx : Context input} (hstart : ctx.place = 0) :
    Room bounds [] (Grammar.levelsFor input) bounds.levels ctx :=
  room_start hstart (levels_le_levelsFor input)

end Offside.Language
