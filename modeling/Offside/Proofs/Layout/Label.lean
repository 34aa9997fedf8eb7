import Offside.Language.Rules
import Offside.Proofs.Layout.Moves
import Offside.Token.Reading

/-!
Reserved words in the place of a record label.

There a reserved word is a label, as an identifier is: it is emitted with no virtual token
around it, and opens nothing. An identifier also ends the place. So does a reserved word that
the table has an action for; one that shares the common action with most tokens
(`plainWords`) does not, since that action ends no label. The place then stays open behind the
word, and masks the separator that is due in front of the next declaration
(`type_keeps_label`).

With the place of a label on top no block closes and nothing separates, so that every action
of a word takes the same short course: `step_of_label`.
-/

namespace Offside.Layout

open Offside.Language

/-- The reserved words without an action of their own. -/
def plainWords : List TokenKind :=
  [.kwModule, .kwImport, .kwNewtype, .kwType, .kwInstance, .kwDerive, .kwForeign, .kwInfix,
   .kwInfixl, .kwInfixr, .kwTrue, .kwFalse]

/-- The actions of identifiers and of reserved words. -/
def Action.isWord : Action → Bool
  | .default | .label | .declHead | .whereKeyword | .inKeyword | .letKeyword | .doKeyword
  | .adoKeyword | .caseKeyword | .ofKeyword | .ifKeyword | .thenKeyword | .elseKeyword
  | .forallKeyword => true
  | _ => false

/-- A reserved word has the action of a word, and the common one only if it is plain. -/
theorem action_of_isKeyword {kind : TokenKind} (h : kind.isKeyword = true) :
    (layoutRules.action kind).isWord = true
      ∧ (layoutRules.action kind = .default ↔ kind ∈ plainWords)
      ∧ (layoutRules.action kind = .whereKeyword ↔ kind = .kwWhere) := by
  revert h
  cases kind <;> decide

namespace State

variable {state : State} (h : state.stack.delimiter = .property)
include h

-- ============================================== what the place does

/-- Where a label may stand, a pop that allows it takes the label's context. -/
theorem popIf_of_label {p : Delimiter → Bool} (hp : p .property = true) :
    state.popIf p = ⟨state.stack.pop, state.emitted⟩ := by
  obtain ⟨⟨frames⟩, emitted⟩ := state
  cases frames with
  | nil => cases h
  | cons frame below =>
    have hframe : frame.delimiter = .property := h
    unfold popIf
    simp only [hframe, hp, if_true]
    rfl

/-- No declaration starts where a label may stand. -/
theorem startsTopDecl_of_label (position : Position) :
    state.stack.startsTopDecl position = false := by
  obtain ⟨⟨frames⟩, emitted⟩ := state
  cases frames with
  | nil => cases h
  | cons frame below =>
    have hframe : frame.delimiter = .property := h
    cases below with
    | nil => simp [Stack.startsTopDecl, hframe]
    | cons => rfl

variable (token : Token) (next : Position)

/-- A token that settles in the common way and then ends the place. -/
theorem endLabel_emitDefault :
    (state.emitDefault token).endLabel
      = ⟨state.stack.pop, ⟨.raw token, state.stack⟩ :: state.emitted⟩ := by
  have hemitted : (state.emit (.raw token)).stack.delimiter = .property := h
  rw [emitDefault_of_label h]
  exact popIf_of_label hemitted rfl

-- ==================================================== the actions

/-- The common action leaves the place open. -/
theorem stepDefault_of_label :
    state.stepDefault token = ⟨state.stack, ⟨.raw token, state.stack⟩ :: state.emitted⟩ := by
  have hnone : ¬(state.emit (.raw token)).stack.startsTopDecl token.start = true := by
    rw [emit, startsTopDecl_of_label h]
    exact Bool.false_ne_true
  unfold stepDefault
  rw [emitDefault_of_label h]
  exact if_neg hnone

/-- A word that heads a construct is a label there and opens nothing. -/
theorem stepHead_of_label (delimiter : Delimiter) :
    state.stepHead token delimiter
      = ⟨state.stack.pop, ⟨.raw token, state.stack⟩ :: state.emitted⟩ := by
  have hnone : ¬(state.emitDefault token).stack.startsTopDecl token.start = true := by
    rw [emitDefault_of_label h, emit, startsTopDecl_of_label h]
    exact Bool.false_ne_true
  exact (if_neg hnone).trans (endLabel_emitDefault h token)

/-- Whatever else a keyword would do, it is a label there. -/
theorem emitKeyword_of_label (after : State → State) :
    state.emitKeyword token after
      = ⟨state.stack.pop, ⟨.raw token, state.stack⟩ :: state.emitted⟩ := by
  have hemitted : (state.emit (.raw token)).stack.delimiter = .property := h
  unfold emitKeyword
  rw [if_pos h, emitDefault_of_label h]
  exact popIf_of_label hemitted rfl

/-- A `where` ends the place before it is emitted. -/
theorem stepWhere_of_label :
    state.stepWhere token next
      = ⟨state.stack.pop, ⟨.raw token, state.stack.pop⟩ :: state.emitted⟩ := by
  unfold stepWhere
  rw [h]
  exact congrArg (emit · (.raw token)) (popIf_of_label h rfl)

/-- An `in` is a label there and closes no block. -/
theorem stepIn_of_label :
    state.stepIn token = ⟨state.stack.pop, ⟨.raw token, state.stack⟩ :: state.emitted⟩ := by
  have hclosed : state.collapsed .beforeIn token.start = state.stack :=
    collapsed_of_mask (fun _ => isIndent_of_beforeIn) (topIsMask_of_label h)
  have hblock : state.stack.top.isIndent = false := topIsMask_of_label h
  simp only [stepIn, hclosed, h, hblock, reduceCtorEq, false_and, if_false, Bool.false_eq_true]
  exact endLabel_emitDefault h token

theorem stepOf_of_label :
    state.stepOf token next = ⟨state.stack.pop, ⟨.raw token, state.stack⟩ :: state.emitted⟩ := by
  have hclosed : state.collapse .indented token.start = state :=
    collapse_of_mask (fun _ => id) (topIsMask_of_label h)
  simp only [stepOf, hclosed, h, reduceCtorEq, if_false]
  exact endLabel_emitDefault h token

theorem stepThen_of_label :
    state.stepThen token = ⟨state.stack.pop, ⟨.raw token, state.stack⟩ :: state.emitted⟩ := by
  have hclosed : state.collapsed .indented token.start = state.stack :=
    collapsed_of_mask (fun _ => id) (topIsMask_of_label h)
  simp only [stepThen, hclosed, h, reduceCtorEq, if_false]
  exact endLabel_emitDefault h token

/-- An `else` is a label there, since none of its constructs is the innermost. -/
theorem stepElse_of_label :
    state.stepElse token = ⟨state.stack.pop, ⟨.raw token, state.stack⟩ :: state.emitted⟩ := by
  have hclosed : state.collapsed .indented token.start = state.stack :=
    collapsed_of_mask (fun _ => id) (topIsMask_of_label h)
  have hkept : state.collapse .offside token.start = state :=
    collapse_of_mask (fun _ => isIndent_of_offside) (topIsMask_of_label h)
  have hchain : state.continuesInstances token.start = false := by
    simp [continuesInstances, startsTopDecl_of_label h, h]
  have hemitted : (state.emit (.raw token)).stack.delimiter = .property := h
  simp only [stepElse, hclosed, hkept, hchain, h, separate_of_label h, reduceCtorEq, if_false,
    Bool.false_eq_true]
  exact popIf_of_label hemitted rfl

/-- In the place of a label every action of a word emits its token and opens nothing. All but
the common one end the place. -/
theorem step_of_label {action : Action} (hword : action.isWord = true) :
    state.step token next action
      = ⟨if action = .default then state.stack else state.stack.pop,
        ⟨.raw token, if action = .whereKeyword then state.stack.pop else state.stack⟩
          :: state.emitted⟩ := by
  cases action with
  | default => exact stepDefault_of_label h token
  | label => exact stepHead_of_label h token .topDecl
  | declHead => exact stepHead_of_label h token .topDeclHead
  | whereKeyword => exact stepWhere_of_label h token next
  | inKeyword => exact stepIn_of_label h token
  | ofKeyword => exact stepOf_of_label h token next
  | thenKeyword => exact stepThen_of_label h token
  | elseKeyword => exact stepElse_of_label h token
  | letKeyword | doKeyword | adoKeyword | caseKeyword | ifKeyword | forallKeyword =>
    simp only [step, stepLet, emitKeyword_of_label h, reduceCtorEq, if_false]
  | _ => cases hword

end State

/-- In the place of a record label a reserved word is emitted as an identifier is: no virtual
token comes with it, and no context opens. An identifier ends the place and leaves the contexts
below it. A reserved word does the same, unless it is one of `plainWords`: behind these the
place stays open. (`where` ends it first, and is recorded beside the contexts below.) -/
theorem keyword_as_label {state : State} (h : state.stack.delimiter = .property)
    {word name : Token} (hword : word.kind.isKeyword = true) (hname : name.kind = .lower)
    (next : Position) :
    state.step name next (layoutRules.action name.kind)
        = ⟨state.stack.pop, ⟨.raw name, state.stack⟩ :: state.emitted⟩
      ∧ state.step word next (layoutRules.action word.kind)
        = ⟨if word.kind ∈ plainWords then state.stack else state.stack.pop,
          ⟨.raw word, if word.kind = .kwWhere then state.stack.pop else state.stack⟩
            :: state.emitted⟩ := by
  obtain ⟨haction, hplain, hwhere⟩ := action_of_isKeyword hword
  refine ⟨?_, ?_⟩
  · rw [hname]
    exact State.stepHead_of_label h name .topDecl
  · rw [State.step_of_label h word next haction]
    simp only [hplain, hwhere]

/-- A `do` behind the point of a record access. -/
theorem keyword_as_label_do :
    let reading := Reading.ofSource "x = r."
    let state := State.afterMoves (State.movesOf layoutRules reading.eof reading.tokens)
    let word : Token := ⟨.kwDo, ⟨1, 7, 6⟩, ⟨1, 9, 8⟩⟩
    state.stack.delimiter = .property ∧ word.kind.isKeyword = true
      ∧ state.step word ⟨1, 9, 8⟩ (layoutRules.action word.kind)
        = ⟨⟨[]⟩, ⟨.raw word, ⟨[⟨.property, ⟨1, 6, 5⟩⟩]⟩⟩ :: state.emitted⟩ := by
  intro reading state word
  have hstack : state.stack = ⟨[⟨.property, ⟨1, 6, 5⟩⟩]⟩ := by decide +kernel
  have hlabel : state.stack.delimiter = .property := by rw [hstack]; rfl
  have hstep :=
    (@keyword_as_label state hlabel word ⟨.lower, word.start, word.stop⟩ rfl rfl ⟨1, 9, 8⟩).2
  rw [hstack] at hstep
  exact ⟨hlabel, rfl, hstep⟩

/-- A `type` behind the point of a record access is no plain label: it does not end the place,
as an identifier there does. The next declaration is not separated from this one. -/
theorem type_keeps_label :
    let reading := Reading.ofSource "module M where\nx = r."
    let state := State.afterMoves (State.movesOf layoutRules reading.eof reading.tokens)
    let word : Token := ⟨.kwType, ⟨2, 7, 21⟩, ⟨2, 11, 25⟩⟩
    let name : Token := ⟨.lower, ⟨2, 7, 21⟩, ⟨2, 11, 25⟩⟩
    let declared : Token := ⟨.lower, ⟨3, 1, 26⟩, ⟨3, 2, 27⟩⟩
    let worded := state.step word declared.start (layoutRules.action word.kind)
    let named := state.step name declared.start (layoutRules.action name.kind)
    state.stack.delimiter = .property ∧ word.kind.isKeyword = true
      ∧ worded.stack = state.stack ∧ named.stack = state.stack.pop ∧ worded.stack ≠ named.stack
      ∧ ((worded.step declared declared.stop .label).output.map Entry.token)
        = worded.output.map Entry.token ++ [.raw declared]
      ∧ ((named.step declared declared.stop .label).output.map Entry.token)
        = named.output.map Entry.token ++ [.sep declared.start, .raw declared]
      ∧ ¬∀ (state : State) (word name : Token) (next : Position),
        state.stack.delimiter = .property → word.kind.isKeyword = true → name.kind = .lower →
        (state.step word next (layoutRules.action word.kind)).stack
          = (state.step name next (layoutRules.action name.kind)).stack := by
  intro reading state word name declared worded named
  have hlabel : state.stack.delimiter = .property := by decide +kernel
  have hne : worded.stack ≠ named.stack := by decide +kernel
  exact ⟨hlabel, rfl, by decide +kernel, by decide +kernel, hne, by decide +kernel,
    by decide +kernel, fun h => hne (h state word name declared.start hlabel rfl rfl)⟩

end Offside.Layout
