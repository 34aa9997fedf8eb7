import Offside.Grammar.Basic
import Offside.Proofs.Grammar.Laid

/-!
What a grammar can match.

`Matches` is the language of successful runs: which stretches of places a
grammar can be seen to match, whatever the context of the run and the outcomes
of the runs before it. It allows for more than what a run does: it does not say
which alternative a choice commits to, or where a repetition stops.

Two analyses read off a grammar what holds of all its matches. A grammar that
`consumes` matches no empty stretch, and one that `takesTrees` matches whole
token trees only. Both look at the rules of the table one by one, and hold of
the runs through rules once every rule has been checked.
-/

namespace Offside

/-- The stretches that a grammar can match. -/
inductive Matches (rules : RuleTable) (input : Input) : Grammar → (first last : Nat) → Prop
  | token {kind : TokenKind} {place : Nat} (inside : place < input.size)
      (hkind : input.kindAt place = kind) : Matches rules input (.token kind) place (place + 1)
  | literal {text : String} {place : Nat} (inside : place < input.size)
      (htext : input.textAt place = text) : Matches rules input (.literal text) place (place + 1)
  | seqNil (place : Nat) : Matches rules input (.seq []) place place
  | seqCons {part : Grammar} {rest : List Grammar} {first place last : Nat}
      (hpart : Matches rules input part first place)
      (hrest : Matches rules input (.seq rest) place last) :
      Matches rules input (.seq (part :: rest)) first last
  | choice {alternative : Grammar} {alternatives : List Grammar} {first last : Nat}
      (hmem : alternative ∈ alternatives)
      (halternative : Matches rules input alternative first last) :
      Matches rules input (.choice alternatives) first last
  | manyNil (child : Grammar) (place : Nat) : Matches rules input (.many child 0) place place
  | manyCons {child : Grammar} {least first place last : Nat} (progress : first < place)
      (hchild : Matches rules input child first place)
      (hrest : Matches rules input (.many child (least - 1)) place last) :
      Matches rules input (.many child least) first last
  | optionalNil (child : Grammar) (place : Nat) : Matches rules input (.optional child) place place
  | optional {child : Grammar} {first last : Nat} (hchild : Matches rules input child first last) :
      Matches rules input (.optional child) first last
  | attempt {child : Grammar} {first last : Nat} (hchild : Matches rules input child first last) :
      Matches rules input (.attempt child) first last
  | heal {child : Grammar} {first last : Nat} (hchild : Matches rules input child first last) :
      Matches rules input (.heal child) first last
  | guard {child : Grammar} {message : String} {accepts : String → Bool} {first last : Nat}
      (hchild : Matches rules input child first last) :
      Matches rules input (.guard child message accepts) first last
  | node {kind : NodeKind} {child : Grammar} {first last : Nat}
      (hchild : Matches rules input child first last) :
      Matches rules input (.node kind child) first last
  | labeled {label : String} {child : Grammar} {first last : Nat}
      (hchild : Matches rules input child first last) :
      Matches rules input (.labeled label child) first last
  | relaxNil (message : String) (child : Grammar) (place : Nat) :
      Matches rules input (.relax message child) place place
  | relax {message : String} {child : Grammar} {first last : Nat}
      (hchild : Matches rules input child first last) :
      Matches rules input (.relax message child) first last
  /-- What is skipped are token trees, if the blocks of the input are balanced. -/
  | skipped {message : String} {child sync : Grammar} {first last : Nat}
      (trees : input.Laid → input.Trees anyRoot first last) :
      Matches rules input (.relaxTo message child sync) first last
  | relaxTo {message : String} {child sync : Grammar} {first last : Nat}
      (hchild : Matches rules input child first last) :
      Matches rules input (.relaxTo message child sync) first last
  | fold {kind : NodeKind} {start next : Grammar} {first place last : Nat}
      (hstart : Matches rules input start first place)
      (hsteps : Matches rules input (.many next 0) place last) :
      Matches rules input (.fold kind start next) first last
  | continuation {kind : NodeKind} {start rest : Grammar} {first place last : Nat}
      (hstart : Matches rules input start first place)
      (hrest : Matches rules input (.optional rest) place last) :
      Matches rules input (.continuation kind start rest) first last
  | reference {name : String} {rule : Nat} {body : Grammar} {first last : Nat}
      (hrule : rules rule = some body) (hbody : Matches rules input body first last) :
      Matches rules input (.reference name rule) first last
  | succeed (place : Nat) : Matches rules input .succeed place place
  | lookahead {holds : View → Bool} {child : Grammar} {inAttempt : Bool} {first last : Nat}
      (hholds : holds ⟨input, first, inAttempt⟩ = true)
      (hchild : Matches rules input child first last) :
      Matches rules input (.lookahead holds child) first last
  | capture {name : String} {select : String → Grammar} {text : String} {first last : Nat}
      (hselect : Matches rules input (select text) first last) :
      Matches rules input (.capture name select) first last

-- ======================================================== consumption

namespace Grammar

mutual

/-- Whether every match of the grammar consumes a token, given that every match of
a rule does. -/
def consumes : Grammar → Bool
  | .token _ | .literal _ | .reference .. => true
  | .seq parts => anyConsumes parts
  | .choice alternatives => allConsume alternatives
  | .many _ least => least != 0
  | .optional _ | .relax .. | .relaxTo .. | .succeed | .capture .. => false
  | .attempt child | .heal child | .guard child .. | .node _ child | .labeled _ child
  | .lookahead _ child | .fold _ child _ | .continuation _ child _ => child.consumes

/-- Whether one of the parts consumes a token. -/
def anyConsumes : List Grammar → Bool
  | [] => false
  | part :: rest => part.consumes || anyConsumes rest

/-- Whether all alternatives consume a token. -/
def allConsume : List Grammar → Bool
  | [] => true
  | alternative :: rest => alternative.consumes && allConsume rest

end

/-- One alternative consumes a token if all of them do. -/
theorem consumes_of_mem {alternative : Grammar} {alternatives : List Grammar}
    (h : allConsume alternatives = true) (hmem : alternative ∈ alternatives) :
    alternative.consumes = true := by
  induction alternatives with
  | nil => cases hmem
  | cons head rest ih =>
    unfold allConsume at h
    obtain ⟨hhead, hrest⟩ := Bool.and_eq_true_iff.mp h
    cases hmem with
    | head => exact hhead
    | tail _ hmem => exact ih hrest hmem

end Grammar

variable {rules : RuleTable} {input : Input} {grammar : Grammar} {first last : Nat}

theorem Matches.kindAt_eq {kind : TokenKind}
    (h : Matches rules input (.token kind) first last) : input.kindAt first = kind := by
  cases h with
  | token _ hkind => exact hkind

/-- A match moves on, or stays where it is. -/
theorem Matches.place_le (h : Matches rules input grammar first last) (hlaid : input.Laid) :
    first ≤ last := by
  induction h with
  | token | literal => exact Nat.le_succ _
  | seqNil | manyNil | optionalNil | relaxNil | succeed => exact Nat.le_refl _
  | seqCons _ _ ihpart ihrest => exact Nat.le_trans ihpart ihrest
  | fold _ _ ihpart ihrest | continuation _ _ ihpart ihrest => exact Nat.le_trans ihpart ihrest
  | manyCons progress _ _ _ ihrest => exact Nat.le_trans (Nat.le_of_lt progress) ihrest
  | skipped trees => exact (trees hlaid).first_le
  | choice _ _ ih | optional _ ih | attempt _ ih | heal _ ih | guard _ ih | node _ ih
  | labeled _ ih | relax _ ih | relaxTo _ ih | reference _ _ ih | lookahead _ _ ih
  | capture _ ih => exact ih

/-- A match of a grammar that consumes moves on. -/
theorem Matches.place_lt (h : Matches rules input grammar first last) (hlaid : input.Laid)
    (hrules : ∀ rule body, rules rule = some body → body.consumes = true)
    (hconsumes : grammar.consumes = true) : first < last := by
  induction h with
  | token | literal => exact Nat.lt_succ_self _
  | seqNil | manyNil | optionalNil | relaxNil | succeed => cases hconsumes
  | optional | relax | relaxTo | skipped | capture => cases hconsumes
  | seqCons hpart hrest ihpart ihrest =>
    unfold Grammar.consumes Grammar.anyConsumes at hconsumes
    rcases Bool.or_eq_true_iff.mp hconsumes with h | h
    · exact Nat.lt_of_lt_of_le (ihpart h) (hrest.place_le hlaid)
    · exact Nat.lt_of_le_of_lt (hpart.place_le hlaid) (ihrest (by unfold Grammar.consumes; exact h))
  | fold _ hrest ihstart =>
    unfold Grammar.consumes at hconsumes
    exact Nat.lt_of_lt_of_le (ihstart hconsumes) (hrest.place_le hlaid)
  | continuation _ hrest ihstart =>
    unfold Grammar.consumes at hconsumes
    exact Nat.lt_of_lt_of_le (ihstart hconsumes) (hrest.place_le hlaid)
  | manyCons progress _ hrest => exact Nat.lt_of_lt_of_le progress (hrest.place_le hlaid)
  | reference hrule _ ih => exact ih (hrules _ _ hrule)
  | choice hmem _ ih =>
    unfold Grammar.consumes at hconsumes
    exact ih (Grammar.consumes_of_mem hconsumes hmem)
  | attempt _ ih | heal _ ih | guard _ ih | node _ ih | labeled _ ih | lookahead _ _ ih =>
    unfold Grammar.consumes at hconsumes
    exact ih hconsumes

-- ========================================================= token trees

/-- Whether roots of some kinds are roots of others. -/
def TokenKind.within (roots others : TokenKind → Bool) : Bool :=
  TokenKind.all.all fun kind => !roots kind || others kind

theorem TokenKind.mem_all (kind : TokenKind) : kind ∈ TokenKind.all := by
  cases kind <;> decide

/-- Checking the kinds one by one is enough to compare all roots. -/
theorem TokenKind.of_within {roots others : TokenKind → Bool}
    (h : TokenKind.within roots others = true) (kind : TokenKind) (hroot : roots kind = true) :
    others kind = true := by
  have hkind := List.all_eq_true.mp h kind kind.mem_all
  rw [hroot] at hkind
  exact hkind

namespace Grammar

mutual

/-- Whether every match of the grammar is made of whole token trees with roots of
some kinds, given that every match of a rule is, with no separator at the
roots. -/
def takesTrees : Grammar → (roots : TokenKind → Bool) → Bool
  | .token kind, roots => roots kind && !kind.isBracket
  | .literal text, roots => text != "" && TokenKind.within noSeparator roots
  | .seq parts, roots => seqTakesTrees parts roots 0
  | .choice alternatives, roots => allTakeTrees alternatives roots
  | .relaxTo _ child _, roots => child.takesTrees roots && TokenKind.within anyRoot roots
  | .fold _ start next, roots => start.takesTrees roots && next.takesTrees roots
  | .continuation _ start rest, roots => start.takesTrees roots && rest.takesTrees roots
  | .reference .., roots => TokenKind.within noSeparator roots
  | .succeed, _ => true
  | .capture .., _ => false
  | .many child _, roots | .optional child, roots | .attempt child, roots | .heal child, roots
  | .guard child .., roots | .node _ child, roots | .labeled _ child, roots
  | .relax _ child, roots | .lookahead _ child, roots => child.takesTrees roots

/-- Whether the parts, where so many blocks are open, close these and else take
whole trees. -/
def seqTakesTrees : List Grammar → (roots : TokenKind → Bool) → (depth : Nat) → Bool
  | [], _, depth => depth == 0
  | .token .layoutStart :: rest, roots, depth =>
    (depth != 0 || roots .layoutStart) && seqTakesTrees rest roots (depth + 1)
  | .token .layoutEnd :: rest, roots, depth => depth != 0 && seqTakesTrees rest roots (depth - 1)
  | part :: rest, roots, depth =>
    part.takesTrees (if depth = 0 then roots else anyRoot) && seqTakesTrees rest roots depth

/-- Whether all alternatives take whole trees. -/
def allTakeTrees : List Grammar → (roots : TokenKind → Bool) → Bool
  | [], _ => true
  | alternative :: rest, roots => alternative.takesTrees roots && allTakeTrees rest roots

end

end Grammar

/-- Trees that go on behind the ends of so many open blocks. -/
def Input.TreesBehind (input : Input) (roots : TokenKind → Bool) : Nat → Nat → Nat → Prop
  | 0, first, last => input.Trees roots first last
  | depth + 1, first, last =>
    ∃ stop, input.Trees anyRoot first stop ∧ input.kindAt stop = .layoutEnd
      ∧ input.TreesBehind roots depth (stop + 1) last

section TreesBehind

variable {roots : TokenKind → Bool} {depth place : Nat}

/-- Whole trees in front, at the depth where the others go on. -/
theorem Input.TreesBehind.cons (h : input.Trees (if depth = 0 then roots else anyRoot) first place)
    (behind : input.TreesBehind roots depth place last) :
    input.TreesBehind roots depth first last := by
  cases depth with
  | zero => exact h.append behind
  | succ depth =>
    obtain ⟨stop, hbody, hstop, hrest⟩ := behind
    exact ⟨stop, h.any.append hbody, hstop, hrest⟩

/-- A start in front opens one more block, whose end is the first of those to come. -/
theorem Input.TreesBehind.start (hroot : depth ≠ 0 ∨ roots .layoutStart = true)
    (hstart : input.kindAt first = .layoutStart)
    (behind : input.TreesBehind roots (depth + 1) (first + 1) last) :
    input.TreesBehind roots depth first last := by
  obtain ⟨stop, hbody, hstop, hrest⟩ := behind
  cases depth with
  | zero => exact .block (hroot.resolve_left (absurd rfl)) hstart hbody hstop hrest
  | succ depth =>
    obtain ⟨outer, houter, hrest⟩ := hrest
    exact ⟨outer, .block rfl hstart hbody hstop houter, hrest⟩

/-- An end in front closes the innermost of the open blocks. -/
theorem Input.TreesBehind.stop (hdepth : depth ≠ 0) (hstop : input.kindAt first = .layoutEnd)
    (behind : input.TreesBehind roots (depth - 1) (first + 1) last) :
    input.TreesBehind roots depth first last := by
  obtain ⟨outer, rfl⟩ := Nat.exists_eq_succ_of_ne_zero hdepth
  exact ⟨first, .nil _ _, hstop, behind⟩

/-- The next part opens a block, closes one, or takes whole trees. -/
theorem Grammar.seqTakesTrees_cons {part : Grammar} {rest : List Grammar}
    (h : seqTakesTrees (part :: rest) roots depth = true) :
    (part = .token .layoutStart ∧ (depth ≠ 0 ∨ roots .layoutStart = true)
        ∧ seqTakesTrees rest roots (depth + 1) = true)
      ∨ (part = .token .layoutEnd ∧ depth ≠ 0 ∧ seqTakesTrees rest roots (depth - 1) = true)
      ∨ (part.takesTrees (if depth = 0 then roots else anyRoot) = true
        ∧ seqTakesTrees rest roots depth = true) := by
  unfold seqTakesTrees at h
  split at h
  · rename_i heq
    cases heq
  · rename_i heq
    cases heq
    obtain ⟨hroot, hrest⟩ := Bool.and_eq_true_iff.mp h
    exact .inl ⟨rfl, by simpa using hroot, hrest⟩
  · rename_i heq
    cases heq
    obtain ⟨hdepth, hrest⟩ := Bool.and_eq_true_iff.mp h
    exact .inr (.inl ⟨rfl, by simpa using hdepth, hrest⟩)
  · rename_i heq
    cases heq
    exact .inr (.inr (Bool.and_eq_true_iff.mp h))

/-- One alternative takes whole trees if all of them do. -/
theorem Grammar.takesTrees_of_mem {alternative : Grammar} {alternatives : List Grammar}
    (h : allTakeTrees alternatives roots = true) (hmem : alternative ∈ alternatives) :
    alternative.takesTrees roots = true := by
  induction alternatives with
  | nil => cases hmem
  | cons head rest ih =>
    unfold allTakeTrees at h
    obtain ⟨hhead, hrest⟩ := Bool.and_eq_true_iff.mp h
    cases hmem with
    | head => exact hhead
    | tail _ hmem => exact ih hrest hmem

/-- A token that is written out is neither bracket nor separator: a tree of its own. -/
theorem Input.Laid.trees_literal (hlaid : input.Laid) {text : String} (inside : place < input.size)
    (htext : input.textAt place = text)
    (htakes : (Grammar.literal text).takesTrees roots = true) :
    input.Trees roots place (place + 1) := by
  unfold Grammar.takesTrees at htakes
  obtain ⟨hnonempty, hroots⟩ := Bool.and_eq_true_iff.mp htakes
  have hwritten := hlaid.text_written place (by rw [htext]; simpa using hnonempty)
  have hseparator : noSeparator (input.kindAt place) = true := by
    cases hkind : input.kindAt place <;> first | rfl | (rw [hkind] at hwritten; cases hwritten)
  exact .single (TokenKind.of_within hroots _ hseparator) inside
    (TokenKind.isBracket_of_isWritten hwritten)

/-- A match of a grammar that takes whole trees is made of whole trees; and so is a
match of the last parts of a sequence, behind the blocks that they close. -/
theorem Matches.treesBehind (h : Matches rules input grammar first last) (hlaid : input.Laid)
    (hrules : ∀ rule body, rules rule = some body → body.takesTrees noSeparator = true) :
    (∀ roots, grammar.takesTrees roots = true → input.Trees roots first last)
      ∧ ∀ parts roots depth, grammar = .seq parts → Grammar.seqTakesTrees parts roots depth = true →
        input.TreesBehind roots depth first last := by
  induction h with
  | @token kind place inside hkind =>
    refine ⟨fun roots htakes => ?_, nofun⟩
    unfold Grammar.takesTrees at htakes
    obtain ⟨hroot, hbracket⟩ := Bool.and_eq_true_iff.mp htakes
    refine .single (by rw [hkind]; exact hroot) inside ?_
    rw [hkind]
    simpa using hbracket
  | literal inside htext => exact ⟨fun _ => hlaid.trees_literal inside htext, nofun⟩
  | seqNil place =>
    refine ⟨fun roots _ => .nil _ _, ?_⟩
    intro parts roots depth hseq htakes
    cases hseq
    unfold Grammar.seqTakesTrees at htakes
    rw [eq_of_beq htakes]
    exact .nil _ _
  | @seqCons part rest first place last hpart hrest ihpart ihrest =>
    -- a part of a sequence may be the start or the end of a block alone, which is no tree; the
    -- depth counts the blocks whose ends are still to come
    have hboth : ∀ parts roots depth, Grammar.seq (part :: rest) = .seq parts →
        Grammar.seqTakesTrees parts roots depth = true →
        input.TreesBehind roots depth first last := by
      intro parts roots depth hseq htakes
      cases hseq
      rcases Grammar.seqTakesTrees_cons htakes with
        ⟨rfl, hroot, hmore⟩ | ⟨rfl, hdepth, hmore⟩ | ⟨htakes, hmore⟩
      · cases hpart with
        | token inside hkind => exact .start hroot hkind (ihrest.2 _ _ _ rfl hmore)
      · cases hpart with
        | token inside hkind => exact .stop hdepth hkind (ihrest.2 _ _ _ rfl hmore)
      · exact .cons (ihpart.1 _ htakes) (ihrest.2 _ _ _ rfl hmore)
    refine ⟨fun roots htakes => ?_, hboth⟩
    unfold Grammar.takesTrees at htakes
    exact hboth _ roots 0 rfl htakes
  | choice hmem _ ih =>
    refine ⟨fun roots htakes => ?_, nofun⟩
    unfold Grammar.takesTrees at htakes
    exact ih.1 roots (Grammar.takesTrees_of_mem htakes hmem)
  | manyNil | optionalNil | relaxNil | succeed => exact ⟨fun _ _ => .nil _ _, nofun⟩
  | manyCons _ _ _ ihchild ihrest =>
    refine ⟨fun roots htakes => ?_, nofun⟩
    have hchild := htakes
    unfold Grammar.takesTrees at hchild
    exact (ihchild.1 roots hchild).append (ihrest.1 roots htakes)
  | fold _ _ ihstart ihsteps =>
    refine ⟨fun roots htakes => ?_, nofun⟩
    unfold Grammar.takesTrees at htakes
    obtain ⟨hstart, hnext⟩ := Bool.and_eq_true_iff.mp htakes
    exact (ihstart.1 roots hstart).append (ihsteps.1 roots hnext)
  | continuation _ _ ihstart ihrest =>
    refine ⟨fun roots htakes => ?_, nofun⟩
    unfold Grammar.takesTrees at htakes
    obtain ⟨hstart, hrest⟩ := Bool.and_eq_true_iff.mp htakes
    exact (ihstart.1 roots hstart).append (ihrest.1 roots hrest)
  | skipped trees =>
    refine ⟨fun roots htakes => ?_, nofun⟩
    unfold Grammar.takesTrees at htakes
    obtain ⟨_, hroots⟩ := Bool.and_eq_true_iff.mp htakes
    exact (trees hlaid).weaken (TokenKind.of_within hroots)
  | relaxTo _ ih =>
    refine ⟨fun roots htakes => ?_, nofun⟩
    unfold Grammar.takesTrees at htakes
    exact ih.1 roots (Bool.and_eq_true_iff.mp htakes).1
  | reference hrule _ ih =>
    refine ⟨fun roots htakes => ?_, nofun⟩
    unfold Grammar.takesTrees at htakes
    -- of a rule it is known only that there is no separator at its roots
    exact (ih.1 noSeparator (hrules _ _ hrule)).weaken (TokenKind.of_within htakes)
  | capture => exact ⟨nofun, nofun⟩
  | optional _ ih | attempt _ ih | heal _ ih | guard _ ih | node _ ih | labeled _ ih | relax _ ih
  | lookahead _ _ ih =>
    refine ⟨fun roots htakes => ?_, nofun⟩
    unfold Grammar.takesTrees at htakes
    exact ih.1 roots htakes

/-- A match of a grammar that takes whole trees is made of whole trees. -/
theorem Matches.trees (h : Matches rules input grammar first last) (hlaid : input.Laid)
    (hrules : ∀ rule body, rules rule = some body → body.takesTrees noSeparator = true)
    (htakes : grammar.takesTrees roots = true) : input.Trees roots first last :=
  (h.treesBehind hlaid hrules).1 roots htakes

end TreesBehind

end Offside
