import Offside.Grammar.Basic

/-!
What a grammar can start with, and whether it can match nothing.

Both are read off the grammar without running it. Where a grammar depends on
texts or refers to a rule, any token is taken to be a possible start.
-/

namespace Offside

/-- The kinds of token that a match can start with. -/
inductive FirstSet
  | tokens (set : TokenSet)
  /-- Any kind of token. -/
  | any
  deriving DecidableEq, Inhabited

namespace FirstSet

/-- No kind at all. -/
def empty : FirstSet := .tokens .empty

/-- The kinds of either set. -/
def union : FirstSet → FirstSet → FirstSet
  | .tokens set, .tokens other => .tokens (set.union other)
  | _, _ => .any

/-- Whether a match can start with a kind. -/
def admits : FirstSet → TokenKind → Bool
  | .tokens set, kind => set.contains kind
  | .any, _ => true

end FirstSet

namespace Grammar

mutual

/-- Whether the grammar can match without consuming a token. -/
def isNullable : Grammar → Bool
  | .token _ | .literal _ | .reference .. | .capture .. => false
  | .seq parts => allNullable parts
  | .choice alternatives => anyNullable alternatives
  | .many child least => least == 0 || child.isNullable
  | .optional _ | .relax .. | .relaxTo .. | .succeed => true
  | .attempt child | .heal child | .guard child .. | .node _ child | .labeled _ child
  | .lookahead _ child | .fold _ child _ | .continuation _ child _ => child.isNullable

/-- Whether all grammars can match nothing. -/
def allNullable : List Grammar → Bool
  | [] => true
  | part :: rest => part.isNullable && allNullable rest

/-- Whether one of the grammars can match nothing. -/
def anyNullable : List Grammar → Bool
  | [] => false
  | alternative :: rest => alternative.isNullable || anyNullable rest

end

mutual

/-- The kinds of token that a match can start with. -/
def first : Grammar → FirstSet
  | .token kind => .tokens (.single kind)
  | .literal _ | .reference .. | .capture .. | .relaxTo .. => .any
  | .seq parts => firstOfSeq parts
  | .choice alternatives => firstOfChoice alternatives
  | .succeed => .empty
  | .many child _ | .optional child | .relax _ child | .attempt child | .heal child
  | .guard child .. | .node _ child | .labeled _ child | .lookahead _ child
  | .fold _ child _ | .continuation _ child _ => child.first

/-- The first tokens of a sequence: those of the parts up to and including the
first that cannot match nothing. -/
def firstOfSeq : List Grammar → FirstSet
  | [] => .empty
  | part :: rest =>
    if part.isNullable then part.first.union (firstOfSeq rest) else part.first

/-- The first tokens of a choice: those of all alternatives. -/
def firstOfChoice : List Grammar → FirstSet
  | [] => .empty
  | alternative :: rest => alternative.first.union (firstOfChoice rest)

end

/-- Whether the grammar may match where the current token has a kind. -/
def canStart (grammar : Grammar) (kind : TokenKind) : Bool :=
  grammar.isNullable || grammar.first.admits kind

-- ======================================================== dispatch

/-- The number of alternatives from which a choice selects by the current token. -/
def dispatchThreshold : Nat := 4

/-- The number of alternatives that a dispatch table has room for. -/
def dispatchCapacity : Nat := 65536

/-- Whether the grammar is a choice that selects by the current token. -/
def hasDispatch : Grammar → Bool
  | .choice alternatives => dispatchThreshold ≤ alternatives.length
  | _ => false

/-- The alternatives that a choice tries where the current token has a kind. A
narrow choice tries them all. -/
def candidates (alternatives : List Grammar) (kind : TokenKind) : List Grammar :=
  if dispatchThreshold ≤ alternatives.length then
    (alternatives.take dispatchCapacity).filter (·.canStart kind)
  else alternatives

/-- The candidates of a kind are taken from the alternatives. -/
theorem mem_of_mem_candidates {alternative : Grammar} {alternatives : List Grammar}
    {kind : TokenKind} (h : alternative ∈ candidates alternatives kind) :
    alternative ∈ alternatives := by
  unfold candidates at h
  split at h
  · exact List.mem_of_mem_take (List.mem_filter.mp h).1
  · exact h

end Grammar

end Offside
