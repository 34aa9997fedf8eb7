import Offside.Grammar.First
import Offside.Text.Quoted

/-!
How a grammar is named in messages.

The expectations of a grammar are the descriptions of what it can start with,
sorted and each once. Its name is a short form of the whole, for reports on
the grammar itself.
-/

namespace Offside

/-- The texts in order, each once. The order of code points is that of the bytes
of the UTF-8 form. -/
def sortedOnce (texts : List String) : List String :=
  (texts.mergeSort fun a b => decide (a ≤ b)).eraseReps

namespace Grammar

mutual

/-- The descriptions of what the grammar can start with, in the order of its
parts. -/
def startDescriptions : Grammar → List String
  | .token kind => [kind.describe]
  | .literal text => [text]
  | .labeled label _ => [label]
  | .reference name _ | .capture name _ => [name]
  | .seq parts => seqDescriptions parts
  | .choice alternatives => choiceDescriptions alternatives
  | .succeed => []
  | .many child _ | .optional child | .attempt child | .heal child | .guard child ..
  | .node _ child | .relax _ child | .relaxTo _ child _ | .lookahead _ child
  | .fold _ child _ | .continuation _ child _ => child.startDescriptions

/-- The descriptions of a sequence: those of the parts up to and including the
first that cannot match nothing. -/
def seqDescriptions : List Grammar → List String
  | [] => []
  | part :: rest =>
    if part.isNullable then part.startDescriptions ++ seqDescriptions rest
    else part.startDescriptions

/-- The descriptions of all alternatives. -/
def choiceDescriptions : List Grammar → List String
  | [] => []
  | alternative :: rest => alternative.startDescriptions ++ choiceDescriptions rest

end

/-- What is expected where the grammar fails at its start. -/
def expected (grammar : Grammar) : List String := sortedOnce grammar.startDescriptions

/-- A name applied to another. -/
def applied (function argument : String) : String := function ++ "(" ++ argument ++ ")"

mutual

/-- A short form of the grammar. -/
def name : Grammar → String
  | .token kind => kind.name
  | .literal text => Text.quoted text
  | .seq parts => "(" ++ String.intercalate " + " (names parts) ++ ")"
  | .choice alternatives => "(" ++ String.intercalate " | " (names alternatives) ++ ")"
  | .many child 0 => applied "many" child.name
  | .many child (_ + 1) => applied "many1" child.name
  | .optional child => applied "optional" child.name
  | .attempt child => applied "attempt" child.name
  | .heal child => applied "heal" child.name
  | .guard child .. => applied "guard" child.name
  | .node kind _ => kind.name
  | .labeled label _ => label
  | .relax _ child => applied "relax" child.name
  | .relaxTo _ child sync => applied "relax_to" (child.name ++ ", " ++ sync.name)
  | .fold kind .. => applied "fold" kind.name
  | .continuation kind .. => applied "continuation" kind.name
  | .reference name _ => name
  | .succeed => "succeed"
  | .lookahead _ child => applied "lookahead" child.name
  | .capture name _ => name

/-- The short forms of several grammars. -/
def names : List Grammar → List String
  | [] => []
  | grammar :: rest => grammar.name :: names rest

end

end Grammar

end Offside
