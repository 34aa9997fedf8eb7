import Offside.Layout.Step

/-!
The layout pass: a fold over the tokens of a text.

Trivia passes through in place. Every other token makes one step, with the
position of the next token that is not trivia; at the end, the blocks still
open are closed at the end of the text.
-/

namespace Offside.Layout

/-- Where the first token that is not trivia starts, or the end of the text. -/
def nextStart (tokens : List Token) (eof : Position) : Position :=
  ((tokens.find? fun token => !token.isTrivia).map Token.start).getD eof

/-- Folds the tokens into a state. -/
def State.run (rules : Rules) (eof : Position) (state : State) : List Token → State
  | [] => state
  | token :: rest =>
    if token.isTrivia then (state.emitTrivia token).run rules eof rest
    else (state.step token (nextStart rest eof) (rules.action token.kind)).run rules eof rest

/-- The tokens with the blocks made explicit, each beside the stack it was
emitted under. -/
def annotate (rules : Rules) (tokens : List Token) (eof : Position) : List Entry :=
  ((State.initial.run rules eof tokens).unwind eof).output

/-- The tokens with the blocks made explicit. -/
def tokensOf (rules : Rules) (tokens : List Token) (eof : Position) : List LayoutToken :=
  (annotate rules tokens eof).map Entry.token

end Offside.Layout
