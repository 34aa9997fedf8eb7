import Offside.Proofs.Layout.Moves

/-!
The layout pass loses nothing of the source.

`State.content` is what the output holds of the source: its tokens, without the
virtual ones. What a step writes besides its token is virtual (`emitted_step`), so
a move adds exactly the token that it is about (`content_move`), and the content of
a layout is the list of tokens that was laid out (`content_tokensOf`).
-/

namespace Offside

/-- The token of the source, if the layout token is one. -/
def LayoutToken.raw? : LayoutToken → Option Token
  | .raw token => some token
  | _ => none

namespace Layout

/-- The tokens of the source among layout tokens. -/
def content (tokens : List LayoutToken) : List Token := tokens.filterMap LayoutToken.raw?

namespace State

/-- The tokens of the source in the output. -/
def content (state : State) : List Token := Layout.content (state.output.map Entry.token)

/-- An entry adds its token at the end of the content. -/
theorem content_cons (entry : Entry) (emitted : List Entry) :
    Layout.content ((entry :: emitted).reverse.map Entry.token)
      = Layout.content (emitted.reverse.map Entry.token) ++ entry.token.raw?.toList := by
  unfold Layout.content
  rw [List.reverse_cons, List.map_append, List.filterMap_append]
  cases hraw : entry.token.raw? with
  | none => simp [hraw]
  | some token => simp [hraw]

/-- Ends and separators are not of the source. -/
theorem Marked.content {position : Position} {earlier emitted : List Entry}
    (marked : Marked position earlier emitted) :
    Layout.content (emitted.reverse.map Entry.token)
      = Layout.content (earlier.reverse.map Entry.token) := by
  induction marked with
  | refl => rfl
  | stop stack _ ih | sep stack _ ih =>
    rw [content_cons, ih]
    exact List.append_nil _

/-- A step adds its token to the content, whatever virtual tokens it puts around it. -/
theorem content_step (state : State) (token : Token) (next : Position) (action : Action) :
    (state.step token next action).content = state.content ++ [token] := by
  obtain ⟨settled, stack, opened, hmarked, hemitted, hopened⟩ :=
    emitted_step token next state action
  have htoken : Layout.content ((⟨.raw token, stack⟩ :: settled : List Entry).reverse.map
      Entry.token) = state.content ++ [token] := by
    rw [content_cons, hmarked.content]
    rfl
  unfold content output
  rw [hemitted]
  rcases hopened with rfl | ⟨inner, rfl⟩
  · exact htoken
  · rw [List.singleton_append, content_cons, htoken]
    exact List.append_nil _

theorem content_append (tokens more : List LayoutToken) :
    Layout.content (tokens ++ more) = Layout.content tokens ++ Layout.content more :=
  List.filterMap_append

/-- Openings are not of the source. -/
theorem content_opensPast (offset : Nat) (emitted : List Entry) :
    Layout.content ((emitted.takeWhile (opensPast offset)).reverse.map Entry.token) = [] := by
  unfold Layout.content
  rw [List.filterMap_eq_nil_iff]
  intro found hfound
  obtain ⟨entry, hentry, rfl⟩ := List.mem_map.mp hfound
  have hpast := List.all_eq_true.mp List.all_takeWhile entry (List.mem_reverse.mp hentry)
  unfold opensPast at hpast
  split at hpast
  · simp [LayoutToken.raw?, *]
  · cases hpast

/-- Trivia goes in front of openings only. -/
theorem content_emitTrivia (state : State) (token : Token) :
    (state.emitTrivia token).content = state.content ++ [token] := by
  have hsplit : state.content = Layout.content ((state.emitted.dropWhile
      (opensPast token.span.stop)).reverse.map Entry.token) := by
    have hemitted : state.emitted = state.emitted.takeWhile (opensPast token.span.stop)
        ++ state.emitted.dropWhile (opensPast token.span.stop) :=
      List.takeWhile_append_dropWhile.symm
    unfold content output
    rw [hemitted, List.reverse_append, List.map_append, content_append, ← hemitted,
      content_opensPast, List.append_nil]
  rw [hsplit]
  unfold content output emitTrivia
  rw [List.reverse_append, List.map_append, content_append, content_opensPast, List.append_nil,
    List.reverse_cons, List.map_append, content_append]
  rfl

-- ================================================================ the run

/-- The token that a move is about. -/
def Move.token : Move → Token
  | .trivia token => token
  | .fold token _ _ => token

/-- Comments and blanks are content too, wherever they are put. -/
theorem content_move (state : State) (next : Move) :
    (state.move next).content = state.content ++ [next.token] := by
  cases next with
  | trivia token => exact content_emitTrivia state token
  | fold token next action => exact content_step state token next action

/-- The tokens of the moves are the content, in the order of the moves. -/
theorem content_foldl_move (moves : List Move) : ∀ state : State,
    (moves.foldl move state).content = state.content ++ moves.map Move.token := by
  induction moves with
  | nil => exact fun _ => (List.append_nil _).symm
  | cons next moves ih =>
    intro state
    rw [List.foldl_cons, ih, content_move, List.map_cons, List.append_assoc]
    rfl

/-- The moves of a layout are made of all its tokens. -/
theorem token_movesOf (rules : Rules) (eof : Position) (tokens : List Token) :
    (movesOf rules eof tokens).map Move.token = tokens := by
  induction tokens with
  | nil => rfl
  | cons token rest ih =>
    unfold movesOf
    rw [List.map_cons, ih]
    split <;> rfl

/-- What a pass has emitted holds the tokens that it went over. -/
theorem content_run (rules : Rules) (eof : Position) (tokens : List Token) :
    (initial.run rules eof tokens).content = tokens := by
  rw [run_eq_foldl, content_foldl_move, token_movesOf]
  rfl

end State

/-- What a layout holds of the source is what was laid out. -/
theorem content_tokensOf (rules : Rules) (tokens : List Token) (eof : Position) :
    content (tokensOf rules tokens eof) = tokens :=
  (State.marked_unwind _ eof).content.trans (State.content_run rules eof tokens)

end Layout

end Offside
