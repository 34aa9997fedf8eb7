import Mathlib.Data.Set.Function
import Mathlib.Order.Monotone.Basic
import Offside.Language.Rules
import Offside.Proofs.Layout.Likeness

/-!
Layout depends on relative indentation alone.

Of lines and columns the pass asks two things: which of two columns is further
left, and whether two lines are one. So lines and columns can be moved in any way
that keeps the answers: the layout of the moved tokens is the moved layout. Only
the positions at which significant tokens and the end of the text stand are ever
compared, so the answers need to be kept there only.

The pass and the pass over the moved tokens go side by side (`moving`). Trivia is
placed by offsets, which do not move (`emitTrivia_moved`).
-/

namespace Offside

-- ==================================================================== moves

/-- The position with its line and its column moved. The offset stays. -/
def Position.moved (columns lines : Nat → Nat) (position : Position) : Position :=
  ⟨lines position.line, columns position.column, position.offset⟩

/-- The token with both its ends moved. -/
def Token.moved (columns lines : Nat → Nat) (token : Token) : Token :=
  ⟨token.kind, token.start.moved columns lines, token.stop.moved columns lines⟩

/-- The layout token with its position moved. -/
def LayoutToken.moved (columns lines : Nat → Nat) : LayoutToken → LayoutToken
  | .start position => .start (position.moved columns lines)
  | .sep position => .sep (position.moved columns lines)
  | .stop position => .stop (position.moved columns lines)
  | .raw token => .raw (token.moved columns lines)

theorem LayoutToken.kind_moved (columns lines : Nat → Nat) (token : LayoutToken) :
    (token.moved columns lines).kind = token.kind := by
  cases token <;> rfl

namespace Layout

variable (columns lines : Nat → Nat)

/-- The context, opened at the moved position. -/
def Frame.moved (frame : Frame) : Frame := ⟨frame.delimiter, frame.position.moved columns lines⟩

/-- Every context but the root moved. -/
def Stack.moved (stack : Stack) : Stack := ⟨stack.frames.map (Frame.moved columns lines)⟩

/-- The token and the stack moved. -/
def Entry.moved (entry : Entry) : Entry :=
  ⟨entry.token.moved columns lines, entry.stack.moved columns lines⟩

/-- The positions that the pass reads: where the tokens start, and where the text ends. -/
def places (tokens : List Token) (eof : Position) : List Position := eof :: tokens.map Token.start

variable {columns lines}

/-- Where alike means moved, the stack on the one side is the other one moved. -/
theorem frames_eq_map {Same : Position → Position → Prop} {frames frames' : List Frame}
    (hmoved : ∀ p q, Same p q → q = p.moved columns lines)
    (h : List.Forall₂ (Frame.Alike Same) frames frames') :
    frames' = frames.map (Frame.moved columns lines) := by
  induction h with
  | nil => rfl
  | @cons frame frame' _ _ hframe _ ih =>
    obtain ⟨_, _⟩ := frame'
    obtain ⟨hdelimiter, hposition⟩ := hframe
    dsimp only at hdelimiter hposition
    rw [List.map_cons, ih, ← hdelimiter, hmoved _ _ hposition]
    rfl

/-- Side by side with the pass over moved tokens, where the columns keep their order and
the lines stay apart on the places that are read. -/
def moving (reads : List Position)
    (hcolumns : StrictMonoOn columns {column | ∃ place ∈ reads, place.column = column})
    (hlines : Set.InjOn lines {line | ∃ place ∈ reads, place.line = line}) : Likeness where
  Same p q := p ∈ reads ∧ q = p.moved columns lines
  Tokens token other := token.start ∈ reads ∧ other = token.moved columns lines
  Written emitted other := other = emitted.map (Entry.moved columns lines)
  column_lt := by
    rintro p q _ _ ⟨hp, rfl⟩ ⟨hq, rfl⟩
    exact (hcolumns.lt_iff_lt ⟨p, hp, rfl⟩ ⟨q, hq, rfl⟩).symm
  line_eq := by
    rintro p q _ _ ⟨hp, rfl⟩ ⟨hq, rfl⟩
    exact (hlines.eq_iff ⟨p, hp, rfl⟩ ⟨q, hq, rfl⟩).symm
  start := by
    rintro token _ ⟨hread, rfl⟩
    exact ⟨hread, rfl⟩
  cons := by
    rintro emitted _ ⟨token, ⟨frames⟩⟩ ⟨token', ⟨frames'⟩⟩ rfl htoken hframes
    have hstack : frames' = frames.map (Frame.moved columns lines) :=
      frames_eq_map (fun _ _ h => h.2) hframes
    have hmoved : token' = token.moved columns lines := by
      cases htoken with
      | start h => exact congrArg LayoutToken.start h.2
      | sep h => exact congrArg LayoutToken.sep h.2
      | stop h => exact congrArg LayoutToken.stop h.2
      | raw h => exact congrArg LayoutToken.raw h.2
    rw [hstack, hmoved]
    rfl

-- ===================================================================== trivia

/-- Moving the lines and the columns leaves the offsets, by which a start is told to lie ahead. -/
theorem opensPast_moved (offset : Nat) (entry : Entry) :
    State.opensPast offset (entry.moved columns lines) = State.opensPast offset entry := by
  obtain ⟨token, stack⟩ := entry
  cases token <;> rfl

variable (columns lines) in
/-- Trivia finds its place among moved tokens as among the tokens themselves. -/
theorem emitTrivia_moved (stack : Stack) (emitted : List Entry) (token : Token) :
    State.emitTrivia ⟨stack.moved columns lines, emitted.map (Entry.moved columns lines)⟩
        (token.moved columns lines)
      = ⟨stack.moved columns lines,
        (State.emitTrivia ⟨stack, emitted⟩ token).emitted.map (Entry.moved columns lines)⟩ := by
  have hpast : State.opensPast token.span.stop ∘ Entry.moved columns lines
      = State.opensPast token.span.stop := funext (opensPast_moved _)
  have hspan : (token.moved columns lines).span.stop = token.span.stop := rfl
  unfold State.emitTrivia
  dsimp only
  rw [hspan, List.takeWhile_map, List.dropWhile_map, hpast]
  cases emitted.takeWhile (State.opensPast token.span.stop) with
  | nil => rfl
  | cons later rest =>
    cases emitted.dropWhile (State.opensPast token.span.stop) with
    | nil => simp [Entry.moved, LayoutToken.moved]
    | cons before earlier => simp [Entry.moved, LayoutToken.moved]

-- ==================================================================== the run

variable {reads : List Position}
  {hcolumns : StrictMonoOn columns {column | ∃ place ∈ reads, place.column = column}}
  {hlines : Set.InjOn lines {line | ∃ place ∈ reads, place.line = line}}

/-- The next significant token is the same one, moved. -/
theorem nextStart_moved (tokens : List Token) (eof : Position) :
    nextStart (tokens.map (Token.moved columns lines)) (eof.moved columns lines)
      = (nextStart tokens eof).moved columns lines := by
  induction tokens with
  | nil => rfl
  | cons token rest ih =>
    unfold nextStart at ih ⊢
    have hkind : (token.moved columns lines).isTrivia = token.isTrivia := rfl
    rw [List.map_cons, List.find?_cons, List.find?_cons, hkind]
    cases token.isTrivia with
    | true => exact ih
    | false => rfl

/-- Where the next token starts is one of the places of the text. -/
theorem nextStart_mem (tokens : List Token) (eof : Position) :
    nextStart tokens eof ∈ places tokens eof := by
  unfold nextStart places
  cases hfind : tokens.find? fun token => !token.isTrivia with
  | none => exact List.mem_cons_self
  | some token =>
    exact List.mem_cons_of_mem _ (List.mem_map_of_mem (List.mem_of_find?_eq_some hfind))

/-- The other state is the state moved. -/
theorem eq_moved {state other : State} (h : (moving reads hcolumns hlines).States state other) :
    other = ⟨state.stack.moved columns lines, state.emitted.map (Entry.moved columns lines)⟩ := by
  obtain ⟨⟨frames'⟩, emitted'⟩ := other
  have hstack : frames' = state.stack.frames.map (Frame.moved columns lines) :=
    frames_eq_map (fun _ _ h => h.2) h.stack
  have hemitted : emitted' = state.emitted.map (Entry.moved columns lines) := h.emitted
  rw [hstack, hemitted]
  rfl

/-- The passes over tokens and over the moved tokens keep their states alike. -/
theorem states_run_moved (rules : Rules) (eof : Position) (tokens : List Token) :
    ∀ {state other : State}, (∀ place ∈ places tokens eof, place ∈ reads) →
      (moving reads hcolumns hlines).States state other →
      (moving reads hcolumns hlines).States (state.run rules eof tokens)
        (other.run rules (eof.moved columns lines) (tokens.map (Token.moved columns lines))) := by
  induction tokens with
  | nil => exact fun _ h => h
  | cons token rest ih =>
    intro state other hreads h
    have hrest : ∀ place ∈ places rest eof, place ∈ reads := by
      intro place hmem
      apply hreads
      rcases List.mem_cons.mp hmem with rfl | hmem
      · exact List.mem_cons_self
      · exact List.mem_cons_of_mem _ (List.mem_cons_of_mem _ hmem)
    have hstart : token.start ∈ reads :=
      hreads _ (List.mem_cons_of_mem _ List.mem_cons_self)
    have hkind : (token.moved columns lines).isTrivia = token.isTrivia := rfl
    rw [List.map_cons, State.run, State.run, hkind]
    cases token.isTrivia with
    | true =>
      have hmoved := emitTrivia_moved columns lines state.stack state.emitted token
      rw [← eq_moved h] at hmoved
      exact ih hrest ⟨h.stack, congrArg State.emitted hmoved⟩
    | false =>
      rw [nextStart_moved]
      exact ih hrest (h.step ⟨hstart, rfl⟩ ⟨hrest _ (nextStart_mem rest eof), rfl⟩ _)

/-- Moving the columns without changing their order, and the lines without making two of
them one, moves the layout and changes nothing else: the tokens of the layout are
the same but for their positions, and so is every stack, context by context but
for the root. In particular the same blocks open, separate and close. -/
theorem annotate_moved (rules : Rules) (tokens : List Token) (eof : Position)
    (hcolumns : StrictMonoOn columns {column | ∃ place ∈ places tokens eof, place.column = column})
    (hlines : Set.InjOn lines {line | ∃ place ∈ places tokens eof, place.line = line}) :
    annotate rules (tokens.map (Token.moved columns lines)) (eof.moved columns lines)
        = (annotate rules tokens eof).map (Entry.moved columns lines)
      ∧ tokensOf rules (tokens.map (Token.moved columns lines)) (eof.moved columns lines)
        = (tokensOf rules tokens eof).map (LayoutToken.moved columns lines)
      ∧ (tokensOf rules (tokens.map (Token.moved columns lines)) (eof.moved columns lines)).map
          LayoutToken.kind
        = (tokensOf rules tokens eof).map LayoutToken.kind := by
  have hinitial : (moving (places tokens eof) hcolumns hlines).States .initial .initial :=
    ⟨.nil, rfl⟩
  have heof : (moving (places tokens eof) hcolumns hlines).Same eof (eof.moved columns lines) :=
    ⟨List.mem_cons_self, rfl⟩
  -- both runs start alike, and what they emit is one and the same up to moving
  have hend := ((states_run_moved rules eof tokens (fun _ h => h) hinitial).unwind heof).emitted
  have hentries : annotate rules (tokens.map (Token.moved columns lines)) (eof.moved columns lines)
      = (annotate rules tokens eof).map (Entry.moved columns lines) := by
    unfold annotate State.output
    rw [show (State.unwind _ (eof.moved columns lines)).emitted = _ from hend, List.map_reverse]
  have htokens : tokensOf rules (tokens.map (Token.moved columns lines)) (eof.moved columns lines)
      = (tokensOf rules tokens eof).map (LayoutToken.moved columns lines) := by
    unfold tokensOf
    rw [hentries, List.map_map, List.map_map]
    rfl
  refine ⟨hentries, htokens, ?_⟩
  rw [htokens, List.map_map]
  exact List.map_congr_left fun token _ => token.kind_moved columns lines

/-- The tokens of a `do` with two statements, one below the other. -/
def twoStatements : List Token :=
  [⟨.kwDo, ⟨1, 1, 0⟩, ⟨1, 3, 2⟩⟩, ⟨.newline, ⟨1, 3, 2⟩, ⟨2, 1, 3⟩⟩,
   ⟨.whitespace, ⟨2, 1, 3⟩, ⟨2, 3, 5⟩⟩, ⟨.lower, ⟨2, 3, 5⟩, ⟨2, 4, 6⟩⟩,
   ⟨.newline, ⟨2, 4, 6⟩, ⟨3, 1, 7⟩⟩, ⟨.whitespace, ⟨3, 1, 7⟩, ⟨3, 3, 9⟩⟩,
   ⟨.lower, ⟨3, 3, 9⟩, ⟨3, 4, 10⟩⟩]

/-- With the indentation doubled and the lines counted from the bottom up, a `do` opens
the same block and separates the same statements. -/
theorem annotate_moved_twoStatements :
    annotate Language.layoutRules (twoStatements.map (Token.moved (2 * · - 1) (9 - ·))) ⟨6, 7, 10⟩
        = (annotate Language.layoutRules twoStatements ⟨3, 4, 10⟩).map
          (Entry.moved (2 * · - 1) (9 - ·))
      ∧ ((tokensOf Language.layoutRules twoStatements ⟨3, 4, 10⟩).filter (!·.isTrivia)).map
          LayoutToken.kind
        = [.kwDo, .layoutStart, .lower, .layoutSep, .lower, .layoutEnd] := by
  have hlines : ∀ place ∈ places twoStatements ⟨3, 4, 10⟩, place.line ≤ 9 := by decide
  refine ⟨(annotate_moved Language.layoutRules twoStatements ⟨3, 4, 10⟩ ?_ ?_).1, by decide⟩
  · intro column _ other _ hlt
    dsimp only
    omega
  · rintro _ ⟨place, hplace, rfl⟩ _ ⟨other, hother, rfl⟩ hsame
    have hfirst := hlines place hplace
    have hsecond := hlines other hother
    dsimp only at hsame
    omega

end Layout

end Offside
