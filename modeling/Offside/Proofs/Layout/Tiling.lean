import Offside.Language.Rules
import Offside.Proofs.Layout.Content
import Offside.Proofs.Layout.Likeness
import Offside.Proofs.Layout.Shape
import Offside.Proofs.Token.Reading

/-!
A layout keeps every token in its place.

Virtual tokens have no width, so the layout of a text must tile the text as its
tokens do (`LayoutToken.Tile`). This is a matter of order alone. A start is
emitted with the token in front of it, before the trivia that lies between the
two; the trivia is then put in front of the start.

# The invariant

Between two tokens, the output reaches up to the place of the next one, but for
starts at its end (`State.Reached`). These lie at the place of the next
significant token, past all trivia that is still to come: trivia goes in front of
them, and the significant token finds them in their place. What a step writes in
front of its token has no width, and lies where the token starts.

# Trivia is not looked at

The pass over a text and the pass over its significant tokens go side by side.
They are alike in everything but the trivia in the output (`overTrivia`).
-/

namespace Offside

namespace LayoutToken

/-- Where the token ends; a virtual one ends where it starts. -/
def finish : LayoutToken → Position
  | .start position | .sep position | .stop position => position
  | .raw token => token.stop

theorem span_eq (token : LayoutToken) :
    token.span = ⟨token.position.offset, token.finish.offset⟩ := by
  cases token <;> rfl

/-- The tokens cover the stretch between two positions: the first starts at
`first`, each one starts where the one before it ends, and the last ends at
`last`. -/
def Tile (first : Position) : List LayoutToken → Position → Prop
  | [], last => first = last
  | token :: rest, last => token.position = first ∧ Tile token.finish rest last

/-- A tiling can be cut anywhere. -/
theorem Tile.of_append {before after : List LayoutToken} : ∀ {first last : Position},
    Tile first (before ++ after) last →
      ∃ middle, Tile first before middle ∧ Tile middle after last := by
  induction before with
  | nil => exact fun {first last} h => ⟨first, rfl, h⟩
  | cons token rest ih =>
    intro first last h
    obtain ⟨middle, hbefore, hafter⟩ := ih h.2
    exact ⟨middle, ⟨h.1, hbefore⟩, hafter⟩

/-- Where no token ends before it starts, all of them start at the first place or
behind it. -/
theorem Tile.le_position {tokens : List LayoutToken}
    (hwidth : ∀ token ∈ tokens, token.position.offset ≤ token.finish.offset) :
    ∀ {first last : Position}, Tile first tokens last →
      ∀ token ∈ tokens, first.offset ≤ token.position.offset := by
  induction tokens with
  | nil => exact fun _ => nofun
  | cons token rest ih =>
    intro first last h found hfound
    rw [← h.1]
    rcases List.mem_cons.mp hfound with rfl | hrest
    · exact Nat.le_refl _
    · have hfirst := hwidth token List.mem_cons_self
      have hlater := ih (fun token hmem => hwidth token (List.mem_cons_of_mem _ hmem)) h.2
        found hrest
      exact Nat.le_trans hfirst hlater

end LayoutToken

namespace Layout

-- ==================================================== how far the output reaches

/-- What was emitted, newest first, covers the text up to a place. -/
def Reaches : List Entry → Position → Prop
  | [], place => Position.start = place
  | entry :: earlier, place => entry.token.finish = place ∧ Reaches earlier entry.token.position

/-- The same, read oldest first. -/
theorem Reaches.tile {emitted : List Entry} : ∀ {place : Position}, Reaches emitted place →
    LayoutToken.Tile .start (emitted.reverse.map Entry.token) place := by
  have hgeneral : ∀ (more : List LayoutToken) {place last : Position}, Reaches emitted place →
      LayoutToken.Tile place more last →
      LayoutToken.Tile .start (emitted.reverse.map Entry.token ++ more) last := by
    induction emitted with
    | nil =>
      intro more place last h hmore
      cases h
      exact hmore
    | cons entry earlier ih =>
      intro more place last h hmore
      rw [List.reverse_cons, List.map_append, List.append_assoc]
      exact ih _ h.2 ⟨rfl, h.1 ▸ hmore⟩
  intro place h
  have htile := hgeneral [] h rfl
  rwa [List.append_nil] at htile

namespace State

variable {state : State} {place next : Position} {token : Token} {emitted earlier : List Entry}

/-- A token of no width. -/
theorem Reaches.virtual (h : Reaches emitted place) {mark : LayoutToken}
    (hstart : mark.position = place) (hfinish : mark.finish = place) (stack : Stack) :
    Reaches (⟨mark, stack⟩ :: emitted) place := by
  refine ⟨hfinish, ?_⟩
  rw [hstart]
  exact h

/-- Ends and separators have no width, so what was reached stays so. -/
theorem Marked.reaches (h : Reaches earlier place) (marked : Marked place earlier emitted) :
    Reaches emitted place := by
  induction marked with
  | refl => exact h
  | stop stack _ ih => exact Reaches.virtual ih rfl rfl stack
  | sep stack _ ih => exact Reaches.virtual ih rfl rfl stack

/-- The output reaches up to a place, but for starts at its end that lie where the
next significant token does. -/
def Reached (place next : Position) (state : State) : Prop :=
  ∃ opened earlier, state.emitted = opened ++ earlier
    ∧ (∀ entry ∈ opened, entry.token = .start next) ∧ Reaches earlier place

/-- At the next significant token the starts are in their place. -/
theorem Reached.reaches (h : Reached place place state) : Reaches state.emitted place := by
  obtain ⟨opened, earlier, hemitted, hopened, hreaches⟩ := h
  rw [hemitted]
  clear hemitted
  induction opened with
  | nil => exact hreaches
  | cons entry opened ih =>
    have hrest := ih fun found hfound => hopened found (List.mem_cons_of_mem _ hfound)
    obtain ⟨token, stack⟩ := entry
    obtain rfl : token = .start place := hopened _ List.mem_cons_self
    exact Reaches.virtual hrest rfl rfl stack

/-- Trivia goes in front of the starts that lie past it, and in front of nothing else:
what the output reaches with lies before it. -/
theorem Reached.emitTrivia (h : Reached token.start next state)
    (hwidth : token.start.offset < token.stop.offset) (hnext : token.stop.offset ≤ next.offset) :
    Reached token.stop next (state.emitTrivia token) := by
  obtain ⟨opened, earlier, hemitted, hopened, hreaches⟩ := h
  have hpast : ∀ entry ∈ opened, opensPast token.span.stop entry = true := by
    intro entry hentry
    unfold opensPast
    rw [hopened entry hentry]
    exact decide_eq_true hnext
  -- what was emitted before ends where the trivia starts, so no start there is past it
  have hbefore : ∀ entry ∈ earlier.head?, opensPast token.span.stop entry = false := by
    intro entry hentry
    cases earlier with
    | nil => cases hentry
    | cons newest rest =>
      cases hentry
      unfold opensPast
      split
      case h_2 => rfl
      case h_1 position hstart =>
        have hfinish := hreaches.1
        rw [hstart] at hfinish
        cases hfinish
        exact decide_eq_false (Nat.not_le.mpr hwidth)
  have htake : earlier.takeWhile (opensPast token.span.stop) = [] := by
    cases earlier with
    | nil => rfl
    | cons newest rest => exact List.takeWhile_cons_of_neg (by simp [hbefore newest rfl])
  have hdrop : earlier.dropWhile (opensPast token.span.stop) = earlier := by
    cases earlier with
    | nil => rfl
    | cons newest rest => exact List.dropWhile_cons_of_neg (by simp [hbefore newest rfl])
  unfold State.emitTrivia
  rw [hemitted, List.takeWhile_append_of_pos hpast, List.dropWhile_append_of_pos hpast, htake,
    hdrop, List.append_nil]
  exact ⟨opened, _, rfl, hopened, rfl, hreaches⟩

/-- A step writes what it settles where its token starts, the token, and perhaps a start
at the next token. -/
theorem Reached.step (h : Reached token.start token.start state) (next : Position)
    (action : Action) : Reached token.stop next (state.step token next action) := by
  obtain ⟨settled, stack, opened, hsettled, hemitted, hopened⟩ :=
    emitted_step token next state action
  refine ⟨opened, _, hemitted, ?_, rfl, Marked.reaches h.reaches hsettled⟩
  rcases hopened with rfl | ⟨stack, rfl⟩
  · exact nofun
  · intro entry hentry
    rw [List.mem_singleton.mp hentry]

-- ================================================================ the run

/-- The next significant token lies at the first place or behind it. -/
theorem offset_le_nextStart {tokens : List Token} {eof : Position}
    (hwidth : ∀ token ∈ tokens, token.start.offset < token.stop.offset) :
    ∀ {first : Position}, Token.Tile first tokens eof →
      first.offset ≤ (nextStart tokens eof).offset := by
  induction tokens with
  | nil =>
    intro first htile
    cases htile
    exact Nat.le_refl _
  | cons token rest ih =>
    intro first htile
    obtain ⟨rfl, hrest⟩ := htile
    cases htrivia : token.isTrivia with
    | false => exact Nat.le_of_eq (congrArg _ (nextStart_of_significant htrivia rest eof).symm)
    | true =>
      rw [nextStart_of_trivia htrivia]
      have hlater := ih (fun token hmem => hwidth token (List.mem_cons_of_mem _ hmem)) hrest
      exact Nat.le_trans (Nat.le_of_lt (hwidth token List.mem_cons_self)) hlater

/-- Every significant token goes behind all that was emitted, and comments go where they are
in the text. -/
theorem Reached.run (rules : Rules) {eof : Position} {tokens : List Token}
    (hwidth : ∀ token ∈ tokens, token.start.offset < token.stop.offset) :
    ∀ {first : Position} {state : State}, Token.Tile first tokens eof →
      Reached first (nextStart tokens eof) state →
      Reached eof eof (state.run rules eof tokens) := by
  induction tokens with
  | nil =>
    intro first state htile h
    cases htile
    exact h
  | cons token rest ih =>
    intro first state htile h
    obtain ⟨rfl, hrest⟩ := htile
    have hlater : ∀ token ∈ rest, token.start.offset < token.stop.offset :=
      fun token hmem => hwidth token (List.mem_cons_of_mem _ hmem)
    unfold State.run
    cases htrivia : token.isTrivia with
    | true =>
      rw [nextStart_of_trivia htrivia] at h
      exact ih hlater hrest
        (h.emitTrivia (hwidth token List.mem_cons_self) (offset_le_nextStart hlater hrest))
    | false =>
      rw [nextStart_of_significant htrivia] at h
      exact ih hlater hrest (h.step _ _)

end State

/-- The layout of tokens that cover a text covers it too. -/
theorem tile_tokensOf (rules : Rules) {tokens : List Token} {eof : Position}
    (htile : Token.Tile .start tokens eof)
    (hwidth : ∀ token ∈ tokens, token.start.offset < token.stop.offset) :
    LayoutToken.Tile .start (tokensOf rules tokens eof) eof := by
  have hinitial : State.Reached .start (nextStart tokens eof) State.initial :=
    ⟨[], [], rfl, nofun, rfl⟩
  have hrun := (hinitial.run rules hwidth htile).reaches
  exact Reaches.tile (State.Marked.reaches hrun (State.marked_unwind _ eof))

-- ====================================================== trivia left out

/-- Side by side with a pass over the significant tokens alone: the outputs differ in
the trivia. -/
def overTrivia : Likeness where
  Same p q := p = q
  Tokens token other := token = other ∧ token.isTrivia = false
  Written emitted other := other = emitted.filter (!·.token.isTrivia)
  column_lt := by
    rintro p q _ _ rfl rfl
    rfl
  line_eq := by
    rintro p q _ _ rfl rfl
    rfl
  start := by
    rintro token _ ⟨rfl, _⟩
    rfl
  cons := by
    rintro emitted _ ⟨token, ⟨frames⟩⟩ ⟨token', ⟨frames'⟩⟩ rfl htoken hframes
    have hstack : frames = frames' := by
      clear htoken
      dsimp only at hframes
      induction hframes with
      | nil => rfl
      | @cons frame frame' _ _ hframe _ ih =>
        obtain ⟨delimiter, position⟩ := frame
        obtain ⟨_, _⟩ := frame'
        obtain ⟨rfl, rfl⟩ := hframe
        rw [ih]
    have hsignificant : token = token' ∧ token.isTrivia = false := by
      cases htoken with
      | start h => exact ⟨congrArg _ h, rfl⟩
      | sep h => exact ⟨congrArg _ h, rfl⟩
      | stop h => exact ⟨congrArg _ h, rfl⟩
      | raw h => exact ⟨congrArg _ h.1, h.2⟩
    obtain ⟨rfl, hkind⟩ := hsignificant
    rw [hstack, List.filter_cons_of_pos (by simpa using hkind)]

/-- Trivia changes the output only, and there only the trivia. -/
theorem states_run_filter (rules : Rules) (eof : Position) (tokens : List Token) :
    ∀ {state other : State}, overTrivia.States state other →
      overTrivia.States (state.run rules eof tokens)
        (other.run rules eof (tokens.filter (!·.isTrivia))) := by
  induction tokens with
  | nil => exact fun h => h
  | cons token rest ih =>
    intro state other h
    cases htrivia : token.isTrivia with
    | true =>
      rw [List.filter_cons_of_neg (by rw [htrivia]; exact Bool.false_ne_true), State.run,
        if_pos htrivia]
      refine ih ⟨h.stack, ?_⟩
      have hraw : (LayoutToken.raw token).isTrivia = true := htrivia
      show other.emitted = _
      rw [show other.emitted = _ from h.emitted, State.emitTrivia, List.filter_append,
        List.filter_cons_of_neg (by simp [hraw]), ← List.filter_append,
        List.takeWhile_append_dropWhile]
    | false =>
      have hnext : nextStart (rest.filter (!·.isTrivia)) eof = nextStart rest eof := by
        unfold nextStart
        rw [List.find?_filter]
        simp
      rw [List.filter_cons_of_pos (by rw [htrivia]; rfl), State.run, State.run,
        if_neg (by rw [htrivia]; exact Bool.false_ne_true),
        if_neg (by rw [htrivia]; exact Bool.false_ne_true), hnext]
      exact ih (h.step ⟨rfl, htrivia⟩ rfl _)

/-- Laying out the significant tokens alone leaves out the trivia of the layout. -/
theorem annotate_filter (rules : Rules) (tokens : List Token) (eof : Position) :
    annotate rules (tokens.filter (!·.isTrivia)) eof
      = (annotate rules tokens eof).filter (!·.token.isTrivia) := by
  have hinitial : overTrivia.States State.initial State.initial := ⟨.nil, rfl⟩
  have hend := ((states_run_filter rules eof tokens hinitial).unwind
    (show overTrivia.Same eof eof from rfl)).emitted
  unfold annotate State.output
  rw [show (State.unwind _ eof).emitted = _ from hend, List.filter_reverse]

-- ============================================================ the layout

/-- No token of a layout ends in front of its start. -/
theorem position_le_finish (rules : Rules) {tokens : List Token} (eof : Position)
    (hwidth : ∀ token ∈ tokens, token.start.offset < token.stop.offset) :
    ∀ token ∈ tokensOf rules tokens eof, token.position.offset ≤ token.finish.offset := by
  intro token hmem
  cases token with
  | start | sep | stop => exact Nat.le_refl _
  | raw token =>
    have hcontent : token ∈ content (tokensOf rules tokens eof) :=
      List.mem_filterMap.mpr ⟨_, hmem, rfl⟩
    rw [content_tokensOf] at hcontent
    exact Nat.le_of_lt (hwidth token hcontent)

/-- The layout of a text covers the text. -/
theorem tile_layout (rules : Rules) (source : String) :
    LayoutToken.Tile .start (tokensOf rules (Reading.ofSource source).tokens
      (Reading.ofSource source).eof) (Reading.ofSource source).eof := by
  obtain ⟨hcovers, heof⟩ := Reading.ofSource_covers source
  refine tile_tokensOf rules ?_ (Reading.offset_lt_ofSource source)
  rw [heof, ← Position.after_zero source.toList]
  exact hcovers.tile

/-- The layout of a text loses, doubles and moves nothing. Its tokens of the source are
the tokens of the text in their order, and trivia plays no part: laid out without
it, the tokens come out as they do with it, each under the same stack. The layout
covers the text from its start to its end, each token starting where the one in
front of it ends, and virtual tokens have no width. So whatever stands behind a
virtual token starts at its place or further on: a blank or a comment that the
text has in front of this place stands in front of the virtual token. -/
theorem layout_faithful :
    (∀ (rules : Rules) (tokens : List Token) (eof : Position),
      content (tokensOf rules tokens eof) = tokens
        ∧ annotate rules (tokens.filter (!·.isTrivia)) eof
          = (annotate rules tokens eof).filter (!·.token.isTrivia))
      ∧ ∀ (rules : Rules) (source : String),
        let reading := Reading.ofSource source
        let layout := tokensOf rules reading.tokens reading.eof
        LayoutToken.Tile .start layout reading.eof
          ∧ reading.eof.offset = source.utf8ByteSize
          ∧ (∀ token ∈ layout, token.span = ⟨token.position.offset, token.finish.offset⟩)
          ∧ ∀ before mark after, layout = before ++ mark :: after → mark.isVirtual = true →
            mark.finish = mark.position
              ∧ ∀ token ∈ after, mark.position.offset ≤ token.position.offset := by
  refine ⟨fun rules tokens eof => ⟨content_tokensOf rules tokens eof,
    annotate_filter rules tokens eof⟩, fun rules source => ?_⟩
  intro reading layout
  have htile : LayoutToken.Tile .start layout reading.eof := tile_layout rules source
  have hwidth := position_le_finish rules reading.eof (Reading.offset_lt_ofSource source)
  refine ⟨htile, ?_, fun token _ => token.span_eq, fun before mark after hsplit hmark => ?_⟩
  · show (Reading.ofSource source).eof.offset = _
    rw [(Reading.ofSource_covers source).2, Position.offset_after_length, Text.byteLength,
      String.ofList_toList]
  · rw [hsplit] at htile
    obtain ⟨middle, -, -, hafter⟩ := htile.of_append
    -- a virtual token has no width, so what comes behind it is in no place before it
    have hfinish : mark.finish = mark.position := by
      cases mark with
      | start | sep | stop => rfl
      | raw token => cases hmark
    refine ⟨hfinish, fun token hmem => ?_⟩
    rw [← hfinish]
    refine hafter.le_position (fun token hmem => ?_) token hmem
    refine hwidth token ?_
    show token ∈ layout
    rw [hsplit]
    exact List.mem_append_right _ (List.mem_cons_of_mem _ hmem)

/-- The block of a `do` opens behind the blanks in front of its first statement. -/
theorem layout_faithful_doBlock :
    let reading := Reading.ofSource "do\n  a"
    let layout := tokensOf Language.layoutRules reading.tokens reading.eof
    layout.map LayoutToken.kind
        = [.kwDo, .newline, .whitespace, .layoutStart, .lower, .layoutEnd]
      ∧ content layout = reading.tokens
      ∧ LayoutToken.Tile .start layout reading.eof := by
  intro reading layout
  obtain ⟨hrules, htexts⟩ := layout_faithful
  exact ⟨by decide +kernel, (hrules _ _ _).1, (htexts Language.layoutRules "do\n  a").1⟩

end Layout

end Offside
