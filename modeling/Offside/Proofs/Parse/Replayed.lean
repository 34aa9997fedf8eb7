import Offside.Parse.Replay
import Offside.Proofs.Parse.Log

/-!
Replaying a log builds its pieces.

`Builder.addPieces` builds pieces by recursion: a node opens, takes what its
pieces build, and closes. `Log.replays` says that the replay of a log, wherever
it stands in the whole, does exactly that.

# Openings out of order

The replay opens a wrapped node and all its wrappers at once, where the wrapped
node opens, and blanks the openings of the wrappers, which stand further down.
`Walks` is what it does at the opening of a chain: it follows the notes to the
opening that is the outermost so far and collects the kinds on the way. The
statement is for any wrapper that this last opening may note in its turn, which
lets the induction on the chain add one wrapper at a time.
-/

namespace Offside

variable (input : Input)

mutual

/-- Builds a piece in the innermost open node. -/
def Builder.addPiece (builder : Builder) : Piece → Builder
  | .token place => builder.placeToken input place
  | .report diagnostic => { builder with diagnostics := diagnostic :: builder.diagnostics }
  | .node kind pieces => (Builder.addPieces (builder.openNode input kind) pieces).closeNode input

/-- Builds pieces in order. -/
def Builder.addPieces (builder : Builder) : List Piece → Builder
  | [] => builder
  | piece :: rest => Builder.addPieces (Builder.addPiece builder piece) rest

end

theorem Builder.addPieces_append (pieces others : List Piece) : ∀ builder : Builder,
    builder.addPieces input (pieces ++ others)
      = (builder.addPieces input pieces).addPieces input others := by
  induction pieces with
  | nil => exact fun _ => rfl
  | cons piece rest ih => exact fun builder => ih (builder.addPiece input piece)

namespace Event

-- ============================================== stretches of a log

/-- The replay of the events from one index on. -/
def replayFrom (first count : Nat) (state : Array Event × Builder) : Array Event × Builder :=
  (List.range' first count).foldl (replayAt input) state

theorem replayFrom_add (first count more : Nat) (state : Array Event × Builder) :
    replayFrom input first (count + more) state
      = replayFrom input (first + count) more (replayFrom input first count state) := by
  unfold replayFrom
  rw [← List.range'_append_1, List.foldl_append]

theorem replayFrom_one (index : Nat) (state : Array Event × Builder) :
    replayFrom input index 1 state = replayAt input state index := rfl

/-- Wherever the log stands, replaying it acts on the builder as `act` does, and
changes nothing outside it. -/
def Replays (log : List Event) (act : Builder → Builder) : Prop :=
  ∀ (front back : List Event) (builder : Builder), ∃ replayed : List Event,
    replayed.length = log.length
      ∧ replayFrom input front.length log.length ((front ++ (log ++ back)).toArray, builder)
        = ((front ++ (replayed ++ back)).toArray, act builder)

theorem getElem?_middle (front back : List Event) (event : Event) :
    (front ++ event :: back).toArray[front.length]? = some event := by
  rw [List.getElem?_toArray, List.getElem?_append_right (Nat.le_refl _), Nat.sub_self]
  rfl

variable {input}

theorem Replays.nil : Replays input [] id :=
  fun _ _ _ => ⟨[], rfl, rfl⟩

/-- A log is replayed part by part, if each part can stand anywhere. -/
theorem Replays.append {log more : List Event} {act next : Builder → Builder}
    (earlier : Replays input log act) (later : Replays input more next) :
    Replays input (log ++ more) (next ∘ act) := by
  intro front back builder
  obtain ⟨replayed, hlength, hreplay⟩ := earlier front (more ++ back) builder
  obtain ⟨others, hothers, hmore⟩ := later (front ++ replayed) back (act builder)
  refine ⟨replayed ++ others, by rw [List.length_append, List.length_append, hlength, hothers], ?_⟩
  rw [List.length_append, replayFrom_add, List.append_assoc, hreplay]
  rw [List.length_append, hlength, List.append_assoc] at hmore
  rw [hmore, List.append_assoc, List.append_assoc]
  rfl

/-- One event that only acts on the builder. -/
theorem Replays.single {event : Event} {act : Builder → Builder}
    (h : ∀ (front back : List Event) (builder : Builder),
      replayAt input ((front ++ event :: back).toArray, builder) front.length
        = ((front ++ event :: back).toArray, act builder)) :
    Replays input [event] act :=
  fun front back builder => ⟨[event], rfl, h front back builder⟩

theorem replays_token (place : Nat) :
    Replays input [.token place] (·.placeToken input place) := by
  refine .single fun front back builder => ?_
  unfold replayAt
  dsimp only
  rw [getElem?_middle]

theorem replays_finish : Replays input [.finish] (·.closeNode input) := by
  refine .single fun front back builder => ?_
  unfold replayAt
  dsimp only
  rw [getElem?_middle]

theorem replays_report (diagnostic : Diagnostic) : Replays input [.report diagnostic]
    fun builder => { builder with diagnostics := diagnostic :: builder.diagnostics } := by
  refine .single fun front back builder => ?_
  unfold replayAt
  dsimp only
  rw [getElem?_middle]

theorem replays_blank : Replays input [.blank] id := by
  refine .single fun front back builder => ?_
  unfold replayAt
  dsimp only
  rw [getElem?_middle]
  rfl

-- ============================================================ nodes

theorem wrappers_none (events : Array Event) (index : Nat) (kinds : List NodeKind) (limit : Nat) :
    wrappers events index kinds limit none = (kinds, events) := by
  cases limit <;> rfl

/-- Following one note: the opening that it leads to gives its kind and its own note,
and is blanked. -/
theorem wrappers_some (front back : List Event) (index : Nat) (kinds : List NodeKind)
    (limit : Nat) {distance : Nat} (hdistance : index + distance = front.length)
    (kind : NodeKind) (wrapper : Option Nat) :
    wrappers (front ++ .start (some kind) wrapper :: back).toArray index kinds (limit + 1)
        (some distance)
      = wrappers (front ++ .blank :: back).toArray front.length (kind :: kinds) limit wrapper := by
  conv => lhs; unfold wrappers
  dsimp only
  rw [hdistance, getElem?_middle, List.setIfInBounds_toArray, List.set_append_right _ _
    (Nat.le_refl _), Nat.sub_self]
  rfl

/-- Opens nodes, the outermost first. -/
def openAll (input : Input) (kinds : List NodeKind) (builder : Builder) : Builder :=
  kinds.foldl (fun builder kind => builder.openNode input kind) builder

/-- What the replay does at the opening of a chain, whose outermost opening so far
notes `wrapper`: in `links` steps it collects `kinds` on the way there, and leaves
`opened` in place of all openings on the way. What stands behind then builds the
piece. -/
structure Walks (input : Input) (front : List Event) (kind : NodeKind) (back : List Event)
    (piece : Piece) (wrapper : Option Nat) (kinds : List NodeKind) (links : Nat)
    (opened : List Event) : Prop where
  links_le : links ≤ front.length
  length_opened : opened.length = front.length + 1
  first : ∃ inner note tail,
    front ++ [Event.start (some kind) wrapper] = .start (some inner) note :: tail
      ∧ ∀ (before after : List Event) (limit : Nat),
        wrappers (before ++ (front ++ .start (some kind) wrapper :: (back ++ after))).toArray
            before.length [inner] (links + limit) note
          = wrappers (before ++ (opened ++ (back ++ after))).toArray
            (before.length + front.length) kinds limit wrapper
  rest : ∀ (before after : List Event) (builder : Builder), ∃ replayed : List Event,
    replayed.length = (opened ++ back).length
      ∧ replayFrom input (before.length + 1) (front.length + back.length)
          ((before ++ (opened ++ (back ++ after))).toArray, openAll input kinds builder)
        = ((before ++ (replayed ++ after)).toArray, builder.addPiece input piece)

/-- A node that is wrapped in nothing yet. -/
theorem Walks.node {log : List Event} {pieces : List Piece}
    (body : Replays input log (·.addPieces input pieces)) (kind : NodeKind)
    (wrapper : Option Nat) :
    Walks input [] kind (log ++ [.finish]) (.node kind pieces) wrapper [kind] 0
      [.start (some kind) wrapper] := by
  refine ⟨Nat.le_refl _, rfl, ⟨kind, wrapper, [], rfl, fun before after limit => ?_⟩, ?_⟩
  · rw [Nat.zero_add]
    rfl
  · intro before after builder
    have hreplays := body.append replays_finish
    obtain ⟨replayed, hlength, hreplay⟩ := hreplays (before ++ [.start (some kind) wrapper]) after
      (builder.openNode input kind)
    refine ⟨.start (some kind) wrapper :: replayed, by simp [hlength], ?_⟩
    rw [List.length_append] at hreplay
    rw [List.length_nil, Nat.zero_add]
    simp only [List.append_assoc, List.cons_append, List.nil_append] at hreplay ⊢
    exact hreplay

/-- A node that is wrapped once more, with everything up to the wrapper. -/
theorem Walks.wrap {front back log opened : List Event} {inner : NodeKind} {piece : Piece}
    {pieces : List Piece} {kinds : List NodeKind} {links : Nat}
    (walks : Walks input front inner back piece (some (back.length + log.length + 1)) kinds links
      opened)
    (body : Replays input log (·.addPieces input pieces)) (kind : NodeKind)
    (wrapper : Option Nat) :
    Walks input (front ++ .start (some inner) (some (back.length + log.length + 1))
        :: (back ++ log)) kind [.finish] (.node kind (piece :: pieces)) wrapper (kind :: kinds)
      (links + 1) (opened ++ (back ++ (log ++ [.blank]))) := by
  obtain ⟨first, note, tail, hfirst, hwalk⟩ := walks.first
  have hlinks := walks.links_le
  have hopened := walks.length_opened
  refine ⟨?_, ?_, ⟨first, note, tail ++ (back ++ log) ++ [.start (some kind) wrapper], ?_, ?_⟩, ?_⟩
  · simp only [List.length_append, List.length_cons]
    omega
  · simp only [List.length_append, List.length_cons, List.length_nil]
    omega
  · have hsplit := congrArg (· ++ ((back ++ log) ++ [Event.start (some kind) wrapper])) hfirst
    simpa using hsplit
  · -- from the opening of the node the notes lead to the last wrapper so far, and its note to the
    -- new one
    intro before after limit
    have hsteps :=
      hwalk before (log ++ .start (some kind) wrapper :: (.finish :: after)) (limit + 1)
    have hdistance : before.length + front.length + (back.length + log.length + 1)
        = (before ++ (opened ++ (back ++ log))).length := by
      simp only [List.length_append, hopened]
      omega
    have hlast := wrappers_some (before ++ (opened ++ (back ++ log))) (.finish :: after)
      (before.length + front.length) kinds limit hdistance kind wrapper
    have hfront : (before ++ (opened ++ (back ++ log))).length
        = before.length + (front ++ .start (some inner) (some (back.length + log.length + 1))
          :: (back ++ log)).length := by
      simp only [List.length_append, List.length_cons, hopened]
      omega
    rw [hfront] at hlast
    simp only [List.append_assoc, List.cons_append, List.nil_append] at hsteps hlast ⊢
    rw [show links + 1 + limit = links + (limit + 1) by omega, hsteps, hlast]
  · -- behind the openings come the piece, what was logged up to the wrapper, and the end of the
    -- new node
    intro before after builder
    obtain ⟨replayed, hlength, hreplay⟩ := walks.rest before (log ++ .blank :: .finish :: after)
      (builder.openNode input kind)
    have hclose := (body.append replays_blank).append replays_finish
    obtain ⟨others, hothers, hmore⟩ := hclose (before ++ replayed) after
      ((builder.openNode input kind).addPiece input piece)
    refine ⟨replayed ++ others, ?_, ?_⟩
    · simp only [List.length_append, List.length_cons, List.length_nil, hlength] at hothers ⊢
      omega
    · have hcount : (front ++ .start (some inner) (some (back.length + log.length + 1))
            :: (back ++ log)).length + [Event.finish].length
          = front.length + back.length + (log ++ [Event.blank] ++ [Event.finish]).length := by
        simp only [List.length_append, List.length_cons, List.length_nil]
        omega
      have hindex : before.length + 1 + (front.length + back.length)
          = (before ++ replayed).length := by
        simp only [List.length_append, hlength, hopened]
        omega
      rw [hcount, replayFrom_add]
      simp only [List.append_assoc, List.cons_append, List.nil_append] at hreplay hmore ⊢
      rw [show openAll input (kind :: kinds) builder
          = openAll input kinds (builder.openNode input kind) from rfl, hreplay, hindex]
      exact hmore

/-- The log of a node that nothing wraps replays to its piece. -/
theorem Walks.replays {front back opened : List Event} {kind : NodeKind} {piece : Piece}
    {kinds : List NodeKind} {links : Nat}
    (walks : Walks input front kind back piece none kinds links opened) :
    Replays input (front ++ .start (some kind) none :: back) (·.addPiece input piece) := by
  intro before after builder
  obtain ⟨inner, note, tail, hfirst, hwalk⟩ := walks.first
  obtain ⟨replayed, hlength, hreplay⟩ := walks.rest before after builder
  have hlinks := walks.links_le
  have hopened := walks.length_opened
  have hevents : before ++ (front ++ .start (some kind) none :: (back ++ after))
      = before ++ .start (some inner) note :: (tail ++ (back ++ after)) := by
    have hsplit := congrArg (· ++ (back ++ after)) hfirst
    simp only [List.append_assoc, List.cons_append, List.nil_append] at hsplit
    rw [hsplit]
  have hsize : ∃ limit, (before ++ (front ++ .start (some kind) none :: (back ++ after))).length
      = links + limit := by
    refine Nat.exists_eq_add_of_le ?_
    simp only [List.length_append, List.length_cons]
    omega
  obtain ⟨limit, hlimit⟩ := hsize
  refine ⟨replayed, by simp [hlength, hopened]; omega, ?_⟩
  have hstart : replayAt input ((before ++ (front ++ .start (some kind) none
        :: (back ++ after))).toArray, builder) before.length
      = ((before ++ (opened ++ (back ++ after))).toArray, openAll input kinds builder) := by
    unfold replayAt
    dsimp only
    rw [hevents, getElem?_middle]
    dsimp only
    rw [← hevents, List.size_toArray, hlimit, hwalk, wrappers_none]
    rfl
  rw [show (front ++ .start (some kind) none :: back).length = 1 + (front.length + back.length) by
    simp only [List.length_append, List.length_cons]; omega, replayFrom_add, replayFrom_one]
  simp only [List.append_assoc, List.cons_append] at hreplay ⊢
  rw [hstart]
  exact hreplay

end Event

-- ============================================================== logs

open Event

variable {input : Input} {recovers : Bool}

/-- A log of pieces, behind a log of pieces. -/
theorem Replays.append_pieces {log more : List Event} {pieces others : List Piece}
    (earlier : Replays input log (·.addPieces input pieces))
    (later : Replays input more (·.addPieces input others)) :
    Replays input (log ++ more) (·.addPieces input (pieces ++ others)) := by
  have hboth := earlier.append later
  have hact : (fun builder : Builder => builder.addPieces input (pieces ++ others))
      = (·.addPieces input others) ∘ (·.addPieces input pieces) :=
    funext fun builder => builder.addPieces_append input pieces others
  rw [hact]
  exact hboth

theorem replays_tokenEvents (first last : Nat) :
    Replays input (tokenEvents first last) (·.addPieces input (tokenPieces first last)) := by
  unfold tokenEvents tokenPieces
  induction List.range' first (last - first) with
  | nil => exact .nil
  | cons place rest ih => exact (replays_token place).append ih

/-- An error node around tokens. -/
theorem replays_error (first last : Nat) :
    Replays input (.start (some .error) none :: tokenEvents first last ++ [.finish])
      (·.addPiece input (.node .error (tokenPieces first last))) :=
  (Walks.node (replays_tokenEvents first last) .error none).replays

/-- An error node around skipped tokens, with the report on them. -/
theorem replays_skipped (first last : Nat) (message : String) :
    Replays input
      (.start (some .error) none :: tokenEvents first last
        ++ [.finish, .report (skippedReport input first last message)])
      (·.addPieces input [.node .error (tokenPieces first last),
        .report (skippedReport input first last message)]) := by
  have hnode : Replays input (.start (some .error) none :: tokenEvents first last ++ [.finish])
      (·.addPiece input (.node .error (tokenPieces first last))) := replays_error first last
  have hboth := hnode.append (replays_report (skippedReport input first last message))
  rw [List.append_assoc] at hboth
  exact hboth

mutual

/-- Replaying a log, wherever it stands, builds its pieces. -/
theorem Log.replays {first last : Nat} {log : List Event} {pieces : List Piece} :
    Log input recovers first last log pieces →
      Replays input log (·.addPieces input pieces)
  | .nil _ => .nil
  | .append earlier later => Replays.append_pieces earlier.replays later.replays
  | .blank _ => replays_blank
  | .token _ => replays_token _
  | .report _ _ => replays_report _
  | .skipped message _ _ _ => replays_skipped _ _ message
  | .node chain => by
    obtain ⟨kinds, links, opened, walks⟩ := chain.walks none
    exact walks.replays

/-- The replay finds its way through a chain. -/
theorem Chain.walks {first last : Nat} {front back : List Event} {kind : NodeKind}
    {piece : Piece} : Chain input recovers first last front kind back piece →
      ∀ wrapper : Option Nat, ∃ kinds links opened,
        Walks input front kind back piece wrapper kinds links opened
  | .node kind body => fun wrapper => ⟨_, _, _, Walks.node body.replays kind wrapper⟩
  | .wrap kind chain body => fun wrapper => by
    obtain ⟨kinds, links, opened, walks⟩ := chain.walks _
    exact ⟨_, _, _, walks.wrap body.replays kind wrapper⟩

end

end Offside
