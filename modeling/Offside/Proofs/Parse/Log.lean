import Offside.Parse.Event
import Offside.Grammar.Input

/-!
What a run can append to the log.

`Log` is the language of the logs that a run leaves behind: tokens in a row,
nodes that open and close, openings that were given up, and what recovery
reports. Beside each log stand the pieces that it adds to the tree, in order.

# Nodes that wrap

A node that is wrapped after the fact stands further up the log than its
wrapper: its opening notes how far down the wrapper opens. `Chain` follows
these notes. It splits the log of a node at the opening that is the outermost
so far, the one with no wrapper yet, into what comes before and what comes
behind; wrapping the node once more notes the distance there, and appends what
the wrapper adds with an opening of its own.
-/

namespace Offside

/-- What a log adds to the tree. -/
inductive Piece
  | token (place : Nat)
  | report (diagnostic : Diagnostic)
  | node (kind : NodeKind) (pieces : List Piece)

/-- What recovery reports at a place without consuming a token: that something is
missing there, or that there is nothing to skip. -/
inductive ReportsAt (input : Input) (place : Nat) : Diagnostic → Prop
  | missing (message : String) (expected : List String) :
      ReportsAt input place (.missing (Span.point (input.spanAt place).start) message expected)
  | skipped (message : String) :
      ReportsAt input place (.skipped (Span.point (input.spanAt place).start) message)

/-- The tokens of the places from one up to another, as events. -/
def tokenEvents (first last : Nat) : List Event :=
  (List.range' first (last - first)).map Event.token

/-- The tokens of the places from one up to another, as pieces. -/
def tokenPieces (first last : Nat) : List Piece :=
  (List.range' first (last - first)).map Piece.token

/-- The report on a stretch of tokens that was skipped. -/
def skippedReport (input : Input) (first last : Nat) (message : String) : Diagnostic :=
  .skipped ((input.cover? first last).getD (Span.point (input.spanAt last).start)) message

mutual

/-- A log from one place to another, with the pieces that it adds to the tree.
Only where the run recovers are there reports and skipped tokens. -/
inductive Log (input : Input) (recovers : Bool) :
    (first last : Nat) → List Event → List Piece → Prop
  | nil (place : Nat) : Log input recovers place place [] []
  | append {first place last : Nat} {log more : List Event} {pieces others : List Piece}
      (earlier : Log input recovers first place log pieces)
      (later : Log input recovers place last more others) :
      Log input recovers first last (log ++ more) (pieces ++ others)
  /-- An opening that was given up. -/
  | blank (place : Nat) : Log input recovers place place [.blank] []
  | token {place : Nat} (inside : place < input.size) :
      Log input recovers place (place + 1) [.token place] [.token place]
  | report {place : Nat} {diagnostic : Diagnostic} (hrecovers : recovers = true)
      (reports : ReportsAt input place diagnostic) :
      Log input recovers place place [.report diagnostic] [.report diagnostic]
  /-- Tokens that were skipped, with the report on them; none only if the current
  token has the kind of the end. -/
  | skipped {first last : Nat} (message : String) (hrecovers : recovers = true)
      (onward : first ≤ last) (inside : last ≤ input.size) :
      Log input recovers first last
        (.start (some .error) none :: tokenEvents first last
          ++ [.finish, .report (skippedReport input first last message)])
        [.node .error (tokenPieces first last),
          .report (skippedReport input first last message)]
  | node {first last : Nat} {front back : List Event} {kind : NodeKind} {piece : Piece}
      (chain : Chain input recovers first last front kind back piece) :
      Log input recovers first last (front ++ .start (some kind) none :: back) [piece]

/-- The log of a node, split at the opening of its outermost wrapper so far. -/
inductive Chain (input : Input) (recovers : Bool) :
    (first last : Nat) → (front : List Event) → NodeKind → (back : List Event) → Piece → Prop
  | node {first last : Nat} {log : List Event} {pieces : List Piece} (kind : NodeKind)
      (body : Log input recovers first last log pieces) :
      Chain input recovers first last [] kind (log ++ [.finish]) (.node kind pieces)
  | wrap {first place last : Nat} {front back log : List Event} {inner : NodeKind}
      {piece : Piece} {pieces : List Piece} (kind : NodeKind)
      (chain : Chain input recovers first place front inner back piece)
      (body : Log input recovers place last log pieces) :
      Chain input recovers first last
        (front ++ .start (some inner) (some (back.length + log.length + 1)) :: (back ++ log))
        kind [.finish] (.node kind (piece :: pieces))

end

variable {input : Input} {recovers : Bool}

mutual

/-- A log moves on, or stays where it is. -/
theorem Log.place_le {first last : Nat} {log : List Event} {pieces : List Piece} :
    Log input recovers first last log pieces → first ≤ last
  | .nil _ | .blank _ | .report _ _ => Nat.le_refl _
  | .append earlier later => Nat.le_trans earlier.place_le later.place_le
  | .token _ => Nat.le_succ _
  | .skipped _ _ onward _ => onward
  | .node chain => chain.place_le

/-- The pieces of a chain are between its places. -/
theorem Chain.place_le {first last : Nat} {front back : List Event} {kind : NodeKind}
    {piece : Piece} : Chain input recovers first last front kind back piece → first ≤ last
  | .node _ body => body.place_le
  | .wrap _ chain body => Nat.le_trans chain.place_le body.place_le

end

mutual

/-- A log stays inside the input. -/
theorem Log.last_le {first last : Nat} {log : List Event} {pieces : List Piece} :
    Log input recovers first last log pieces → first ≤ input.size → last ≤ input.size
  | .nil _, hfirst | .blank _, hfirst | .report _ _, hfirst => hfirst
  | .append earlier later, hfirst => later.last_le (earlier.last_le hfirst)
  | .token inside, _ => inside
  | .skipped _ _ _ inside, _ => inside
  | .node chain, hfirst => chain.last_le hfirst

theorem Chain.last_le {first last : Nat} {front back : List Event} {kind : NodeKind}
    {piece : Piece} : Chain input recovers first last front kind back piece →
      first ≤ input.size → last ≤ input.size
  | .node _ body, hfirst => body.last_le hfirst
  | .wrap _ chain body, hfirst => body.last_le (chain.last_le hfirst)

end

mutual

/-- Where no token is left, a log does not move on. -/
theorem Log.last_eq {first last : Nat} {log : List Event} {pieces : List Piece} :
    Log input recovers first last log pieces → input.size ≤ first → last = first
  | .nil _, _ | .blank _, _ | .report _ _, _ => rfl
  | .append earlier later, hfirst => by
    obtain rfl := earlier.last_eq hfirst
    exact later.last_eq hfirst
  | .token inside, hfirst => by omega
  | .skipped _ _ onward inside, hfirst => by omega
  | .node chain, hfirst => chain.last_eq hfirst

/-- Without a token a chain ends where it started. -/
theorem Chain.last_eq {first last : Nat} {front back : List Event} {kind : NodeKind}
    {piece : Piece} : Chain input recovers first last front kind back piece →
      input.size ≤ first → last = first
  | .node _ body, hfirst => body.last_eq hfirst
  | .wrap _ chain body, hfirst => by
    obtain rfl := chain.last_eq hfirst
    exact body.last_eq hfirst

end

mutual

/-- What a run that does not recover logs, a run that recovers may log too. -/
theorem Log.speculative {first last : Nat} {log : List Event} {pieces : List Piece} :
    Log input false first last log pieces → Log input recovers first last log pieces
  | .nil place => .nil place
  | .append earlier later => .append earlier.speculative later.speculative
  | .blank place => .blank place
  | .token inside => .token inside
  | .node chain => .node chain.speculative

/-- What may not report may be followed by what may. -/
theorem Chain.speculative {first last : Nat} {front back : List Event} {kind : NodeKind}
    {piece : Piece} : Chain input false first last front kind back piece →
      Chain input recovers first last front kind back piece
  | .node kind body => .node kind body.speculative
  | .wrap kind chain body => .wrap kind chain.speculative body.speculative

end

theorem tokenEvents_succ {first last : Nat} (h : first < last) :
    tokenEvents first last = .token first :: tokenEvents (first + 1) last := by
  unfold tokenEvents
  rw [show last - first = last - (first + 1) + 1 by omega, List.range'_succ]
  rfl

theorem tokenPieces_succ {first last : Nat} (h : first < last) :
    tokenPieces first last = .token first :: tokenPieces (first + 1) last := by
  unfold tokenPieces
  rw [show last - first = last - (first + 1) + 1 by omega, List.range'_succ]
  rfl

theorem tokenPieces_self (place : Nat) : tokenPieces place place = [] := by
  unfold tokenPieces
  rw [Nat.sub_self]
  rfl

theorem tokenEvents_self (place : Nat) : tokenEvents place place = [] := by
  unfold tokenEvents
  rw [Nat.sub_self]
  rfl

theorem tokenEvents_append {first place last : Nat} (hfirst : first ≤ place)
    (hlast : place ≤ last) :
    tokenEvents first place ++ tokenEvents place last = tokenEvents first last := by
  unfold tokenEvents
  rw [← List.map_append, show last - first = (place - first) + (last - place) by omega,
    ← List.range'_append_1, show first + (place - first) = place by omega]

end Offside
