import Offside.Grammar.Input
import Offside.Parse.Event

/-!
The state of a parse: the place reached, the log, and what is open.

A transaction is a checkpoint. It is closed once, by a commit or a rollback,
and transactions close in the reverse of the order in which they opened; a
rollback goes back to the place of the checkpoint and cuts the log to its
length there. A marker is a tentative node: completing it gives it a kind and
closes it, abandoning it leaves what it holds to the enclosing node. A
completed node can be wrapped in a new one after the fact.

The context keeps book of open transactions and markers, so that it can be
said, and shown, that running a grammar leaves nothing open and closes
nothing out of order.
-/

namespace Offside

/-- A checkpoint: its number, its place and the length of the log. -/
structure Transaction where
  id : Nat
  place : Nat
  logged : Nat
  deriving DecidableEq, Inhabited

/-- A tentative node, by the index of its opening in the log. -/
structure Marker where
  index : Nat
  deriving DecidableEq, Inhabited

/-- A completed node, by the index of its opening in the log. -/
structure CompletedMarker where
  index : Nat
  deriving DecidableEq, Inhabited

/-- The state of a parse over an input. -/
structure Context (input : Input) where
  /-- The place of the current token. -/
  place : Nat
  events : Array Event
  /-- The numbers of the open transactions, innermost first. -/
  transactions : List Nat
  /-- The indices of the open markers. -/
  markers : List Nat
  /-- The number of the next transaction. -/
  nextId : Nat
  /-- Whether parsing is speculative; nothing is recovered then. -/
  inAttempt : Bool
  /-- Whether every transaction was the innermost when it was closed. -/
  inOrder : Bool

namespace Context

variable {input : Input}

/-- The state at the start of the input. -/
def initial (input : Input) : Context input := ⟨0, #[], [], [], 0, false, true⟩

-- ====================================================== the place

/-- What a condition may look at. -/
def view (ctx : Context input) : View := ⟨input, ctx.place, ctx.inAttempt⟩

/-- Whether no token is left. -/
def atEnd (ctx : Context input) : Bool := input.size ≤ ctx.place

/-- The kind of the current token. -/
def kind (ctx : Context input) : TokenKind := input.kindAt ctx.place

/-- Whether the current token has a kind. -/
def isAt (ctx : Context input) (kind : TokenKind) : Bool := ctx.kind == kind

/-- The text of the current token. -/
def text (ctx : Context input) : String := input.textAt ctx.place

/-- The span of the current token. -/
def span (ctx : Context input) : Span := input.spanAt ctx.place

/-- The point at which the current token starts. -/
def point (ctx : Context input) : Span := Span.point ctx.span.start

/-- The span of the tokens between two places, or the point of the current token
if there are none. -/
def spanBetween (ctx : Context input) (first last : Nat) : Span :=
  (input.cover? first last).getD ctx.point

-- ======================================================== the log

/-- Appends an event. -/
def log (ctx : Context input) (event : Event) : Context input :=
  { ctx with events := ctx.events.push event }

/-- Records a diagnostic. A rollback past it erases it. -/
def report (ctx : Context input) (diagnostic : Diagnostic) : Context input :=
  ctx.log (.report diagnostic)

/-- Consumes the current token; nothing at the end. -/
def advance (ctx : Context input) : Context input :=
  if ctx.atEnd then ctx
  else { ctx with events := ctx.events.push (.token ctx.place), place := ctx.place + 1 }

/-- Consumes the current token if it has a kind, and tells whether it did. -/
def eat (ctx : Context input) (kind : TokenKind) : Bool × Context input :=
  if ctx.isAt kind then (true, ctx.advance) else (false, ctx)

/-- Sets the speculative flag. -/
def setInAttempt (ctx : Context input) (inAttempt : Bool) : Context input :=
  { ctx with inAttempt := inAttempt }

-- =================================================== transactions

/-- Opens a transaction. -/
def start (ctx : Context input) : Transaction × Context input :=
  (⟨ctx.nextId, ctx.place, ctx.events.size⟩,
    { ctx with nextId := ctx.nextId + 1, transactions := ctx.nextId :: ctx.transactions })

/-- Strikes the innermost transaction off the book, which should be the one
numbered `id`. -/
def close (ctx : Context input) (id : Nat) : Context input :=
  { ctx with
    transactions := ctx.transactions.tail
    inOrder := ctx.inOrder && ctx.transactions.head? == some id }

/-- Closes a transaction and keeps what happened since. -/
def commit (ctx : Context input) (transaction : Transaction) : Context input :=
  ctx.close transaction.id

/-- Closes a transaction and undoes what happened since. -/
def rollback (ctx : Context input) (transaction : Transaction) : Context input :=
  let ctx := ctx.close transaction.id
  { ctx with events := ctx.events.shrink transaction.logged, place := transaction.place }

-- ======================================================== markers

/-- Opens a tentative node. -/
def mark (ctx : Context input) : Marker × Context input :=
  let index := ctx.events.size
  (⟨index⟩, { ctx with events := ctx.events.push .blank, markers := index :: ctx.markers })

/-- Gives the opening at an index a kind. -/
def tag (events : Array Event) (index : Nat) (kind : NodeKind) : Array Event :=
  events.modify index fun
    | .start _ wrapper => .start (some kind) wrapper
    | event => event

/-- Notes on the opening at an index how far down the log its wrapper opens. -/
def link (events : Array Event) (index distance : Nat) : Array Event :=
  events.modify index fun
    | .start kind _ => .start kind (some distance)
    | event => event

/-- Closes a tentative node and gives it a kind. -/
def complete (ctx : Context input) (marker : Marker) (kind : NodeKind) :
    CompletedMarker × Context input :=
  (⟨marker.index⟩,
    { ctx with
      events := (tag ctx.events marker.index kind).push .finish
      markers := ctx.markers.erase marker.index })

/-- Gives up a tentative node; what it holds stays in the enclosing node. -/
def abandon (ctx : Context input) (marker : Marker) : Context input :=
  { ctx with
    events := if marker.index + 1 = ctx.events.size then ctx.events.pop else ctx.events
    markers := ctx.markers.erase marker.index }

/-- Opens a node that will wrap a completed one. -/
def precede (ctx : Context input) (done : CompletedMarker) : Marker × Context input :=
  let (wrapper, ctx) := ctx.mark
  (wrapper, { ctx with events := link ctx.events done.index (wrapper.index - done.index) })

/-- Wraps everything since a marker, or a completed node with everything since
its end, in a node of a kind. -/
def wrap (ctx : Context input) (node : Marker ⊕ CompletedMarker) (kind : NodeKind) :
    CompletedMarker × Context input :=
  match node with
  | .inl marker => ctx.complete marker kind
  | .inr done =>
    let (marker, ctx) := ctx.precede done
    ctx.complete marker kind

-- ======================================================= the place

@[simp] theorem place_start (ctx : Context input) : ctx.start.2.place = ctx.place := rfl

@[simp] theorem place_commit (ctx : Context input) (transaction : Transaction) :
    (ctx.commit transaction).place = ctx.place := rfl

@[simp] theorem place_rollback (ctx : Context input) (transaction : Transaction) :
    (ctx.rollback transaction).place = transaction.place := rfl

@[simp] theorem place_mark (ctx : Context input) : ctx.mark.2.place = ctx.place := rfl

@[simp] theorem place_complete (ctx : Context input) (marker : Marker) (kind : NodeKind) :
    (ctx.complete marker kind).2.place = ctx.place := rfl

@[simp] theorem place_abandon (ctx : Context input) (marker : Marker) :
    (ctx.abandon marker).place = ctx.place := rfl

@[simp] theorem place_precede (ctx : Context input) (done : CompletedMarker) :
    (ctx.precede done).2.place = ctx.place := rfl

@[simp] theorem place_wrap (ctx : Context input) (node : Marker ⊕ CompletedMarker)
    (kind : NodeKind) : (ctx.wrap node kind).2.place = ctx.place := by
  cases node <;> rfl

theorem place_of_wrap {ctx wrapped : Context input} {node : Marker ⊕ CompletedMarker}
    {kind : NodeKind} {done : CompletedMarker} (h : ctx.wrap node kind = (done, wrapped)) :
    wrapped.place = ctx.place := by
  rw [← place_wrap ctx node kind, h]

@[simp] theorem place_report (ctx : Context input) (diagnostic : Diagnostic) :
    (ctx.report diagnostic).place = ctx.place := rfl

@[simp] theorem place_setInAttempt (ctx : Context input) (inAttempt : Bool) :
    (ctx.setInAttempt inAttempt).place = ctx.place := rfl

theorem place_lt_size {ctx : Context input} (h : ¬ctx.atEnd = true) : ctx.place < input.size := by
  simpa [atEnd] using h

theorem place_lt_advance {ctx : Context input} (h : ¬ctx.atEnd = true) :
    ctx.place < ctx.advance.place := by
  simp [advance, h]

-- ===================================================== token trees

/-- Consumes tokens up to the end of the block that is `depth` blocks out. -/
def skipBlocks (ctx : Context input) (depth : Nat) : Context input :=
  if h : ctx.atEnd then ctx
  else
    let depth := match ctx.kind with
      | .layoutStart => depth + 1
      | .layoutEnd => depth - 1
      | _ => depth
    if ctx.kind = .eof then ctx
    else if depth = 0 then ctx.advance
    else ctx.advance.skipBlocks depth
termination_by input.size - ctx.place
decreasing_by
  have progress := place_lt_advance h
  have inside := place_lt_size h
  omega

/-- Consumes one token, or a whole block where the current token opens one, and
tells whether there was anything to consume. -/
def skipTokenTree (ctx : Context input) : Bool × Context input :=
  if ctx.atEnd then (false, ctx) else (true, ctx.skipBlocks 0)

end Context

end Offside
