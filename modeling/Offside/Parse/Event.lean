import Offside.Diagnostic.Basic
import Offside.Tree.Kind

/-!
The log of a parse.

Running a grammar builds no tree. It appends events to a log, which can be
cut back to an earlier length when an alternative is given up; what remains
at the end is replayed into the tree.
-/

namespace Offside

/-- A step towards the tree. -/
inductive Event
  /-- Opens a node. There is no kind while the node is tentative, or when it was
  given up. `wrapper` is the distance to the opening, further down the log, of
  a node that has to wrap this one. -/
  | start (kind : Option NodeKind) (wrapper : Option Nat)
  /-- Closes the innermost open node. -/
  | finish
  /-- Places the significant token of a place in the tree. -/
  | token (place : Nat)
  /-- Reports a problem. -/
  | report (diagnostic : Diagnostic)
  deriving DecidableEq, Inhabited

/-- An opening without effect. -/
def Event.blank : Event := .start none none

end Offside
