import Offside.Diagnostic.Code
import Offside.Source.Span
import Offside.Text.NameList

/-!
Diagnostics: what is wrong, where, and what was expected instead.

A diagnostic is a value that the phases return beside their results. It
carries a code, a severity, a message, labels on stretches of the source,
and notes. The four constructors at the end fix the wording of the
diagnostics that parsing reports.
-/

namespace Offside

/-- How grave a diagnostic is. -/
inductive Severity
  | error | warning | note
  deriving DecidableEq, Inhabited

/-- The word for a severity. -/
def Severity.name : Severity → String
  | .error => "error"
  | .warning => "warning"
  | .note => "note"

/-- A message attached to a stretch of the source. -/
structure Label where
  span : Span
  message : String
  isPrimary : Bool
  deriving DecidableEq, Inhabited

/-- A problem found in a source text. -/
structure Diagnostic where
  code : ErrorCode
  severity : Severity
  message : String
  labels : List Label
  notes : List String
  deriving DecidableEq, Inhabited

namespace Diagnostic

/-- An error with one primary label. -/
def error (code : ErrorCode) (message : String) (span : Span) (label : String) : Diagnostic :=
  ⟨code, .error, message, [⟨span, label, true⟩], []⟩

/-- The diagnostic with one more note. -/
def addNote (diagnostic : Diagnostic) (note : String) : Diagnostic :=
  { diagnostic with notes := diagnostic.notes ++ [note] }

/-- The stretch of the first primary label. -/
def primarySpan (diagnostic : Diagnostic) : Option Span :=
  (diagnostic.labels.find? Label.isPrimary).map Label.span

/-- Whether the diagnostic is an error. -/
def isError (diagnostic : Diagnostic) : Bool := diagnostic.severity == .error

/-- The diagnostic on plain lines: the headline, then the labels with the
primary ones marked by an arrow, then the notes. -/
def render (diagnostic : Diagnostic) : String :=
  let headline := diagnostic.severity.name ++ " [" ++ diagnostic.code.spelling ++ "]: "
    ++ diagnostic.message
  let label (l : Label) :=
    "\n  " ++ (if l.isPrimary then "-->" else "   ") ++ " " ++ l.span.render ++ ": " ++ l.message
  let note (text : String) := "\n  = note: " ++ text
  headline ++ String.join (diagnostic.labels.map label)
    ++ String.join (diagnostic.notes.map note)

-- ========================================= what parsing reports

/-- Something stands where one of `expected` was expected. -/
def unexpected (span : Span) (expected : List String) (found : String) : Diagnostic :=
  let alternatives := Text.nameList expected
  error .unexpectedToken ("unexpected " ++ found ++ ", expected " ++ alternatives) span
    ("expected " ++ alternatives)

/-- Something is absent, and parsing went on without it. -/
def missing (span : Span) (message : String) (expected : List String) : Diagnostic :=
  let base := error .missingInput message span message
  if expected.isEmpty then base else base.addNote ("expected " ++ Text.nameList expected)

/-- The tokens in `span` were left out so that parsing could go on. -/
def skipped (span : Span) (message : String) : Diagnostic :=
  error .skippedInput message span "skipped while recovering"

/-- The grammar, and not the input, is at fault. -/
def grammarFault (span : Span) (message : String) : Diagnostic :=
  error .grammarFault message span "while parsing here"

end Diagnostic

end Offside
