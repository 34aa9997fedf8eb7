import Offside.Diagnostic.Basic
import Offside.Diagnostic.LineTable

/-!
Diagnostics as a terminal shows them.

When the source file is known, a label is shown as `path:line:column` with
the line it starts on and an underline; otherwise as a bare span. Colours are
optional, and every coloured piece ends with a reset.
-/

namespace Offside.Terminal

-- ======================================================== colours

/-- When to use colours. -/
inductive ColorMode
  | auto | always | never
  deriving DecidableEq, Inhabited

namespace ColorMode

/-- The name of a mode. -/
def name : ColorMode → String
  | .auto => "Auto"
  | .always => "Always"
  | .never => "Never"

/-- The mode that a word on the command line selects. -/
def ofWord? : String → Option ColorMode
  | "auto" => some .auto
  | "always" => some .always
  | "never" => some .never
  | _ => none

/-- Whether colours are used; only the automatic mode asks for a terminal. -/
def useColors (mode : ColorMode) (isTerminal : Bool) : Bool :=
  match mode with
  | .auto => isTerminal
  | .always => true
  | .never => false

end ColorMode

/-- What a coloured piece stands for. -/
inductive Style
  | error | warning | note | bold | secondary
  deriving DecidableEq

/-- The colour number of a style, if it has one; every style is bold. -/
def Style.color : Style → Option String
  | .error => some "31"
  | .warning => some "33"
  | .note => some "36"
  | .bold => none
  | .secondary => some "34"

/-- The control sequence with the given parameters. -/
def control (parameters : String) : String := "\x1b[" ++ parameters ++ "m"

/-- A piece of text in a style, or plain when colours are off. -/
def paint (colors : Bool) (style : Style) (text : String) : String :=
  if colors then
    control ("1" ++ (style.color.elim "" (";" ++ ·))) ++ text ++ control "0"
  else text

/-- The style of a severity. -/
def severityStyle : Severity → Style
  | .error => .error
  | .warning => .warning
  | .note => .note

-- ===================================================== diagnostics

/-- A source file that labels are quoted from. -/
structure SourceFile where
  path : String
  text : String
  deriving DecidableEq, Inhabited

/-- A label on a bare span. -/
def renderBareLabel (colors : Bool) (label : Label) : String :=
  let marker := if label.isPrimary then "-->" else ":::"
  let style : Style := if label.isPrimary then .error else .secondary
  "  " ++ marker ++ " " ++ label.span.render ++ ": " ++ paint colors style label.message ++ "\n"

/-- The blank stretch under the first `count` characters of a line; tabs
stay, so that the stretch is as wide as the text above it. -/
def underBlank (line : List Char) (count : Nat) : String :=
  String.ofList ((line.take count).map fun c => if c = '\t' then '\t' else ' ')

/-- A label with the line it starts on. The underline reaches to the end of
the span or of its first line, and is never empty. -/
def renderQuotedLabel (colors : Bool) (file : SourceFile) (label : Label) : String :=
  let table := LineTable.build file.text
  let (line, column) := table.lineColumn file.text label.span.start
  let lineText := (table.lineText? file.text line).getD []
  let gutter := toString line
  let pad := "".pushn ' ' gutter.length
  let marker := if label.isPrimary then "-->" else ":::"
  let style : Style := if label.isPrimary then .error else .secondary
  let marked := Text.firstLine (Text.slice file.text label.span.start label.span.stop)
  let underline := "".pushn (if label.isPrimary then '^' else '-') (max marked.length 1)
  pad ++ marker ++ " " ++ file.path ++ ":" ++ toString line ++ ":" ++ toString column ++ "\n"
    ++ pad ++ " |\n"
    ++ gutter ++ " | " ++ String.ofList lineText ++ "\n"
    ++ pad ++ " | " ++ underBlank lineText (column - 1)
    ++ paint colors style (underline ++ " " ++ label.message) ++ "\n"

/-- A label, quoted if there is a file to quote from. -/
def renderLabel (colors : Bool) (file : Option SourceFile) (label : Label) : String :=
  match file with
  | none => renderBareLabel colors label
  | some file => renderQuotedLabel colors file label

/-- A diagnostic: the headline, its labels, its notes and an empty line. -/
def render (colors : Bool) (file : Option SourceFile) (diagnostic : Diagnostic) : String :=
  let headline := paint colors (severityStyle diagnostic.severity) diagnostic.severity.name
    ++ paint colors .bold ("[" ++ diagnostic.code.spelling ++ "]") ++ ": "
    ++ diagnostic.message ++ "\n"
  let note (text : String) := "  = " ++ paint colors .bold "note" ++ ": " ++ text ++ "\n"
  headline ++ String.join (diagnostic.labels.map (renderLabel colors file))
    ++ String.join (diagnostic.notes.map note) ++ "\n"

/-- Diagnostics one after the other. -/
def renderAll (colors : Bool) (file : Option SourceFile) (diagnostics : List Diagnostic) :
    String :=
  String.join (diagnostics.map (render colors file))

/-- A count with its noun. -/
def counted (count : Nat) (noun : String) : String :=
  toString count ++ " " ++ noun ++ (if count = 1 then "" else "s")

/-- The line that counts errors and warnings; nothing when there are none. -/
def renderSummary (colors : Bool) (errors warnings : Nat) : String :=
  let emitted := counted warnings "warning" ++ " emitted"
  if errors > 0 then
    paint colors .error "error" ++ ": found " ++ counted errors "error"
      ++ (if warnings > 0 then "; " ++ emitted else "") ++ "\n"
  else if warnings > 0 then
    paint colors .warning "warning" ++ ": " ++ emitted ++ "\n"
  else ""

end Offside.Terminal
