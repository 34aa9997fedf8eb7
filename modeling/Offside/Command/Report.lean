import Offside.Command.Config
import Offside.Language.Entries
import Offside.Tree.Dump

/-!
What the commands print about a source text.
-/

namespace Offside.Command

open Offside.Language

/-- A source text with the path it is known by. -/
abbrev Source := Terminal.SourceFile

/-- Lines, each with its end. -/
def unlines (lines : List String) : String := String.join (lines.map (· ++ "\n"))

/-- A token of the text with its position and its text. -/
def tokenLine (source : Source) (token : Token) : String :=
  "  " ++ token.kind.name ++ " @ " ++ token.start.render ++ " "
    ++ Text.quoted (token.text source.text)

/-- The tokens of a text, one on each line. -/
def lexReport (source : Source) (trivia : Bool) : String :=
  let reading := Reading.ofSource source.text
  let shown := reading.tokens.filter fun token => trivia || !token.isTrivia
  unlines
    (("Tokens for '" ++ source.path ++ "' (" ++ toString shown.length ++ " tokens):")
      :: shown.map (tokenLine source))

/-- A token of the layout with its position, and its text if it has one. -/
def layoutLine (source : Source) : LayoutToken → String
  | .start position => "  \x7b @ " ++ position.render
  | .sep position => "  ; @ " ++ position.render
  | .stop position => "  \x7d @ " ++ position.render
  | .raw token => tokenLine source token

/-- Whether a token opens a block. -/
def opensBlock : LayoutToken → Bool
  | .start _ => true
  | _ => false

/-- The tokens of a text with its blocks made explicit, one on each line, and on
request the stack that each was emitted under. -/
def layoutReport (source : Source) (config : Config) : String :=
  let reading := Reading.ofSource source.text
  let entries := Layout.annotate layoutRules reading.tokens reading.eof
  let tokens := entries.map Layout.Entry.token
  let significant := tokens.countP fun token => !token.isTrivia
  let shown := entries.filter fun entry => config.showTrivia || !entry.token.isTrivia
  let lines (entry : Layout.Entry) :=
    layoutLine source entry.token
      :: (if config.showStacks then ["      " ++ entry.stack.renderList] else [])
  unlines
    (("Layout for '" ++ source.path ++ "' (" ++ toString significant ++ " tokens, "
        ++ toString (tokens.countP opensBlock) ++ " blocks):")
      :: shown.flatMap lines)

/-- The kinds of node that are declarations in a summary. -/
def isDeclaration : NodeKind → Bool
  | .valueDecl | .signature | .dataDecl | .newtypeDecl | .typeSynonymDecl | .classDecl
  | .instanceDecl | .deriveDecl | .foreignImportDecl | .fixityDecl => true
  | _ => false

/-- The counts of a parse. -/
def summaryReport (path : String) (parse : Parse) : String :=
  let kinds := parse.tree.descendantKinds
  let line (what : String) (count : Nat) := "  " ++ what ++ ": " ++ toString count
  unlines
    ["Parse result for '" ++ path ++ "':",
     line "Nodes" kinds.length,
     line "Imports" (kinds.countP (· == .importDecl)),
     line "Declarations" (kinds.countP isDeclaration),
     line "Skipped regions" (kinds.countP (· == .error)),
     line "Diagnostics" parse.diagnostics.length]

/-- The tree of a parse. -/
def treeReport (source : Source) (parse : Parse) (trivia : Bool) : String :=
  parse.tree.dump source.text trivia

/-- The phase that raises a code. -/
def phase (code : ErrorCode) : String :=
  if code.isLexical then "lexer"
  else if code.isParsing then "parser"
  else "internal: a bug in the grammar, not in the input"

/-- What a code means and which phase raises it. -/
def explainReport (text : String) : Except Error String :=
  match ErrorCode.ofSpelling? text with
  | some code =>
    .ok (unlines
      [code.spelling ++ ": " ++ code.explanation, "  reported by: " ++ phase code])
  | none => .error (.unknownCode text)

/-- The category that the options name. -/
def entryOf (config : Config) : Except Error Entry :=
  match Entry.ofName? config.entry with
  | some entry => .ok entry
  | none => .error (.unknownEntry config.entry)

end Offside.Command
