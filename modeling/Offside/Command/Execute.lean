import Offside.Command.Report

/-!
The commands, from the arguments to what is printed.

The command line is decoded first; then the files it names are read, in
order; then everything else is a function of the decoded command and of what
reading gave. Commands that show tokens go file by file, so that what was
printed before an unreadable file stays; commands that parse need all files
first.
-/

namespace Offside.Command

open Offside.Language

/-- What a command does with its files. -/
inductive FileAction
  | lex
  | layout
  | summary
  | tree
  deriving DecidableEq, Inhabited

/-- A decoded command. -/
inductive Request
  | usage
  | version
  | explain (code : String)
  | onFiles (action : FileAction) (config : Config) (paths : List String)
  | unknown (word : String)
  | faulty (error : Error)
  deriving Inhabited

/-- What a command prints, and whether it succeeds. -/
structure Effect where
  stdout : String
  stderr : String
  success : Bool
  deriving DecidableEq, Inhabited

-- ======================================================== decoding

/-- A request on files, from the arguments after the command's word. -/
def Request.ofFileArgs (action : FileAction) (arguments : List String) : Request :=
  match Config.ofArgs arguments with
  | .error error => .faulty error
  | .ok (_, []) => .faulty (.missingArgument "file path")
  | .ok (config, paths) => .onFiles action config paths

/-- The request that the arguments of the program make. -/
def Request.ofArgs : List String → Request
  | [] => .usage
  | word :: rest =>
    match word with
    | "lex" => .ofFileArgs .lex rest
    | "layout" => .ofFileArgs .layout rest
    | "parse" => .ofFileArgs .summary rest
    | "tree" => .ofFileArgs .tree rest
    | "help" | "--help" | "-h" => .usage
    | "version" | "--version" | "-V" => .version
    | "explain" | "--explain" =>
      match rest with
      | [] => .faulty (.missingArgument "error code (e.g. E1002)")
      | code :: _ => .explain code
    | word => .unknown word

/-- The files that a request has to read, in order. -/
def Request.paths : Request → List String
  | .onFiles _ _ paths => paths
  | _ => []

-- ======================================================= executing

/-- How to use the program. -/
def usageText : String :=
  unlines
    ["Purist front end (lexer, layout, parser)",
     "",
     "Usage: purist <command> [options] <files...>",
     "",
     "Commands:",
     "  lex <file>           Tokenize and display tokens",
     "  layout <file>        Display tokens with virtual layout tokens",
     "  parse <files...>     Parse and summarize each file",
     "  tree <files...>      Parse and print each syntax tree",
     "  explain <code>       Explain a diagnostic code (e.g., E1002)",
     "  help                 Show this help message",
     "  version              Show version information",
     "",
     "Options:",
     "  --entry=<name>       Entry parser for parse/tree (default: module)",
     "                       one of: " ++ String.intercalate ", " (Entry.all.map Entry.name),
     "  --color=<mode>       Diagnostics color: auto, always, never",
     "  --stacks             layout: show the layout stack after each token",
     "  --trivia             Include whitespace and comments in dumps",
     "  --no-parallel        Parse files sequentially",
     "",
     "A file path of `-` reads standard input.",
     "Set RUST_LOG (e.g. RUST_LOG=purist_layout=trace) for engine tracing.",
     "",
     "Examples:",
     "  purist parse src/Main.purs src/Data/List.purs",
     "  purist tree --entry=expr expr.txt",
     "  purist layout --stacks src/Main.purs",
     "  purist explain E1003"]

/-- The version of the program. -/
def versionNumber : String := "0.1.0-alpha.1"

/-- The effect of a failure. -/
def Effect.ofError (error : Error) : Effect := ⟨"", "error: " ++ error.message ++ "\n", false⟩

/-- One effect after another. -/
def Effect.append (first second : Effect) : Effect :=
  ⟨first.stdout ++ second.stdout, first.stderr ++ second.stderr, first.success && second.success⟩

/-- The effect of a report on a file and of its diagnostics; an error among them
makes the command fail. -/
def Effect.ofReport (colors : Bool) (source : Source) (report : String)
    (diagnostics : List Diagnostic) : Effect :=
  ⟨report, Terminal.renderAll colors (some source) diagnostics,
    !diagnostics.any (·.isError)⟩

/-- A file that was read, or the reason why it was not. -/
abbrev FileContent := String × Except ReadError String

/-- Shows the tokens of each file, up to the first that was not read. -/
def showTokens (colors : Bool) (report : Source → String) : List FileContent → Effect
  | [] => ⟨"", "", true⟩
  | (path, .error reason) :: _ => .ofError (.unreadable path reason)
  | (path, .ok text) :: rest =>
    let source : Source := ⟨path, text⟩
    (Effect.ofReport colors source (report source) (Reading.ofSource text).diagnostics).append
      (showTokens colors report rest)

/-- The texts of all files, or the first reason why one was not read. -/
def readAll : List FileContent → Except Error (List Source)
  | [] => .ok []
  | (path, .error reason) :: _ => .error (.unreadable path reason)
  | (path, .ok text) :: rest => (readAll rest).map (⟨path, text⟩ :: ·)

/-- The line that counts the errors of several files. -/
def totalLine (errors files : Nat) : String :=
  if 1 < files ∧ 0 < errors then
    Terminal.counted errors "error" ++ " in " ++ toString files ++ " files\n"
  else ""

/-- Parses all files and reports on each. -/
def parseFiles (colors : Bool) (config : Config) (tree : Bool) (files : List FileContent) :
    Except Error Effect := do
  let sources ← readAll files
  let entry ← entryOf config
  let parses := sources.map fun source => (source, Language.parse entry source.text)
  let effects := parses.map fun (source, parse) =>
    let report :=
      if tree then treeReport source parse config.showTrivia else summaryReport source.path parse
    Effect.ofReport colors source report parse.diagnostics
  let errors :=
    parses.foldl (fun count (_, parse) => count + parse.diagnostics.countP (·.isError)) 0
  pure ((effects.foldl Effect.append ⟨"", "", true⟩).append
    ⟨"", totalLine errors sources.length, true⟩)

/-- What a request prints, given what reading its files gave and whether
diagnostics go to a terminal. -/
def Request.execute (request : Request) (isTerminal : Bool) (files : List FileContent) : Effect :=
  match request with
  | .usage => ⟨usageText, "", true⟩
  | .version => ⟨"purist " ++ versionNumber ++ "\n", "", true⟩
  | .unknown word => ⟨usageText, "Unknown command: " ++ word ++ "\n\n", false⟩
  | .faulty error => .ofError error
  | .explain code =>
    match explainReport code with
    | .ok text => ⟨text, "", true⟩
    | .error error => .ofError error
  | .onFiles action config _ =>
    let colors := config.color.useColors isTerminal
    match action with
    | .lex => showTokens colors (lexReport · config.showTrivia) files
    | .layout => showTokens colors (layoutReport · config) files
    | .summary | .tree =>
      match parseFiles colors config (action == .tree) files with
      | .ok effect => effect
      | .error error => .ofError error

end Offside.Command
