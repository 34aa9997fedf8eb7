import Offside.Diagnostic.Terminal

/-!
Options of the command line, and what can be wrong with a command.
-/

namespace Offside.Command

/-- Why a file cannot be read. -/
inductive ReadError
  | notFound
  | permissionDenied
  | invalidUtf8
  | other (reason : String)
  deriving DecidableEq, Inhabited

/-- Why a command fails. Problems in the source texts are not among the reasons. -/
inductive Error
  | unreadable (path : String) (reason : ReadError)
  | unknownFlag (flag : String)
  | invalidColor (word : String)
  | unknownEntry (name : String)
  | unknownCode (text : String)
  | missingArgument (what : String)
  deriving DecidableEq, Inhabited

/-- The wording of an error. -/
def Error.message : Error → String
  | .unreadable path .notFound => "cannot find file '" ++ path ++ "'"
  | .unreadable path .permissionDenied => "permission denied reading '" ++ path ++ "'"
  | .unreadable path .invalidUtf8 => "'" ++ path ++ "' contains invalid UTF-8 data"
  | .unreadable path (.other reason) => "error reading '" ++ path ++ "': " ++ reason
  | .unknownFlag flag => "unknown option '" ++ flag ++ "'"
  | .invalidColor word =>
    "invalid color mode '" ++ word ++ "' (expected auto, always or never)"
  | .unknownEntry name => "unknown entry parser '" ++ name ++ "'"
  | .unknownCode text => "unknown error code: " ++ text
  | .missingArgument what => "missing " ++ what

/-- The options of a command. -/
structure Config where
  /-- The category that texts are parsed as. -/
  entry : String := "module"
  /-- Whether diagnostics are coloured. -/
  color : Terminal.ColorMode := .auto
  /-- Whether several files may be parsed at once; the results are the same. -/
  parallel : Bool := true
  /-- Whether the layout stack is shown with each token. -/
  showStacks : Bool := false
  /-- Whether blanks and comments are shown. -/
  showTrivia : Bool := false
  deriving DecidableEq, Inhabited

namespace Config

/-- What follows `start` in a text that begins with it. -/
def afterPrefix? (start text : String) : Option String :=
  if start.toList.isPrefixOf text.toList then
    some (String.ofList (text.toList.drop start.length))
  else none

/-- The options with one more argument taken in; none if it is no option. -/
def option? (config : Config) (argument : String) : Except Error (Option Config) :=
  match afterPrefix? "--entry=" argument with
  | some entry => .ok (some { config with entry := entry })
  | none =>
    match afterPrefix? "--color=" argument with
    | some word =>
      match Terminal.ColorMode.ofWord? word with
      | some color => .ok (some { config with color := color })
      | none => .error (.invalidColor word)
    | none =>
      if argument = "--no-parallel" then .ok (some { config with parallel := false })
      else if argument = "--stacks" then .ok (some { config with showStacks := true })
      else if argument = "--trivia" then .ok (some { config with showTrivia := true })
      else if argument.toList.head? = some '-' ∧ argument ≠ "-" then
        .error (.unknownFlag argument)
      else .ok none

/-- The options and the files among some arguments. Later options win, and a lone
dash is a file. -/
def ofArgsFrom (config : Config) : List String → Except Error (Config × List String)
  | [] => .ok (config, [])
  | argument :: rest => do
    match ← config.option? argument with
    | some config => config.ofArgsFrom rest
    | none =>
      let (config, files) ← config.ofArgsFrom rest
      pure (config, argument :: files)

/-- The options and the files among the arguments of a command. -/
def ofArgs (arguments : List String) : Except Error (Config × List String) :=
  ofArgsFrom {} arguments

end Config

end Offside.Command
