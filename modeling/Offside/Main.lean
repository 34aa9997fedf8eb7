import Offside.Command.Execute

/-!
The program: reads its arguments and files, and prints.
-/

namespace Offside

open Command

/-- Why reading a file failed. -/
def readErrorOf : IO.Error → ReadError
  | .noFileOrDirectory .. => .notFound
  | .permissionDenied .. => .permissionDenied
  | error => .other (toString error)

/-- The bytes of a file, or of standard input for a lone dash. -/
def readBytes (path : String) : IO ByteArray := do
  if path = "-" then (← IO.getStdin).readBinToEnd else IO.FS.readBinFile path

/-- The text of a file, or the reason why it was not read. -/
def readContent (path : String) : IO FileContent := do
  try
    match String.fromUTF8? (← readBytes path) with
    | some text => pure (path, .ok text)
    | none => pure (path, .error .invalidUtf8)
  catch error => pure (path, .error (readErrorOf error))

end Offside

/-- Runs the command that the arguments make. -/
def main (arguments : List String) : IO UInt32 := do
  let request := Offside.Command.Request.ofArgs arguments
  let files ← request.paths.mapM Offside.readContent
  let stderr ← IO.getStderr
  let effect := request.execute (← stderr.isTty) files
  IO.print effect.stdout
  IO.eprint effect.stderr
  pure (if effect.success then 0 else 1)
