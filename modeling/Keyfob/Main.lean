import Keyfob.Console.Command

/-!
# The command line

Runs a command on the computer at hand: its files, its endpoints and its clock.
-/
namespace Keyfob

open Console

/-- Why the computer refused something. -/
def HostError.ofReport : IO.Error → HostError
  | .noFileOrDirectory .. => .missing
  | e => .other (toString e).toList

/-- Try something that the computer may refuse. -/
def attempt {α : Type} (action : IO α) : IO (Except HostError α) := do
  try
    return .ok (← action)
  catch e =>
    return .error (HostError.ofReport e)

/-- A path or a report as the computer takes it. -/
def asString (t : Text) : String := String.ofList t

/-- Bytes as the computer takes them. -/
def asArray (bytes : List UInt8) : ByteArray := ⟨bytes.toArray⟩

instance : Host IO IO.FS.Handle where
  read path := attempt do return (← IO.FS.readBinFile (asString path)).toList
  write path bytes := attempt (IO.FS.writeBinFile (asString path) (asArray bytes))
  move source target := attempt (IO.FS.rename (asString source) (asString target))
  makeDirectory path := attempt (IO.FS.createDirAll (asString path))
  openEndpoint path := attempt (IO.FS.Handle.mk (asString path) .readWrite)
  send endpoint report := attempt do
    endpoint.write (asArray report)
    endpoint.flush
  wait ms := IO.sleep ms

/-- A directory that a variable of the environment gives in full, or one below the user's
own. -/
def directoryFrom (name fallback : String) : IO Text := do
  match ← IO.getEnv name with
  | some path => if path.startsWith "/" then return path.toList
  | none => pure ()
  match ← IO.getEnv "HOME" with
  | some home => return (home ++ fallback).toList
  | none => return "."

/-- How the program is called. -/
def usage : String :=
  "Usage: pwdongle [-c FILE] [--log-level LEVEL] COMMAND\n\n" ++
  "  play FILE [--raw] [--sink record|gadget|uinput] [--keyboard-dev PATH]\n" ++
  "       [--mouse-dev PATH] [--consumer-dev PATH] [--gamepad-dev PATH]\n" ++
  "  check FILE [--no-delays]\n" ++
  "  store list [--show-secrets]\n" ++
  "  store clear NAMESPACE\n" ++
  "  store set-pin PIN\n" ++
  "  eval EXPR [--condition] [--var NAME=VALUE]...\n" ++
  "  unlock CODE\n"

/-- Run a command line: the exit code. -/
def runLine (words : List String) : IO UInt32 := do
  match Request.ofWords (words.map String.toList) with
  | .error .usage =>
    IO.eprint usage
    return 2
  | .error (.version title) =>
    IO.print (asString (versionLine title))
    return 0
  | .ok (request, settingsFile) =>
    let data ← directoryFrom "XDG_DATA_HOME" "/.local/share"
    let config ← directoryFrom "XDG_CONFIG_HOME" "/.config"
    match ← (Console.run { data, config } request settingsFile : Run IO Printed).run with
    | .ok printed =>
      IO.print (asString printed.out)
      IO.eprint (asString printed.remarks)
      return 0
    | .error (.error failure) =>
      IO.eprint (asString failure.text)
      return 1
    | .error (.crash _) => return 101

end Keyfob

/-- Run the command line that the program was called with. -/
def main (words : List String) : IO UInt32 := Keyfob.runLine words
