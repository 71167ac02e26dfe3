import Declutter.CommandLine.Run

/-!
# The program

Reads the arguments, does what they ask for with the files of the system, and exits with 0 for
success, 1 for a failure and 2 for arguments that it cannot follow.
-/

namespace Declutter.CommandLine

/-- Why the system refuses a file. -/
def FileFault.ofSystem (error : IO.Error) : FileFault :=
  match error with
  | .noFileOrDirectory .. | .noSuchThing .. => .missing
  | .inappropriateType .. => .isDirectory
  | error => .other error.toString

/-- The files that a command reads, with what is in them. -/
def readFiles (paths : List String) : IO (List (String × Except FileFault ByteArray)) :=
  paths.mapM fun path => do
    try
      return (path, .ok (← IO.FS.readBinFile ⟨path⟩))
    catch error => return (path, .error (.ofSystem error))

/-- Writes a text to a file, or to the output if none is given. -/
def writeResult (path : Option String) (text : String) : IO (Option Failure) := do
  match path with
  | none =>
    IO.print text
    return none
  | some path =>
    try
      IO.FS.writeFile ⟨path⟩ text
      return none
    catch error => return some (.outputRefused path (.ofSystem error))

/-- Carries out an invocation and gives the status to exit with. -/
def Invocation.perform (invocation : Invocation) : IO UInt32 := do
  let files ← readFiles invocation.command.inputs
  let prepared := invocation.command.prepare fun path =>
    (files.lookup path).getD (.error .missing)
  for line in logLines invocation.verbose prepared.events do IO.eprintln line
  let failure ← match prepared.text with
    | .error failure => pure (some failure)
    | .ok text => writeResult invocation.command.output text
  match failure with
  | none => return 0
  | some failure =>
    IO.eprintln failure.message
    return 1

end Declutter.CommandLine

open Declutter.CommandLine in
def main (arguments : List String) : IO UInt32 := do
  match Invocation.ofArguments arguments with
  | .ok invocation => invocation.perform
  | .error (.mistake error) =>
    IO.eprintln error.message
    return 2
  | .error .version =>
    IO.println versionText
    return 0
  | .error .help =>
    if arguments.isEmpty then
      IO.eprintln about
      return 2
    IO.println about
    return 0
