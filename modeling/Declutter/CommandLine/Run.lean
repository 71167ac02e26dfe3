import Declutter.CommandLine.Directory
import Declutter.CommandLine.Invocation
import Declutter.Log
import Declutter.Options.Coding
import Declutter.Printer
import Declutter.Reading
import Declutter.Tree.Encoding

/-!
# Running a command

A command reads its files, computes a text and only then creates the file that the text goes to;
so a command that fails leaves all files as they were. `Command.prepare` is the part in front of
the writing, and `run` is the whole program on a directory.
-/

namespace Declutter.CommandLine

/-- Why a command fails. -/
inductive Failure where
  | configUnreadable (path : String) (fault : FileFault)
  | configInvalid (path : String) (error : Error)
  | inputUnreadable (path : String) (fault : FileFault)
  | inputInvalid (path : String) (error : Error)
  | transformFailed (error : Error)
  | outputRefused (path : String) (fault : FileFault)
  deriving DecidableEq, Repr

namespace Failure

/-- What was being done. -/
def context : Failure → String
  | .configUnreadable path _ => "Failed to open config file: " ++ path
  | .configInvalid path _ => "Failed to parse config from: " ++ path
  | .inputUnreadable path _ => "Failed to open input file: " ++ path
  | .inputInvalid path _ => "Failed to parse declarations from: " ++ path
  | .transformFailed _ => "Transform failed"
  | .outputRefused path _ => "Failed to create output file: " ++ path

/-- What went wrong, and what made it go wrong. -/
def causes : Failure → List String
  | .configUnreadable _ fault | .inputUnreadable _ fault | .outputRefused _ fault =>
    [fault.message]
  | .configInvalid _ error | .inputInvalid _ error | .transformFailed error =>
    match error with
    | .json text => [error.message, text]
    | _ => [error.message]

/-- A text whose lines but the first are indented. -/
def hanging (indent text : String) : String := ("\n" ++ indent).intercalate (text.splitOn "\n")

/-- What a user is told: what was being done, and under it the causes, numbered if there are
several. -/
def message (failure : Failure) : String :=
  let causes := match failure.causes with
    | [cause] => ["    " ++ hanging "    " cause]
    | causes => causes.zipIdx.map fun (cause, index) =>
      "    " ++ toString index ++ ": " ++ hanging "       " cause
  "Error: " ++ failure.context ++ "\n\nCaused by:\n" ++ "\n".intercalate causes

end Failure

/-- How the files are read. -/
abbrev FileReader := String → Except FileFault ByteArray

def readText (read : FileReader) (path : String) : Except FileFault String := do
  match String.fromUTF8? (← read path) with
  | some text => return text
  | none => throw .invalidText

/-- The options of a configuration file; the defaults if there is none. -/
def readOptions (read : FileReader) : Option String → Except Failure Options
  | none => .ok {}
  | some path => do
    let text ← (readText read path).mapError (.configUnreadable path)
    (Options.ofText text).mapError (.configInvalid path)

def readDeclarations (read : FileReader) (path : String) : Except Failure SourceFile := do
  let text ← (readText read path).mapError (.inputUnreadable path)
  (SourceFile.ofText text).mapError (.inputInvalid path)

/-- What a command comes to before anything is written: what it reports, and the text it gives. -/
structure Prepared where
  events : List Event
  text : Except Failure String

/-- What is reported of a file that has been read. -/
def parsedEvent (path : String) (file : SourceFile) : Event :=
  ⟨.debug, "tsconfig_types", "parsed " ++ path,
    [("statements", Decimal.natText file.statements.length)]⟩

namespace Command

/-- Rewrites a file and gives its text. -/
def transformed (read : FileReader) (path : String) (options : Options)
    (text : SourceFile → String) : Prepared :=
  match readDeclarations read path with
  | .error failure => ⟨[], .error failure⟩
  | .ok file =>
    ⟨parsedEvent path file :: file.transformEvents options,
      (file.transform options).mapError .transformFailed |>.map text⟩

/-- The text of a tree as `inspect` shows it. -/
def treeText (compact : Bool) (file : SourceFile) : String :=
  (if compact then file.toJson.compact else file.toJson.pretty) ++ "\n"

def prepare (read : FileReader) : Command → Prepared
  | .transform request =>
    match readOptions read request.config with
    | .error failure => ⟨[], .error failure⟩
    | .ok options =>
      transformed read request.input (request.override options) fun file => file.print
  | .inspect request =>
    if request.transformed then
      transformed read request.input {} (treeText request.compact)
    else
      match readDeclarations read request.input with
      | .error failure => ⟨[], .error failure⟩
      | .ok file => ⟨[parsedEvent request.input file], .ok (treeText request.compact file)⟩

end Command

/-- The lines of what is reported: warnings, and the rest only if it is asked for. -/
def logLines (verbose : Bool) (events : List Event) : List String :=
  (events.filter fun event => verbose || event.level = .warn).map (·.line)

/-- What a run of the program leaves behind. -/
structure Outcome where
  status : Nat
  stdout : String
  stderr : String
  log : List String
  directory : Directory

/-- What the program says of itself. -/
def about : String :=
  "Clean up TypeScript declarations generated from the tsconfig JSON Schema"

def versionText : String := "tsconfig-types 0.1.0"

/-- Runs the program in a directory. -/
def run (directory : Directory) (arguments : List String) : Outcome :=
  let stopped (status : Nat) (stdout stderr : String) : Outcome :=
    { status, stdout, stderr, log := [], directory }
  match Invocation.ofArguments arguments with
  | .error (.mistake error) => stopped 2 "" error.message
  | .error .version => stopped 0 (versionText ++ "\n") ""
  | .error .help =>
    if arguments.isEmpty then stopped 2 "" about else stopped 0 (about ++ "\n") ""
  | .ok invocation =>
    let prepared := invocation.command.prepare directory.read
    let log := logLines invocation.verbose prepared.events
    let failed (failure : Failure) : Outcome :=
      { status := 1, stdout := "", stderr := failure.message, log, directory }
    match prepared.text, invocation.command.output with
    | .error failure, _ => failed failure
    | .ok text, none => { status := 0, stdout := text, stderr := "", log, directory }
    | .ok text, some path =>
      match directory.write path text.toUTF8 with
      | .error fault => failed (.outputRefused path fault)
      | .ok directory => { status := 0, stdout := "", stderr := "", log, directory }

end Declutter.CommandLine
