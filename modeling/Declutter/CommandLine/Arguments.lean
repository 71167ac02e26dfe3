/-!
# Command line arguments

Arguments are read one after another against a list of options. An option is written `--name`,
or with one letter `-n`; its value follows as the next argument, or behind `=`. Behind `--`
everything is a plain argument.

The value of an option is checked when the next argument that takes part in the reading shows
that it is complete. Until then an argument that is not known at all counts as the first mistake.
-/

namespace Declutter.CommandLine

/-- What an option's value must be. -/
inductive ValueForm where
  | text
  | path
  | oneOf (choices : List String)
  /-- A text for which a function gives no complaint. -/
  | checked (complaint : String → Option String)

structure Flag where
  name : String
  letter : Option Char
  /-- What the value must be; none for an option without a value. -/
  value : Option ValueForm

/-- A mistake in the arguments. -/
inductive UsageError where
  | noCommand
  | unknownCommand (name : String)
  | unexpected (argument : String)
  | repeated (option : String)
  | unneededValue (value option : String)
  | missingValue (option : String)
  | invalidValue (value option : String) (complaint : Option String)
  | missingArgument
  deriving DecidableEq, Repr

/-- The first line of what a user is told. -/
def UsageError.message : UsageError → String
  | .noCommand => "error: 'tsconfig-types' requires a subcommand but one was not provided"
  | .unknownCommand name => "error: unrecognized subcommand '" ++ name ++ "'"
  | .unexpected argument => "error: unexpected argument '" ++ argument ++ "' found"
  | .repeated option => "error: the argument '" ++ option ++ "' cannot be used multiple times"
  | .unneededValue value option =>
    "error: unexpected value '" ++ value ++ "' for '" ++ option ++ "' found; no more were expected"
  | .missingValue option =>
    "error: a value is required for '" ++ option ++ "' but none was supplied"
  | .invalidValue value option complaint =>
    "error: invalid value '" ++ value ++ "' for '" ++ option ++ "'" ++
      (complaint.map (": " ++ ·)).getD ""
  | .missingArgument => "error: the following required arguments were not provided:"

/-- Why arguments are not carried out: a mistake, or a wish to be told about the program. -/
inductive Stop where
  | mistake (error : UsageError)
  | help
  | version
  deriving DecidableEq, Repr

/-- An option as it is written in messages: with its value in angle brackets. -/
def Flag.shown (flag : Flag) : String :=
  match flag.value with
  | none => "--" ++ flag.name
  | some _ =>
    let upper := flag.name.toList.map fun c => if c = '-' then '_' else c.toUpper
    "--" ++ flag.name ++ " <" ++ String.ofList upper ++ ">"

/-- What is wrong with a value, if anything is. -/
def ValueForm.mistake? (form : ValueForm) (option value : String) : Option UsageError :=
  match form with
  | .text => none
  | .path => if value.isEmpty then some (.missingValue option) else none
  | .oneOf choices =>
    if choices.contains value then none
    else if value.isEmpty then some (.missingValue option)
    else some (.invalidValue value option none)
  | .checked complaint => (complaint value).map fun text => .invalidValue value option (some text)

/-- What can be written on a command line. -/
structure Grammar where
  flags : List Flag
  /-- What the one plain argument is called. -/
  argument : String
  hasVersion : Bool

/-- What an option or the plain argument is read for. -/
inductive Slot where
  | flag (flag : Flag)
  | argument

/-- What has been read. -/
structure Arguments where
  /-- The values of the options by their names, the last one first; empty for an option without a
  value. -/
  options : List (String × String)
  argument : Option String

/-- A reading under way. -/
structure Scan where
  read : Arguments
  /-- What is read but not checked yet, with its value once it is there. -/
  pending : Option (Slot × Option String)
  hasArgument : Bool
  /-- Whether `--` has been read. -/
  onlyArguments : Bool

namespace Scan

def start : Scan :=
  { read := ⟨[], none⟩, pending := none, hasArgument := false, onlyArguments := false }

/-- Adds an option with its value, which must be its first and fit. -/
def give (scan : Scan) (flag : Flag) (value : String) : Except Stop Scan := do
  if scan.read.options.any (·.1 = flag.name) then throw (.mistake (.repeated flag.shown))
  if let some form := flag.value then
    if let some error := form.mistake? flag.shown value then throw (.mistake error)
  return { scan with
    read := { scan.read with options := (flag.name, value) :: scan.read.options } }

/-- Checks what is read but not checked yet. -/
def settle (grammar : Grammar) (scan : Scan) : Except Stop Scan :=
  let settled := { scan with pending := none }
  match scan.pending with
  | none => .ok scan
  | some (.flag flag, none) => .error (.mistake (.missingValue flag.shown))
  | some (.flag flag, some value) => settled.give flag value
  | some (.argument, value) =>
    let value := value.getD ""
    match ValueForm.path.mistake? grammar.argument value with
    | some error => .error (.mistake error)
    | none => .ok { settled with read := { settled.read with argument := some value } }

/-- Reads an option, with a value if one is attached to it. -/
def option (grammar : Grammar) (scan : Scan) (flag : Flag) (attached : Option String) :
    Except Stop Scan :=
  match flag.value, attached with
  | none, some value => .error (.mistake (.unneededValue value flag.shown))
  | none, none => do (← scan.settle grammar).give flag ""
  | some _, some value => do (← scan.settle grammar).give flag value
  | some _, none => do
    return { ← scan.settle grammar with pending := some (.flag flag, none) }

/-- The words that ask about the program, which any command knows. -/
def about? (grammar : Grammar) (name : String) : Option Stop :=
  if name = "help" || name = "h" then some .help
  else if grammar.hasVersion && (name = "version" || name = "V") then some .version
  else none

/-- Reads an argument of the form `--name` or `--name=value`. -/
def long (grammar : Grammar) (scan : Scan) (cs : List Char) : Except Stop Scan := do
  let name := String.ofList (cs.takeWhile (· ≠ '='))
  let attached := match cs.dropWhile (· ≠ '=') with
    | [] => none
    | _ :: value => some (String.ofList value)
  match grammar.flags.find? (·.name = name) with
  | some flag => scan.option grammar flag attached
  | none =>
    match if name.length = 1 then none else about? grammar name, attached with
    | some _, some value => throw (.mistake (.unneededValue value ("--" ++ name)))
    | some stop, none =>
      let _ ← scan.settle grammar
      throw stop
    | none, _ => throw (.mistake (.unexpected ("--" ++ name)))

/-- Reads the letters of an argument of the form `-abc`. What follows the letter of an option
with a value is the value. -/
def letters (grammar : Grammar) (scan : Scan) : List Char → Except Stop Scan
  | [] => .ok scan
  | c :: cs =>
    match grammar.flags.find? (·.letter = some c) with
    | some flag =>
      if flag.value.isSome then
        let attached := match cs with
          | [] => none
          | '=' :: value => some (String.ofList value)
          | value => some (String.ofList value)
        scan.option grammar flag attached
      else do (← scan.option grammar flag none).letters grammar cs
    | none =>
      match about? grammar c.toString with
      | some stop => do
        let _ ← scan.settle grammar
        throw stop
      | none => .error (.mistake (.unexpected ("-" ++ c.toString)))

/-- Reads a plain argument, of which there can be one. -/
def plain (grammar : Grammar) (scan : Scan) (text : String) : Except Stop Scan := do
  if scan.hasArgument then throw (.mistake (.unexpected text))
  return { ← scan.settle grammar with
    pending := some (.argument, some text), hasArgument := true }

/-- Reads one argument. -/
def step (grammar : Grammar) (scan : Scan) (text : String) : Except Stop Scan :=
  if scan.onlyArguments then scan.plain grammar text
  else
    match text.toList, scan.pending with
    | ['-', '-'], _ => .ok { scan with onlyArguments := true }
    | '-' :: '-' :: cs, _ => scan.long grammar cs
    | '-' :: c :: cs, _ => scan.letters grammar (c :: cs)
    | _, some (.flag flag, none) => .ok { scan with pending := some (.flag flag, some text) }
    | _, _ => scan.plain grammar text

end Scan

/-- Reads arguments, the plain one among them. -/
def Arguments.read (grammar : Grammar) (texts : List String) : Except Stop Arguments := do
  let scan ← (← texts.foldlM (·.step grammar) Scan.start).settle grammar
  if scan.read.argument.isNone then throw (.mistake .missingArgument)
  return scan.read

namespace Arguments

def value? (arguments : Arguments) (name : String) : Option String :=
  arguments.options.lookup name

def has (arguments : Arguments) (name : String) : Bool := (arguments.value? name).isSome

end Arguments

end Declutter.CommandLine
