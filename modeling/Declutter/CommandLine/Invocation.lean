import Declutter.CommandLine.Arguments
import Declutter.Options

/-!
# Invocations

What can be asked for on the command line: `transform` rewrites a declaration file, `inspect`
shows its tree. Options of the pipeline that are given here count before those of a configuration.
-/

namespace Declutter.CommandLine

/-- The options of `transform`. -/
structure TransformRequest where
  input : String
  output : Option String
  config : Option String
  rootName : Option String
  rootAlias : Option String
  injectProperty : Option InjectedProperty
  mergeRootUnions : Bool
  deriving DecidableEq, Repr

/-- The options of `inspect`. -/
structure InspectRequest where
  input : String
  output : Option String
  transformed : Bool
  compact : Bool
  deriving DecidableEq, Repr

inductive Command where
  | transform (request : TransformRequest)
  | inspect (request : InspectRequest)
  deriving DecidableEq, Repr

structure Invocation where
  verbose : Bool
  command : Command
  deriving DecidableEq, Repr

namespace Command

def output : Command → Option String
  | .transform request => request.output
  | .inspect request => request.output

/-- The files that a command reads. -/
def inputs : Command → List String
  | .transform request => request.config.toList ++ [request.input]
  | .inspect request => [request.input]

end Command

/-- The options of a configuration with those of the command line in their place. -/
def TransformRequest.override (request : TransformRequest) (options : Options) : Options :=
  { rootName := request.rootName.getD options.rootName
    rootAlias := request.rootAlias <|> options.rootAlias
    injectProperty := request.injectProperty <|> options.injectProperty
    mergeRootUnions := request.mergeRootUnions || options.mergeRootUnions }

namespace Invocation

def verboseFlag : Flag := ⟨"verbose", some 'v', none⟩

def outputFlag : Flag := ⟨"output", some 'o', some .path⟩

/-- What is wrong with a text that should name a property to inject. -/
def propertyComplaint (text : String) : Option String :=
  if (InjectedProperty.ofSpec? text).isSome then none
  else some ("expected Interface.property=literal, got `" ++ text ++ "`")

def transformGrammar : Grammar :=
  { flags :=
      [outputFlag, ⟨"config", none, some .path⟩, ⟨"root-name", none, some .text⟩,
        ⟨"root-alias", none, some .text⟩,
        ⟨"inject-property", none, some (.checked propertyComplaint)⟩,
        ⟨"merge-root-unions", none, none⟩, verboseFlag]
    argument := "<INPUT>"
    hasVersion := false }

def inspectGrammar : Grammar :=
  { flags :=
      [outputFlag, ⟨"transformed", none, none⟩,
        ⟨"format", none, some (.oneOf ["pretty", "compact"])⟩, verboseFlag]
    argument := "<INPUT>"
    hasVersion := false }

/-- What can be written in front of a command. -/
def commonGrammar : Grammar :=
  { flags := [verboseFlag], argument := "", hasVersion := true }

/-- Reads what follows the name of a command. -/
def ofCommand? (verbose : Bool) (name : String) (texts : List String) :
    Option (Except Stop Invocation) :=
  match name with
  | "transform" => some do
    let arguments ← Arguments.read transformGrammar texts
    return {
      verbose := verbose || arguments.has "verbose"
      command := .transform {
        input := arguments.argument.getD ""
        output := arguments.value? "output"
        config := arguments.value? "config"
        rootName := arguments.value? "root-name"
        rootAlias := arguments.value? "root-alias"
        injectProperty := (arguments.value? "inject-property").bind InjectedProperty.ofSpec?
        mergeRootUnions := arguments.has "merge-root-unions" } }
  | "inspect" => some do
    let arguments ← Arguments.read inspectGrammar texts
    return {
      verbose := verbose || arguments.has "verbose"
      command := .inspect {
        input := arguments.argument.getD ""
        output := arguments.value? "output"
        transformed := arguments.has "transformed"
        compact := arguments.value? "format" = some "compact" } }
  | "help" =>
    match texts with
    | [] | ["transform"] | ["inspect"] | "help" :: _ => some (.error .help)
    | "transform" :: other :: _ | "inspect" :: other :: _ | other :: _ =>
      some (.error (.mistake (.unknownCommand other)))
  | _ => none

/-- Reads what stands in front of the name of a command, and the command. -/
def ofTexts (scan : Scan) : List String → Except Stop Invocation
  | [] => .error (if scan.read.options.isEmpty then .help else .mistake .noCommand)
  | text :: texts =>
    let plain : Bool := scan.onlyArguments || !text.startsWith "-" || text = "-"
    if plain then
      match ofCommand? (scan.read.options.any (·.1 = "verbose")) text texts with
      | some invocation =>
        if scan.onlyArguments then .error (.mistake (.unexpected text)) else invocation
      | none => .error (.mistake (.unknownCommand text))
    else do ofTexts (← scan.step commonGrammar text) texts

/-- Reads the arguments of a command line. -/
def ofArguments (texts : List String) : Except Stop Invocation := ofTexts .start texts

end Invocation

end Declutter.CommandLine
