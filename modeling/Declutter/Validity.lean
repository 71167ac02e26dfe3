import Declutter.Error
import Declutter.Text.Lines
import Declutter.Tree.Traversal
import Declutter.Verbatim

/-!
# Sound files

`SourceFile.check` looks for what a rewriting may have broken: a name that is no identifier or is
declared twice, a union or intersection without members, and a reference to a type that was
declared before and is no longer. Names are checked over the whole file first, then statements in
order.
-/

namespace Declutter

/-- Whether a name was declared before and is no longer. -/
def isDangling (before now : List String) (name : String) : Bool :=
  before.contains name && !now.contains name

/-- What is wrong with a node itself. -/
def TypeNode.defect? (before now : List String) : TypeNode → Option Defect
  | .union [] => some .emptyUnion
  | .intersection [] => some .emptyIntersection
  | .reference name _ =>
    if (referenceRoot name).isEmpty then some .namelessReference
    else if isDangling before now (referenceRoot name) then some (.danglingReference name)
    else none
  | _ => none

/-- The first line of a text. -/
def firstLine (text : String) : String :=
  match Text.lines text.toList with
  | line :: _ => String.ofList line
  | [] => ""

/-- The first defect of a statement, with the statement's name or first line. -/
def Statement.fault? (before now : List String) : Statement → Option Error
  | .verbatim v =>
    ((Verbatim.words v.text).find? fun (_, word) => isDangling before now word).map
      fun (_, word) => .unsound (firstLine v.text) (.danglingReference word)
  | statement =>
    ((statement.types.flatMap TypeNode.visit).findSome? (·.defect? before now)).map
      fun defect => .unsound (statement.name?.getD "") defect

/-- The first declared name that is no identifier or stands among the names `seen` before it. -/
def nameFault? (seen : List String) : List String → Option Error
  | [] => none
  | name :: names =>
    if !isIdentifier name then some (.unsound name .invalidName)
    else if seen.contains name then some (.unsound name .declaredTwice)
    else nameFault? (name :: seen) names

namespace SourceFile

/-- The first fault of a file, where `before` are the names declared before it was rewritten. -/
def fault? (file : SourceFile) (before : List String) : Option Error :=
  nameFault? [] (file.statements.filterMap (·.name?)) <|>
    file.statements.findSome? (·.fault? before file.declaredNames)

/-- Accepts a file without faults. -/
def check (file : SourceFile) (before : List String) : Except Error Unit :=
  match file.fault? before with
  | some error => .error error
  | none => .ok ()

end SourceFile

end Declutter
