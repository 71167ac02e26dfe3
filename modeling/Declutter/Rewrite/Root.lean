import Declutter.Error
import Declutter.Options
import Declutter.Tree.Traversal
import Declutter.Verbatim

/-!
# The root alias

`renameRoot` gives the root alias its public name, lets every reference follow, and prunes the
modifiers of declarations down to `export`. Two further edits can follow: `injectProperty` adds an
optional property to an interface, and `mergeRootUnions` turns the unions under the root into
intersections. `applyRoot` runs what the options ask for.
-/

namespace Declutter

namespace TypeNode

/-- A reference rooted at `old`, rooted at `new` instead. -/
def renameHead (old new : String) : TypeNode → TypeNode
  | .reference name arguments =>
    if referenceRoot name = old then
      .reference (new ++ String.ofList (name.toList.drop old.length)) arguments
    else .reference name arguments
  | node => node

/-- A type with every reference rooted at `old` rooted at `new` instead. -/
def renameReferences (old new : String) : TypeNode → TypeNode :=
  rewrite fun _ node => node.renameHead old new

theorem renameReferences_eq (old new : String) (node : TypeNode) :
    node.renameReferences old new =
      (node.mapChildren (renameReferences old new)).renameHead old new :=
  rewrite_eq _ node

/-- A union as the intersection of its members. -/
def unionAsIntersection : TypeNode → TypeNode
  | .union members => .intersection members
  | node => node

/-- A type with every union turned into an intersection. -/
def mergeUnions : TypeNode → TypeNode := rewrite fun _ node => node.unionAsIntersection

theorem mergeUnions_eq (node : TypeNode) :
    node.mergeUnions = (node.mapChildren mergeUnions).unionAsIntersection :=
  rewrite_eq _ node

end TypeNode

/-- Applies `f` to the first element that it is defined on. -/
def updateFirst {α : Type} (f : α → Option α) : List α → List α
  | [] => []
  | a :: as =>
    match f a with
    | some b => b :: as
    | none => a :: updateFirst f as

namespace Statement

/-- The name of a type alias. -/
def aliasName? : Statement → Option String
  | .typeAlias a => some a.name
  | _ => none

/-- An alias or interface with no modifiers but `export`. -/
def pruneModifiers : Statement → Statement
  | .typeAlias a => .typeAlias { a with modifiers := a.modifiers.filter (· = .exported) }
  | .interface i => .interface { i with modifiers := i.modifiers.filter (· = .exported) }
  | .verbatim v => .verbatim v

/-- The alias named `old`, named `new`. -/
def renameAlias? (old new : String) : Statement → Option Statement
  | .typeAlias a => if a.name = old then some (.typeAlias { a with name := new }) else none
  | _ => none

/-- Verbatim text with the word `old` replaced by `new`. -/
def renameWords (old new : String) : Statement → Statement
  | .verbatim v => .verbatim { v with text := Verbatim.rename v.text old new }
  | statement => statement

end Statement

namespace SourceFile

/-- The name of the root alias: the wanted one if the file declares it, or the first. -/
def rootName (file : SourceFile) (wanted : Option String) : Except Error String :=
  let aliases := file.statements.filterMap (·.aliasName?)
  match wanted with
  | some name => if name ∈ aliases then .ok name else .error (.noAliasNamed name)
  | none =>
    match aliases with
    | name :: _ => .ok name
    | [] => .error .noAlias

/-- The file with the alias `old` and all references to it renamed, and modifiers pruned. -/
def renameFrom (file : SourceFile) (old new : String) : SourceFile :=
  let file := if old = new then file else file.mapTypes (TypeNode.renameReferences old new)
  { file with
    statements := (updateFirst (Statement.renameAlias? old new) file.statements).map
      fun statement => (statement.pruneModifiers).renameWords old new }

/-- Gives the root alias the name `new`. -/
def renameRoot (file : SourceFile) (new : String) (wanted : Option String) :
    Except Error SourceFile :=
  if isIdentifier new then do return file.renameFrom (← file.rootName wanted) new
  else .error (.invalidRootName new)

end SourceFile

/-! ## Injecting a property -/

/-- The member that an injected property becomes. -/
def InjectedProperty.member (property : InjectedProperty) : TypeMember :=
  .property ⟨[], false, property.name, true, .stringLiteral property.value⟩

/-- Whether an interface has a property of a name. -/
def Interface.declares (decl : Interface) (name : String) : Bool :=
  decl.members.any (·.propertyName? = some name)

/-- The interface a property is meant for, with the property in front unless it has one of that
name. -/
def Statement.inject? (property : InjectedProperty) : Statement → Option Statement
  | .interface i =>
    if i.name = property.interface then
      some (.interface <| if i.declares property.name then i
        else { i with members := property.member :: i.members })
    else none
  | _ => none

/-- Adds a property to the first interface of its name, if there is one. -/
def SourceFile.injectProperty (file : SourceFile) (property : InjectedProperty) : SourceFile :=
  { file with statements := updateFirst (Statement.inject? property) file.statements }

/-! ## Merging unions -/

/-- The alias of a name, with its unions turned into intersections. -/
def Statement.mergeUnions? (name : String) : Statement → Option Statement
  | .typeAlias a =>
    if a.name = name then some (.typeAlias { a with type := a.type.mergeUnions }) else none
  | _ => none

/-- Turns the unions under the first alias of a name into intersections. -/
def SourceFile.mergeRootUnions (file : SourceFile) (name : String) : SourceFile :=
  { file with statements := updateFirst (Statement.mergeUnions? name) file.statements }

/-- The edits of the root that the options ask for. -/
def SourceFile.applyRoot (file : SourceFile) (options : Options) : Except Error SourceFile := do
  let file ← file.renameRoot options.rootName options.rootAlias
  let file := match options.injectProperty with
    | some property => file.injectProperty property
    | none => file
  return if options.mergeRootUnions then file.mergeRootUnions options.rootName else file

end Declutter
