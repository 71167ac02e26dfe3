import Declutter.Decimal.Shortest
import Declutter.Pipeline

/-!
# What the pipeline reports

The rewritings are pure; what a user may want to read about them is computed here from the same
trees. Events come in the order in which a node is finished: children before their parent where
the parent is decided by its children, and the parent first where its members are picked out
before they are rewritten.
-/

namespace Declutter

inductive Level where
  | debug
  | warn
  deriving DecidableEq, Repr

def Level.text : Level → String
  | .debug => "DEBUG"
  | .warn => "WARN"

/-- Something worth reporting, with its details as fields. -/
structure Event where
  level : Level
  /-- The part of the program that reports it. -/
  source : String
  message : String
  fields : List (String × String)
  deriving DecidableEq, Repr

namespace Event

/-- An event on one line: `LEVEL source: message field=value …`. -/
def line (event : Event) : String :=
  event.level.text ++ " " ++ event.source ++ ": " ++ event.message ++
    String.join (event.fields.map fun (name, value) => " " ++ name ++ "=" ++ value)

/-- How many members an event reports as removed. -/
def removed (source message : String) (count : Nat) : Event :=
  ⟨.debug, source, message, [("removed", Decimal.natText count)]⟩

end Event

/-- The part of the program that reports on a rewriting. -/
def Event.sourceOf (rewriting : String) : String := "tsconfig_types_core::passes::" ++ rewriting

namespace TypeNode

def membersOf? : TypeNode → Option (List TypeNode)
  | .union members | .intersection members => some members
  | _ => none

/-- What is reported where a union or intersection loses its `string` members. -/
def wideningEvents (node : TypeNode) : List Event :=
  match node.membersOf? with
  | some members =>
    let count := (members.filter isWideString).length
    if members.any hasStringLiteral && count ≠ 0 then
      [.removed (Event.sourceOf "p2_string_widening") "dropping wide string member" count]
    else []
  | none => []

/-- What is reported where a node loses its unknown records, given the node as it was and with
its children rewritten. -/
def recordEvents : TypeNode → TypeNode → List Event
  | .union old, .union new =>
    let kept := keptMembers old new
    if kept.isEmpty then []
    else
      let count := old.length - kept.length
      (if count = 0 then []
        else [.removed (Event.sourceOf "p3_unknown_records") "dropping unknown-record union member"
          count]) ++
        (ofUnion kept).wideningEvents
  | _, node => node.wideningEvents

end TypeNode

/-- What is reported where a shape loses its unknown index signatures. -/
def shapeEvents (owner : String) (members : List TypeMember) : List Event :=
  if (keptShape members members).length < members.length then
    [⟨.debug, Event.sourceOf "p4_index_signatures", "dropping unknown index signature",
      [("owner", owner)]⟩]
  else []

def TypeNode.indexEvents : TypeNode → List Event
  | .typeLiteral members => shapeEvents "type literal" members
  | _ => []

/-- What is reported on the index signatures of a statement. -/
def Statement.indexEvents : Statement → List Event
  | .typeAlias a => a.type.visit.flatMap (·.indexEvents)
  | .interface i =>
    let reports := fun types : List TypeNode =>
      (types.flatMap TypeNode.visit).flatMap (·.indexEvents)
    reports i.heritage ++ shapeEvents i.name i.members ++ reports (i.members.flatMap (·.types))
  | .verbatim _ => []

namespace SourceFile

/-- What is reported where a property is injected. -/
def injectionEvents (file : SourceFile) (property : InjectedProperty) : List Event :=
  let source := Event.sourceOf "p1_root"
  let target := file.statements.findSome? fun
    | .interface i => if i.name = property.interface then some i else none
    | _ => none
  match target with
  | none =>
    [⟨.warn, source, "interface for property injection not found, skipping",
      [("interface", property.interface)]⟩]
  | some decl =>
    [⟨.debug, source,
      if decl.declares property.name then "property already declared, skipping injection"
        else "injecting property",
      [("interface", property.interface), ("property", property.name)]⟩]

/-- What is reported while the root is edited; nothing if there is no root to edit. -/
def rootEvents (file : SourceFile) (options : Options) : List Event :=
  match file.rootName options.rootAlias, file.renameRoot options.rootName options.rootAlias with
  | .ok old, .ok renamed =>
    ⟨.debug, Event.sourceOf "p1_root", "renaming root alias",
        [("from", old), ("to", options.rootName)]⟩ ::
      match options.injectProperty with
      | some property => renamed.injectionEvents property
      | none => []
  | _, _ => []

/-- The nodes of a file, parents behind their children. -/
def postorder (file : SourceFile) : List TypeNode :=
  (file.statements.flatMap (·.types)).flatMap TypeNode.postorder

/-- What is reported while a file is cleaned up. -/
def cleanUpEvents (file : SourceFile) : List Event :=
  let narrowed := file.dropStringWidening
  (file.postorder.flatMap fun node =>
      (node.mapChildren TypeNode.dropStringWidening).wideningEvents) ++
    (narrowed.postorder.flatMap fun node =>
      node.recordEvents (node.mapChildren TypeNode.dropUnknownRecords)) ++
    narrowed.dropUnknownRecords.statements.flatMap (·.indexEvents)

/-- What `transform` reports. -/
def transformEvents (file : SourceFile) (options : Options) : List Event :=
  let count := [("statements", Decimal.natText file.statements.length)]
  let source := "tsconfig_types_core"
  ⟨.debug, source, "running transform pipeline", count ++ [("root_name", options.rootName)]⟩ ::
    match file.applyRoot options with
    | .error _ => []
    | .ok rooted =>
      file.rootEvents options ++ rooted.cleanUpEvents ++
        match file.transform options with
        | .ok _ => [⟨.debug, source, "transform pipeline finished", count⟩]
        | .error _ => []

end SourceFile

end Declutter
