import Declutter.Rewrite.Widening

/-!
# Unknown records

A union member that is exactly `{ [k: string]: unknown }` accepts any object and tells a reader
nothing. `dropUnknownRecords` removes such members from every union that has other members. What
a union loses can leave a `string` next to a string literal, so each rebuilt union and
intersection is checked for a redundant `string` again.
-/

namespace Declutter

namespace TypeNode

/-- `{ [k: string]: unknown }` and nothing else. -/
def isUnknownRecord : TypeNode → Bool
  | .typeLiteral [member] => member.isUnknownStringIndex
  | _ => false

/-- The rewritten members that were no unknown records before. -/
def keptMembers (old new : List TypeNode) : List TypeNode :=
  (old.zip new).filterMap fun (before, after) =>
    if before.isUnknownRecord then none else some after

/-- What becomes of a node whose children are done. A union of unknown records only stays. -/
def dropRecords : TypeNode → TypeNode → TypeNode
  | .union old, .union new =>
    match keptMembers old new with
    | [] => .union new
    | kept => dropWideString (ofUnion kept)
  | _, node => node.dropWideString

/-- A type without unknown records next to other union members, at any depth. -/
def dropUnknownRecords : TypeNode → TypeNode := rewrite dropRecords

theorem dropUnknownRecords_eq (node : TypeNode) :
    node.dropUnknownRecords = dropRecords node (node.mapChildren dropUnknownRecords) :=
  rewrite_eq _ node

end TypeNode

/-- A file without unknown records next to other union members. -/
def SourceFile.dropUnknownRecords (file : SourceFile) : SourceFile :=
  file.mapTypes TypeNode.dropUnknownRecords

end Declutter
