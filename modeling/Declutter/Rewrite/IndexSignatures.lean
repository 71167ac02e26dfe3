import Declutter.Tree.Traversal

/-!
# Unknown index signatures

Next to other members, `[k: string]: unknown;` only turns off checks for excess properties.
`dropUnknownIndex` removes it from every interface body and type literal that holds something
else. A shape that holds nothing else stays: `{}` would be a different type.
-/

namespace Declutter

/-- The rewritten members that were no unknown index signatures before; all of them if nothing
else is left. -/
def keptShape (old new : List TypeMember) : List TypeMember :=
  let kept := (old.zip new).filterMap fun (before, after) =>
    if before.isUnknownStringIndex then none else some after
  if kept.isEmpty then new else kept

namespace TypeNode

/-- What becomes of a node whose children are done. -/
def dropIndex : TypeNode → TypeNode → TypeNode
  | .typeLiteral old, .typeLiteral new => .typeLiteral (keptShape old new)
  | _, node => node

/-- A type whose shapes have no unknown index signature next to other members. -/
def dropUnknownIndex : TypeNode → TypeNode := rewrite dropIndex

theorem dropUnknownIndex_eq (node : TypeNode) :
    node.dropUnknownIndex = dropIndex node (node.mapChildren dropUnknownIndex) :=
  rewrite_eq _ node

end TypeNode

/-- A statement whose shapes have no unknown index signature next to other members. -/
def Statement.dropUnknownIndex : Statement → Statement
  | .typeAlias a => .typeAlias { a with type := a.type.dropUnknownIndex }
  | .interface i =>
    .interface { i with
      heritage := i.heritage.map TypeNode.dropUnknownIndex
      members := keptShape i.members (i.members.map (·.mapTypes TypeNode.dropUnknownIndex)) }
  | .verbatim v => .verbatim v

/-- A file whose shapes have no unknown index signature next to other members. -/
def SourceFile.dropUnknownIndex (file : SourceFile) : SourceFile :=
  { file with statements := file.statements.map (·.dropUnknownIndex) }

end Declutter
