import Declutter.Tree.Traversal

/-!
# Redundant `string` members

Next to a string literal, a member `string` of a union or intersection only hides the literals.
`dropStringWidening` removes such members everywhere. Parentheses are looked through on both
sides, so `string | ("a" | "b")` and `"a" | (string)` are widenings too.
-/

namespace Declutter

namespace TypeNode

/-- `string`, in any number of parentheses. -/
def isWideString : TypeNode → Bool
  | .parenthesized inner => inner.isWideString
  | node => node.isKeyword .string

mutual

/-- Whether a type is a string literal or combines one with others. -/
def hasStringLiteral : TypeNode → Bool
  | .literal (.string _) => true
  | .union members | .intersection members => anyStringLiteral members
  | .parenthesized inner => inner.hasStringLiteral
  | _ => false

def anyStringLiteral : List TypeNode → Bool
  | [] => false
  | node :: nodes => node.hasStringLiteral || anyStringLiteral nodes

end

theorem anyStringLiteral_eq_any (nodes : List TypeNode) :
    anyStringLiteral nodes = nodes.any hasStringLiteral := by
  induction nodes with
  | nil => rw [anyStringLiteral, List.any_nil]
  | cons node nodes ih => rw [anyStringLiteral, ih, List.any_cons]

/-- The members that stay next to a string literal. -/
def withoutWideString (members : List TypeNode) : List TypeNode :=
  members.filter (!·.isWideString)

/-- A union or intersection that involves a string literal, without its `string` members. -/
def dropWideString : TypeNode → TypeNode
  | .union members =>
    if members.any hasStringLiteral then ofUnion (withoutWideString members) else .union members
  | .intersection members =>
    if members.any hasStringLiteral then ofIntersection (withoutWideString members)
    else .intersection members
  | node => node

/-- A type without redundant `string` members at any depth. -/
def dropStringWidening : TypeNode → TypeNode := rewrite fun _ node => node.dropWideString

theorem dropStringWidening_eq (node : TypeNode) :
    node.dropStringWidening = (node.mapChildren dropStringWidening).dropWideString :=
  rewrite_eq _ node

end TypeNode

/-- A file without redundant `string` members. -/
def SourceFile.dropStringWidening (file : SourceFile) : SourceFile :=
  file.mapTypes TypeNode.dropStringWidening

end Declutter
