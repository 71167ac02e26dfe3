import Declutter.Tree.Equality

/-!
# Walking through trees

`mapChildren` replaces the direct children of a type and `rewrite` applies a rule to every node,
leaves first. `visit` lists the nodes with parents in front, `postorder` with parents behind.

`rewrite_eq` is the equation that every rewriting of this library is reasoned with: a node is
rewritten by rewriting its children and then applying the rule to the node as it was and to the
node as it has become.
-/

namespace Declutter

namespace TypeNode

/-- Parentheses around a union or an intersection; anything else stands without. Parentheses
around parentheses are one pair. -/
def parenthesize : TypeNode → TypeNode
  | .union members => .parenthesized (.union members)
  | .intersection members => .parenthesized (.intersection members)
  | node => node

/-- Parentheses whose contents became `new`: they stay as they were if nothing changed, and are
derived again otherwise, so that no `("a")` or `((A | B))` is left behind. -/
def reparenthesize (old new : TypeNode) : TypeNode :=
  if new = old then .parenthesized new else new.parenthesize

/-- The union of `members`; a single member stands for itself. -/
def ofUnion : List TypeNode → TypeNode
  | [member] => member
  | members => .union members

/-- The intersection of `members`; a single member stands for itself. -/
def ofIntersection : List TypeNode → TypeNode
  | [member] => member
  | members => .intersection members

/-- The direct children of a type, in source order. -/
def children : TypeNode → List TypeNode
  | .keyword _ | .literal _ => []
  | .reference _ arguments => arguments
  | .array element => [element]
  | .tuple elements => elements.map (·.type)
  | .union members | .intersection members => members
  | .parenthesized inner => [inner]
  | .typeLiteral members => members.flatMap (·.types)

/-- The type with each direct child replaced. -/
def mapChildren (f : TypeNode → TypeNode) : TypeNode → TypeNode
  | .keyword word => .keyword word
  | .literal value => .literal value
  | .reference name arguments => .reference name (arguments.map f)
  | .array element => .array (f element)
  | .tuple elements => .tuple (elements.map fun e => ⟨f e.type, e.optional, e.rest⟩)
  | .union members => .union (members.map f)
  | .intersection members => .intersection (members.map f)
  | .parenthesized inner => reparenthesize inner (f inner)
  | .typeLiteral members => .typeLiteral (members.map (·.mapTypes f))

/-! ## Rewriting from the leaves up -/

mutual

/-- Applies `rule` to every node, children first. The rule is given the node as it was and the
node with its children rewritten. -/
def rewrite (rule : TypeNode → TypeNode → TypeNode) : TypeNode → TypeNode
  | .keyword word => rule (.keyword word) (.keyword word)
  | .literal value => rule (.literal value) (.literal value)
  | .reference name arguments =>
    rule (.reference name arguments) (.reference name (rewriteList rule arguments))
  | .array element => rule (.array element) (.array (element.rewrite rule))
  | .tuple elements => rule (.tuple elements) (.tuple (rewriteElements rule elements))
  | .union members => rule (.union members) (.union (rewriteList rule members))
  | .intersection members =>
    rule (.intersection members) (.intersection (rewriteList rule members))
  | .parenthesized inner =>
    rule (.parenthesized inner) (reparenthesize inner (inner.rewrite rule))
  | .typeLiteral members =>
    rule (.typeLiteral members) (.typeLiteral (rewriteMembers rule members))

def rewriteList (rule : TypeNode → TypeNode → TypeNode) : List TypeNode → List TypeNode
  | [] => []
  | node :: nodes => node.rewrite rule :: rewriteList rule nodes

def rewriteElements (rule : TypeNode → TypeNode → TypeNode) :
    List TupleElement → List TupleElement
  | [] => []
  | ⟨type, optional, rest⟩ :: elements =>
    ⟨type.rewrite rule, optional, rest⟩ :: rewriteElements rule elements

def rewriteMembers (rule : TypeNode → TypeNode → TypeNode) : List TypeMember → List TypeMember
  | [] => []
  | .property ⟨comments, readonly, name, optional, type⟩ :: members =>
    .property ⟨comments, readonly, name, optional, type.rewrite rule⟩ ::
      rewriteMembers rule members
  | .index ⟨comments, readonly, parameter, key, value⟩ :: members =>
    .index ⟨comments, readonly, parameter, key.rewrite rule, value.rewrite rule⟩ ::
      rewriteMembers rule members

end

theorem rewriteList_eq_map (rule : TypeNode → TypeNode → TypeNode) (nodes : List TypeNode) :
    rewriteList rule nodes = nodes.map (rewrite rule) := by
  induction nodes with
  | nil => rfl
  | cons node nodes ih => rw [rewriteList, ih, List.map_cons]

theorem rewriteElements_eq_map (rule : TypeNode → TypeNode → TypeNode)
    (elements : List TupleElement) :
    rewriteElements rule elements =
      elements.map fun e => ⟨e.type.rewrite rule, e.optional, e.rest⟩ := by
  induction elements with
  | nil => rfl
  | cons element elements ih =>
    obtain ⟨type, optional, rest⟩ := element
    rw [rewriteElements, ih, List.map_cons]

theorem rewriteMembers_eq_map (rule : TypeNode → TypeNode → TypeNode)
    (members : List TypeMember) :
    rewriteMembers rule members = members.map (·.mapTypes (rewrite rule)) := by
  induction members with
  | nil => rfl
  | cons member members ih =>
    obtain ⟨_, _, _, _, _⟩ | ⟨_, _, _, _, _⟩ := member
    · rw [rewriteMembers, ih, List.map_cons, TypeMember.mapTypes]
    · rw [rewriteMembers, ih, List.map_cons, TypeMember.mapTypes]

/-- A node is rewritten by rewriting its children and applying the rule. -/
theorem rewrite_eq (rule : TypeNode → TypeNode → TypeNode) (node : TypeNode) :
    node.rewrite rule = rule node (node.mapChildren (rewrite rule)) := by
  cases node <;>
    simp [rewrite, mapChildren, rewriteList_eq_map, rewriteElements_eq_map,
      rewriteMembers_eq_map]

/-! ## Listing the nodes -/

mutual

/-- A node and all nodes below it, parents in front. -/
def visit : TypeNode → List TypeNode
  | .keyword word => [.keyword word]
  | .literal value => [.literal value]
  | .reference name arguments => .reference name arguments :: visitList arguments
  | .array element => .array element :: element.visit
  | .tuple elements => .tuple elements :: visitElements elements
  | .union members => .union members :: visitList members
  | .intersection members => .intersection members :: visitList members
  | .parenthesized inner => .parenthesized inner :: inner.visit
  | .typeLiteral members => .typeLiteral members :: visitMembers members

def visitList : List TypeNode → List TypeNode
  | [] => []
  | node :: nodes => node.visit ++ visitList nodes

def visitElements : List TupleElement → List TypeNode
  | [] => []
  | ⟨type, _, _⟩ :: elements => type.visit ++ visitElements elements

def visitMembers : List TypeMember → List TypeNode
  | [] => []
  | .property ⟨_, _, _, _, type⟩ :: members => type.visit ++ visitMembers members
  | .index ⟨_, _, _, key, value⟩ :: members =>
    key.visit ++ (value.visit ++ visitMembers members)

end

theorem visitList_eq_flatMap (nodes : List TypeNode) : visitList nodes = nodes.flatMap visit := by
  induction nodes with
  | nil => rfl
  | cons node nodes ih => rw [visitList, ih, List.flatMap_cons]

theorem visitElements_eq_flatMap (elements : List TupleElement) :
    visitElements elements = elements.flatMap (·.type.visit) := by
  induction elements with
  | nil => rfl
  | cons element elements ih =>
    obtain ⟨type, optional, rest⟩ := element
    rw [visitElements, ih, List.flatMap_cons]

theorem visitMembers_eq_flatMap (members : List TypeMember) :
    visitMembers members = (members.flatMap (·.types)).flatMap visit := by
  induction members with
  | nil => rfl
  | cons member members ih =>
    obtain ⟨_, _, _, _, _⟩ | ⟨_, _, _, _, _⟩ := member
    · simp only [visitMembers, ih, List.flatMap_cons, TypeMember.types, List.cons_append,
        List.nil_append]
    · simp only [visitMembers, ih, List.flatMap_cons, TypeMember.types, List.cons_append,
        List.nil_append]

/-- A node is visited before its children, and these in order. -/
theorem visit_eq (node : TypeNode) : node.visit = node :: node.children.flatMap visit := by
  cases node <;>
    simp [visit, children, visitList_eq_flatMap, visitElements_eq_flatMap,
      visitMembers_eq_flatMap, List.flatMap_map]

mutual

/-- A node and all nodes below it, parents behind. -/
def postorder : TypeNode → List TypeNode
  | .keyword word => [.keyword word]
  | .literal value => [.literal value]
  | .reference name arguments => postorderList arguments ++ [.reference name arguments]
  | .array element => element.postorder ++ [.array element]
  | .tuple elements => postorderElements elements ++ [.tuple elements]
  | .union members => postorderList members ++ [.union members]
  | .intersection members => postorderList members ++ [.intersection members]
  | .parenthesized inner => inner.postorder ++ [.parenthesized inner]
  | .typeLiteral members => postorderMembers members ++ [.typeLiteral members]

def postorderList : List TypeNode → List TypeNode
  | [] => []
  | node :: nodes => node.postorder ++ postorderList nodes

def postorderElements : List TupleElement → List TypeNode
  | [] => []
  | ⟨type, _, _⟩ :: elements => type.postorder ++ postorderElements elements

def postorderMembers : List TypeMember → List TypeNode
  | [] => []
  | .property ⟨_, _, _, _, type⟩ :: members => type.postorder ++ postorderMembers members
  | .index ⟨_, _, _, key, value⟩ :: members =>
    key.postorder ++ (value.postorder ++ postorderMembers members)

end

end TypeNode

/-! ## Whole files -/

namespace Statement

/-- The types at the top of a statement: the alias's type, or heritage and member types. -/
def types : Statement → List TypeNode
  | .typeAlias a => [a.type]
  | .interface i => i.heritage ++ i.members.flatMap (·.types)
  | .verbatim _ => []

/-- The statement with each type at its top replaced. -/
def mapTypes (f : TypeNode → TypeNode) : Statement → Statement
  | .typeAlias a => .typeAlias { a with type := f a.type }
  | .interface i =>
    .interface { i with heritage := i.heritage.map f, members := i.members.map (·.mapTypes f) }
  | .verbatim v => .verbatim v

end Statement

namespace SourceFile

/-- The file with each type at the top of a statement replaced. -/
def mapTypes (f : TypeNode → TypeNode) (file : SourceFile) : SourceFile :=
  { file with statements := file.statements.map (·.mapTypes f) }

/-- Every type node of a file, parents in front. -/
def visit (file : SourceFile) : List TypeNode :=
  (file.statements.flatMap (·.types)).flatMap TypeNode.visit

end SourceFile

end Declutter
