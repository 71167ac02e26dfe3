import Declutter.Proofs.CleanUp
import Mathlib.Data.List.Basic

/-!
# Words and literals

The leaves of a type are the nodes in it that have no room for other types: the words of the
language and the literals. `mapLeaves` replaces each of them and goes down with `mapChildren`
everywhere else.

Replacing and visiting are two walks, each with cases of its own for statements, members and nodes.
A leaf that only one of them meets, or that they meet in different places, would show here: the
leaves visited after `mapLeaves` are those visited before, replaced one by one
(`TypeNode.leaves_mapLeaves`). So a type stays as it is, with its parentheses, exactly if its leaves
do (`TypeNode.mapLeaves_eq_self_iff`). `leaves_mapLeaves_and_mapLeaves_id` says both of files.
-/

namespace Declutter

/-- A type without room for others: a word of the language or a literal. -/
inductive Leaf where
  | keyword (word : Keyword)
  | literal (value : Literal)
  deriving DecidableEq, Repr

/-- The node that a leaf is in a tree. -/
def Leaf.node : Leaf → TypeNode
  | .keyword word => .keyword word
  | .literal value => .literal value

namespace TypeNode

/-! ## The leaves of a type -/

/-- A node as a leaf, if it is one. -/
def leaf? : TypeNode → Option Leaf
  | .keyword word => some (.keyword word)
  | .literal value => some (.literal value)
  | _ => none

/-- The leaves of a type, in the order in which its nodes are visited. -/
def leaves (node : TypeNode) : List Leaf := node.visit.filterMap leaf?

theorem leaf?_eq_some_iff {node : TypeNode} {leaf : Leaf} :
    node.leaf? = some leaf ↔ node = leaf.node := by
  cases node <;> cases leaf <;> simp [leaf?, Leaf.node]

@[simp] theorem leaf?_node (leaf : Leaf) : leaf.node.leaf? = some leaf :=
  leaf?_eq_some_iff.mpr rfl

theorem leaves_eq (node : TypeNode) :
    node.leaves = node.leaf?.toList ++ node.children.flatMap leaves := filterMap_visit leaf? node

@[simp] theorem leaves_node (leaf : Leaf) : leaf.node.leaves = [leaf] := by
  cases leaf <;> rfl

theorem leaves_of_leaf?_eq_none {node : TypeNode} (h : node.leaf? = none) :
    node.leaves = node.children.flatMap leaves := by
  rw [leaves_eq, h, Option.toList_none, List.nil_append]

/-- Parentheses have the leaves of what stands in them, also where they are derived again. -/
@[simp] theorem leaves_reparenthesize (old new : TypeNode) :
    (reparenthesize old new).leaves = new.leaves := by
  rcases reparenthesize_cases old new with heq | heq
  · rw [heq, leaves_of_leaf?_eq_none rfl, children, List.flatMap_singleton]
  · rw [heq]

/-- Replacing children makes no leaf of a node, except where parentheses go: what stood in them is
then in their place. -/
theorem leaf?_mapChildren {node : TypeNode} (h : ∀ inner, node ≠ .parenthesized inner)
    (f : TypeNode → TypeNode) : (node.mapChildren f).leaf? = node.leaf? := by
  cases node with
  | parenthesized inner => exact absurd rfl (h inner)
  | _ => rfl

/-- The children of a node keep their places among its leaves when they are replaced. -/
theorem leaves_mapChildren {node : TypeNode} (h : node.leaf? = none) (f : TypeNode → TypeNode) :
    (node.mapChildren f).leaves = node.children.flatMap fun child => (f child).leaves := by
  by_cases hparen : ∃ inner, node = .parenthesized inner
  · -- the node may be gone, so its children are not to be had from what it has become
    obtain ⟨inner, rfl⟩ := hparen
    rw [mapChildren, leaves_reparenthesize, children, List.flatMap_singleton]
  · have hnode : ∀ inner, node ≠ .parenthesized inner := fun inner heq => hparen ⟨inner, heq⟩
    have hleaf : (node.mapChildren f).leaf? = none := (leaf?_mapChildren hnode f).trans h
    rw [leaves_of_leaf?_eq_none hleaf, children_mapChildren hnode, List.flatMap_map]

/-! ## Replacing the leaves -/

/-- What becomes of a node whose children are done. Only a node that was a leaf before is replaced:
one that parentheses have left behind is done already. -/
def replaceLeaf (r : Leaf → Leaf) (before after : TypeNode) : TypeNode :=
  match before.leaf? with
  | some leaf => (r leaf).node
  | none => after

/-- A type with each of its leaves replaced. -/
def mapLeaves (r : Leaf → Leaf) : TypeNode → TypeNode := rewrite (replaceLeaf r)

/-- Leaves are replaced, and every other node has its children rewritten. -/
theorem mapLeaves_eq (r : Leaf → Leaf) (node : TypeNode) :
    node.mapLeaves r =
      match node.leaf? with
      | some leaf => (r leaf).node
      | none => node.mapChildren (mapLeaves r) :=
  rewrite_eq _ node

@[simp] theorem mapLeaves_node (r : Leaf → Leaf) (leaf : Leaf) :
    leaf.node.mapLeaves r = (r leaf).node := by
  rw [mapLeaves_eq, leaf?_node]

theorem mapLeaves_of_leaf?_eq_none {r : Leaf → Leaf} {node : TypeNode} (h : node.leaf? = none) :
    node.mapLeaves r = node.mapChildren (mapLeaves r) := by
  rw [mapLeaves_eq, h]

/-- The leaves of the rewritten type are those of the type, replaced one by one. -/
theorem leaves_mapLeaves (r : Leaf → Leaf) (node : TypeNode) :
    (node.mapLeaves r).leaves = node.leaves.map r := by
  induction node using inductionOn with
  | step node ih =>
    -- a leaf has no children, and any other node has no leaves but those of its children
    cases hleaf : node.leaf? with
    | some leaf =>
      obtain rfl := leaf?_eq_some_iff.mp hleaf
      rw [mapLeaves_node, leaves_node, leaves_node, List.map_singleton]
    | none =>
      calc
        (node.mapLeaves r).leaves
        _ = node.children.flatMap fun child => (child.mapLeaves r).leaves := by
          rw [mapLeaves_of_leaf?_eq_none hleaf, leaves_mapChildren hleaf]
        _ = node.children.flatMap fun child => child.leaves.map r := List.flatMap_congr ih
        _ = node.leaves.map r := by rw [leaves_of_leaf?_eq_none hleaf, List.map_flatMap]

/-- Parentheses around a leaf go if another leaf takes its place, and stay otherwise. -/
example :
    (intersection [parenthesized (.keyword .string), parenthesized (.keyword .null)]).mapLeaves
        (fun | .keyword .string => .keyword .number | leaf => leaf) =
      intersection [.keyword .number, parenthesized (.keyword .null)] := by
  decide +kernel

/-- A type stays as it is, parentheses included, exactly if its leaves do. -/
theorem mapLeaves_eq_self_iff {r : Leaf → Leaf} {node : TypeNode} :
    node.mapLeaves r = node ↔ ∀ leaf ∈ node.leaves, r leaf = leaf := by
  constructor
  · intro h
    -- a type that has not changed has the same leaves at the same places
    have hleaves : node.leaves.map r = node.leaves := by rw [← leaves_mapLeaves, h]
    exact map_eq_self_iff.mp hleaves
  · intro h
    refine rewrite_eq_self fun n hn => ?_
    cases hleaf : n.leaf? with
    | some leaf =>
      have hmem : leaf ∈ node.leaves := List.mem_filterMap.mpr ⟨n, hn, hleaf⟩
      rw [replaceLeaf, hleaf, leaf?_eq_some_iff.mp hleaf]
      exact congrArg Leaf.node (h leaf hmem)
    | none => rw [replaceLeaf, hleaf]

end TypeNode

/-! ## Files -/

namespace SourceFile

/-- The leaves of a file, in the order of a walk through its types. -/
def leaves (file : SourceFile) : List Leaf := file.visit.filterMap TypeNode.leaf?

/-- A file with each leaf of its types replaced. -/
def mapLeaves (r : Leaf → Leaf) (file : SourceFile) : SourceFile :=
  file.mapTypes (TypeNode.mapLeaves r)

theorem leaves_eq (file : SourceFile) :
    file.leaves = (file.statements.flatMap (·.types)).flatMap TypeNode.leaves :=
  List.filterMap_flatMap

theorem leaves_mapLeaves (r : Leaf → Leaf) (file : SourceFile) :
    (file.mapLeaves r).leaves = file.leaves.map r := by
  rw [leaves_eq, leaves_eq, mapLeaves, types_mapTypes, List.flatMap_map, List.map_flatMap]
  exact List.flatMap_congr fun type _ => type.leaves_mapLeaves r

/-- A file stays as it is exactly if its leaves do. -/
theorem mapLeaves_eq_self_iff {r : Leaf → Leaf} {file : SourceFile} :
    file.mapLeaves r = file ↔ ∀ leaf ∈ file.leaves, r leaf = leaf := by
  constructor
  · intro h
    have hleaves : file.leaves.map r = file.leaves := by rw [← leaves_mapLeaves, h]
    exact TypeNode.map_eq_self_iff.mp hleaves
  · intro h
    apply mapTypes_eq_self
    intro statement hmem type htype
    rw [TypeNode.mapLeaves_eq_self_iff]
    intro leaf hleaf
    apply h leaf
    rw [leaves_eq]
    exact List.mem_flatMap.mpr ⟨type, List.mem_flatMap.mpr ⟨statement, hmem, htype⟩, hleaf⟩

/-- Replacing the leaves of a file reaches exactly the leaves that a walk through it meets, in their
order, and replacing each of them by itself leaves the file as it was. -/
theorem leaves_mapLeaves_and_mapLeaves_id (file : SourceFile) :
    (∀ r : Leaf → Leaf, (file.mapLeaves r).leaves = file.leaves.map r) ∧
      file.mapLeaves id = file := by
  constructor
  · intro r
    exact file.leaves_mapLeaves r
  · rw [mapLeaves_eq_self_iff]
    intro leaf _
    rfl

end SourceFile

end Declutter
