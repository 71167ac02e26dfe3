import Declutter.Proofs.Nodes
import Declutter.Rewrite.Widening

/-!
# Types without widenings

A node is `Narrow` if it has no redundant `string` to drop. What `dropWideString` makes of a node
over narrow children is narrow, so `dropStringWidening` leaves narrow nodes only, and a type of
narrow nodes is a fixed point of it.

Whether a type has a string literal, and whether it is `string` in parentheses, is asked of
children that have been rewritten already. The lemmas on `hasStringLiteral` and `isWideString`
say what replacing children does to the answers.
-/

namespace Declutter

/-! ## Compounds -/

/-- The two ways to combine types, which are treated alike where `string` is redundant. -/
inductive Compound where
  | union
  | intersection
  deriving DecidableEq, Repr

namespace Compound

def node : Compound → List TypeNode → TypeNode
  | union, members => .union members
  | intersection, members => .intersection members

/-- The compound of `members`, or the only one of them. -/
def collapse : Compound → List TypeNode → TypeNode
  | union, members => .ofUnion members
  | intersection, members => .ofIntersection members

theorem collapse_cases (kind : Compound) (members : List TypeNode) :
    (∃ member, members = [member] ∧ kind.collapse members = member) ∨
      (members.length ≠ 1 ∧ kind.collapse members = kind.node members) := by
  rcases members with _ | ⟨first, _ | ⟨second, rest⟩⟩
  · exact .inr ⟨by simp, by cases kind <;> rfl⟩
  · exact .inl ⟨first, rfl, by cases kind <;> rfl⟩
  · exact .inr ⟨by simp, by cases kind <;> rfl⟩

theorem collapse_of_length_ne_one (kind : Compound) {members : List TypeNode}
    (h : members.length ≠ 1) : kind.collapse members = kind.node members := by
  rcases kind.collapse_cases members with ⟨_, rfl, _⟩ | ⟨_, heq⟩
  · simp at h
  · exact heq

@[simp] theorem children_node (kind : Compound) (members : List TypeNode) :
    (kind.node members).children = members := by cases kind <;> rfl

theorem node_inj {kind : Compound} {members others : List TypeNode} :
    kind.node members = kind.node others ↔ members = others := by cases kind <;> simp [node]

theorem mapChildren_node (kind : Compound) (f : TypeNode → TypeNode) (members : List TypeNode) :
    (kind.node members).mapChildren f = kind.node (members.map f) := by cases kind <;> rfl

/-- A compound is larger than its members. -/
theorem node_ne_of_mem (kind : Compound) {members : List TypeNode} {member : TypeNode}
    (h : member ∈ members) : member ≠ kind.node members := by
  intro heq
  have hlt : sizeOf member < sizeOf (kind.node members) :=
    TypeNode.sizeOf_lt_of_mem_children (by simpa using h)
  rw [heq] at hlt
  exact Nat.lt_irrefl _ hlt

end Compound

namespace TypeNode

theorem exists_compound {node : TypeNode} (h : node.isCompound = true) :
    ∃ kind members, node = Compound.node kind members := by
  cases node with
  | union members => exact ⟨.union, members, rfl⟩
  | intersection members => exact ⟨.intersection, members, rfl⟩
  | _ => simp [isCompound] at h

/-! ## String literals and wide strings -/

@[simp] theorem hasStringLiteral_node (kind : Compound) (members : List TypeNode) :
    (kind.node members).hasStringLiteral = members.any hasStringLiteral := by
  cases kind <;> rw [Compound.node, hasStringLiteral, anyStringLiteral_eq_any]

@[simp] theorem hasStringLiteral_parenthesized (inner : TypeNode) :
    (parenthesized inner).hasStringLiteral = inner.hasStringLiteral := by
  rw [hasStringLiteral]

@[simp] theorem isWideString_parenthesized (inner : TypeNode) :
    (parenthesized inner).isWideString = inner.isWideString := by
  rw [isWideString]

@[simp] theorem hasStringLiteral_reparenthesize (old new : TypeNode) :
    (reparenthesize old new).hasStringLiteral = new.hasStringLiteral := by
  rcases reparenthesize_cases old new with heq | heq <;> simp [heq]

@[simp] theorem isWideString_reparenthesize (old new : TypeNode) :
    (reparenthesize old new).isWideString = new.isWideString := by
  rcases reparenthesize_cases old new with heq | heq <;> simp [heq]

/-- What is `string` in parentheses has no string literal. -/
theorem hasStringLiteral_of_isWideString {node : TypeNode} (h : node.isWideString = true) :
    node.hasStringLiteral = false := by
  induction node using inductionOn with
  | step node ih =>
    cases node with
    | parenthesized inner =>
      rw [isWideString_parenthesized] at h
      rw [hasStringLiteral_parenthesized]
      exact ih inner (by simp [children]) h
    | keyword word => simp [hasStringLiteral]
    | _ => simp [isWideString, isKeyword] at h

theorem any_map_congr {p : TypeNode → Bool} {f : TypeNode → TypeNode} {nodes : List TypeNode}
    (h : ∀ node ∈ nodes, p (f node) = p node) : (nodes.map f).any p = nodes.any p := by
  rw [List.any_map, Bool.eq_iff_iff, List.any_eq_true, List.any_eq_true]
  refine exists_congr fun node => and_congr_right fun hmem => ?_
  rw [Function.comp_apply, h node hmem]

/-- Replacing children by some that agree on having a string literal. -/
theorem hasStringLiteral_mapChildren {f : TypeNode → TypeNode} {node : TypeNode}
    (h : ∀ child ∈ node.children, (f child).hasStringLiteral = child.hasStringLiteral) :
    (node.mapChildren f).hasStringLiteral = node.hasStringLiteral := by
  by_cases hcompound : node.isCompound = true
  · obtain ⟨kind, members, rfl⟩ := exists_compound hcompound
    rw [Compound.mapChildren_node, hasStringLiteral_node, hasStringLiteral_node]
    exact any_map_congr (by simpa using h)
  · cases node with
    | parenthesized inner =>
      rw [mapChildren, hasStringLiteral_reparenthesize, hasStringLiteral_parenthesized]
      exact h inner (by simp [children])
    | union => simp [isCompound] at hcompound
    | intersection => simp [isCompound] at hcompound
    | _ => simp [mapChildren, hasStringLiteral]

/-- Replacing children by some that agree on being `string`. -/
theorem isWideString_mapChildren {f : TypeNode → TypeNode} {node : TypeNode}
    (h : ∀ child ∈ node.children, (f child).isWideString = child.isWideString) :
    (node.mapChildren f).isWideString = node.isWideString := by
  cases node with
  | parenthesized inner =>
    rw [mapChildren, isWideString_reparenthesize, isWideString_parenthesized]
    exact h inner (by simp [children])
  | _ => simp [mapChildren, isWideString, isKeyword]

/-- A rule that does not change whether its node has a string literal. -/
theorem hasStringLiteral_rewrite {rule : TypeNode → TypeNode → TypeNode}
    (h : ∀ old new, (rule old new).hasStringLiteral = new.hasStringLiteral) (node : TypeNode) :
    (node.rewrite rule).hasStringLiteral = node.hasStringLiteral := by
  induction node using inductionOn with
  | step node ih => rw [rewrite_eq, h, hasStringLiteral_mapChildren ih]

/-- A rule that does not change whether its node is `string`. -/
theorem isWideString_rewrite {rule : TypeNode → TypeNode → TypeNode}
    (h : ∀ old new, (rule old new).isWideString = new.isWideString) (node : TypeNode) :
    (node.rewrite rule).isWideString = node.isWideString := by
  induction node using inductionOn with
  | step node ih => rw [rewrite_eq, h, isWideString_mapChildren ih]

/-! ## Narrow nodes -/

/-- A node that has no redundant `string` to drop. -/
def Narrow (node : TypeNode) : Prop := node.dropWideString = node

theorem dropWideString_node (kind : Compound) (members : List TypeNode) :
    (kind.node members).dropWideString =
      if members.any hasStringLiteral then kind.collapse (withoutWideString members)
      else kind.node members := by
  cases kind <;> rfl

theorem narrow_of_isCompound_eq_false {node : TypeNode} (h : node.isCompound = false) :
    Narrow node := by
  cases node with
  | union => simp [isCompound] at h
  | intersection => simp [isCompound] at h
  | _ => rfl

theorem mem_of_mem_withoutWideString {members : List TypeNode} {node : TypeNode}
    (h : node ∈ withoutWideString members) : node ∈ members := (List.mem_filter.mp h).1

theorem withoutWideString_eq_self_iff {members : List TypeNode} :
    withoutWideString members = members ↔ ∀ member ∈ members, member.isWideString = false := by
  rw [withoutWideString, List.filter_eq_self]
  simp only [Bool.not_eq_true']

theorem withoutWideString_withoutWideString (members : List TypeNode) :
    withoutWideString (withoutWideString members) = withoutWideString members := by
  rw [withoutWideString_eq_self_iff]
  intro member hmem
  simpa using (List.mem_filter.mp hmem).2

/-- A compound is narrow if, next to a string literal, it has several members of which none is
`string`. -/
theorem narrow_node_iff (kind : Compound) (members : List TypeNode) :
    Narrow (kind.node members) ↔ (members.any hasStringLiteral = true →
      members.length ≠ 1 ∧ ∀ member ∈ members, member.isWideString = false) := by
  unfold Narrow
  rw [dropWideString_node]
  by_cases hany : members.any hasStringLiteral = true
  · rw [if_pos hany, ← withoutWideString_eq_self_iff]
    constructor
    · intro h _
      rcases kind.collapse_cases (withoutWideString members) with ⟨member, hkept, heq⟩ | ⟨hlen, heq⟩
      · -- collapsing to a member would make the compound a member of itself
        rw [heq] at h
        have hmem : member ∈ withoutWideString members := by simp [hkept]
        exact absurd h (kind.node_ne_of_mem (mem_of_mem_withoutWideString hmem))
      · rw [heq, Compound.node_inj] at h
        rw [h] at hlen
        exact ⟨hlen, h⟩
    · intro h
      obtain ⟨hlen, hkept⟩ := h hany
      rw [hkept, kind.collapse_of_length_ne_one hlen]
  · rw [if_neg hany]
    exact ⟨fun _ h => absurd h hany, fun _ => rfl⟩

/-- A compound or its only member: what holds of all members and of the compound. -/
theorem everywhere_collapse {P : TypeNode → Prop} (kind : Compound) {members : List TypeNode}
    (hnode : members.length ≠ 1 → P (kind.node members))
    (h : ∀ member ∈ members, Everywhere P member) : Everywhere P (kind.collapse members) := by
  rcases kind.collapse_cases members with ⟨member, rfl, heq⟩ | ⟨hlen, heq⟩
  · rw [heq]
    exact h member (List.mem_singleton_self member)
  · rw [heq, everywhere_iff]
    exact ⟨hnode hlen, by simpa using h⟩

/-- Dropping the redundant `string` of a node over narrow children leaves narrow nodes. -/
theorem everywhere_narrow_dropWideString {node : TypeNode}
    (h : ∀ child ∈ node.children, Everywhere Narrow child) :
    Everywhere Narrow node.dropWideString := by
  by_cases hcompound : node.isCompound = true
  · obtain ⟨kind, members, rfl⟩ := exists_compound hcompound
    rw [Compound.children_node] at h
    rw [dropWideString_node]
    by_cases hany : members.any hasStringLiteral = true
    · rw [if_pos hany]
      apply everywhere_collapse
      · intro hlen
        rw [narrow_node_iff, ← withoutWideString_eq_self_iff]
        exact fun _ => ⟨hlen, withoutWideString_withoutWideString members⟩
      · exact fun member hmem => h member (mem_of_mem_withoutWideString hmem)
    · rw [if_neg hany, everywhere_iff, narrow_node_iff, Compound.children_node]
      exact ⟨fun h => absurd h hany, h⟩
  · have hnarrow : Narrow node := narrow_of_isCompound_eq_false (by simpa using hcompound)
    rw [hnarrow, everywhere_iff]
    exact ⟨hnarrow, h⟩

/-- Every node of a type without redundant `string` members is narrow. -/
theorem everywhere_narrow_dropStringWidening (node : TypeNode) :
    Everywhere Narrow node.dropStringWidening :=
  everywhere_rewrite (fun _ h =>
    everywhere_narrow_dropWideString (everywhere_children_mapChildren h)) node

/-- A type of narrow nodes has nothing to lose. -/
theorem dropStringWidening_eq_self {node : TypeNode} (h : Everywhere Narrow node) :
    node.dropStringWidening = node := rewrite_eq_self h

/-- A narrow compound has not both a string literal and a `string`. -/
theorem Narrow.not_widened (kind : Compound) {members : List TypeNode}
    (h : Narrow (kind.node members)) :
    ¬((∃ member ∈ members, member.isWideString = true) ∧
      ∃ member ∈ members, member.hasStringLiteral = true) := by
  rintro ⟨⟨wide, hwide, hw⟩, hliteral⟩
  have hnone := ((narrow_node_iff kind members).mp h (List.any_eq_true.mpr hliteral)).2 wide hwide
  rw [hnone] at hw
  cases hw

end TypeNode

end Declutter
