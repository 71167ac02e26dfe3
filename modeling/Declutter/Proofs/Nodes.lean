import Declutter.Tree.Traversal
import Mathlib.Data.List.Flatten

/-!
# Reasoning about the nodes of a type

Types are nested through lists of members, elements and arguments. `inductionOn` hides that: a
property holds of every type if it passes from the direct children of a node to the node.
`Everywhere P` says that `P` holds at a node and at all nodes below it.

`everywhere_rewrite` and `everywhere_rewrite_of_everywhere` are what the invariants of the
rewritings rest on. The first makes a property hold in the result of a rewriting, the second
carries it from a type to its rewritten form.
-/

namespace Declutter.TypeNode

/-! ## Induction over children -/

theorem sizeOf_lt_of_mem_types {type : TypeNode} {member : TypeMember}
    (h : type ∈ member.types) : sizeOf type < sizeOf member := by
  cases member with
  | property p =>
    obtain rfl : type = p.type := by simpa [TypeMember.types] using h
    have : sizeOf p.type < sizeOf p := by cases p; simp
    simp only [TypeMember.property.sizeOf_spec]
    omega
  | index i =>
    have hkey : sizeOf i.key < sizeOf i := by
      cases i; simp only [IndexSignature.mk.sizeOf_spec]; omega
    have hvalue : sizeOf i.value < sizeOf i := by
      cases i; simp only [IndexSignature.mk.sizeOf_spec]; omega
    obtain rfl | rfl : type = i.key ∨ type = i.value := by simpa [TypeMember.types] using h
    · simp; omega
    · simp; omega

theorem sizeOf_lt_of_mem_children {node child : TypeNode} (h : child ∈ node.children) :
    sizeOf child < sizeOf node := by
  cases node with
  | keyword => simp [children] at h
  | literal => simp [children] at h
  | reference name arguments =>
    have := List.sizeOf_lt_of_mem (show child ∈ arguments from h)
    simp; omega
  | array element =>
    obtain rfl : child = element := by simpa [children] using h
    simp
  | tuple elements =>
    obtain ⟨element, hmem, rfl⟩ := List.mem_map.mp h
    have := List.sizeOf_lt_of_mem hmem
    have : sizeOf element.type < sizeOf element := by cases element; simp; omega
    simp; omega
  | union members =>
    have := List.sizeOf_lt_of_mem (show child ∈ members from h)
    simp; omega
  | intersection members =>
    have := List.sizeOf_lt_of_mem (show child ∈ members from h)
    simp; omega
  | parenthesized inner =>
    obtain rfl : child = inner := by simpa [children] using h
    simp
  | typeLiteral members =>
    obtain ⟨member, hmem, htype⟩ := List.mem_flatMap.mp h
    have := List.sizeOf_lt_of_mem hmem
    have := sizeOf_lt_of_mem_types htype
    simp; omega

/-- A property that passes from the children of every node to the node holds of every type. -/
@[elab_as_elim]
theorem inductionOn {P : TypeNode → Prop} (node : TypeNode)
    (step : ∀ node, (∀ child ∈ node.children, P child) → P node) : P node :=
  step node fun child _ => inductionOn child step
termination_by sizeOf node
decreasing_by exact sizeOf_lt_of_mem_children ‹_›

/-! ## Replacing children -/

theorem mapTypes_congr {f g : TypeNode → TypeNode} {member : TypeMember}
    (h : ∀ type ∈ member.types, f type = g type) : member.mapTypes f = member.mapTypes g := by
  cases member with
  | property p => simp [TypeMember.mapTypes, h p.type (by simp [TypeMember.types])]
  | index i =>
    simp [TypeMember.mapTypes, h i.key (by simp [TypeMember.types]),
      h i.value (by simp [TypeMember.types])]

theorem mapTypes_id (member : TypeMember) : member.mapTypes (fun type => type) = member := by
  rcases member with ⟨_, _, _, _, _⟩ | ⟨_, _, _, _, _⟩ <;> rfl

/-- A member whose types stay is unchanged. -/
theorem mapTypes_eq_self {f : TypeNode → TypeNode} {member : TypeMember}
    (h : ∀ type ∈ member.types, f type = type) : member.mapTypes f = member := by
  rw [mapTypes_congr h, mapTypes_id]

theorem types_mapTypes (f : TypeNode → TypeNode) (member : TypeMember) :
    (member.mapTypes f).types = member.types.map f := by
  cases member <;> rfl

theorem mapTypes_mapTypes (f g : TypeNode → TypeNode) (member : TypeMember) :
    (member.mapTypes f).mapTypes g = member.mapTypes fun type => g (f type) := by
  cases member <;> rfl

theorem reparenthesize_self (node : TypeNode) : reparenthesize node node = .parenthesized node := by
  simp [reparenthesize]

/-- What parentheses become: parentheses around the new contents, or these alone. -/
theorem reparenthesize_cases (old new : TypeNode) :
    reparenthesize old new = .parenthesized new ∨ reparenthesize old new = new := by
  unfold reparenthesize
  split
  · exact .inl rfl
  · cases new <;> simp [parenthesize]

theorem map_eq_self {α : Type} {f : α → α} {as : List α} (h : ∀ a ∈ as, f a = a) :
    as.map f = as := (List.map_congr_left h).trans as.map_id'

/-- A list stays as it is exactly if its elements do. -/
theorem map_eq_self_iff {α : Type} {f : α → α} {as : List α} :
    as.map f = as ↔ ∀ a ∈ as, f a = a :=
  ⟨fun h => List.map_eq_map_iff.mp (h.trans as.map_id'.symm), map_eq_self⟩

/-- A node whose children stay is unchanged. -/
theorem mapChildren_eq_self {f : TypeNode → TypeNode} {node : TypeNode}
    (h : ∀ child ∈ node.children, f child = child) : node.mapChildren f = node := by
  cases node with
  | keyword => rfl
  | literal => rfl
  | reference name arguments =>
    rw [mapChildren, map_eq_self (show ∀ a ∈ arguments, f a = a from h)]
  | array element => rw [mapChildren, h element (by simp [children])]
  | tuple elements =>
    have he : ∀ e ∈ elements, (⟨f e.type, e.optional, e.rest⟩ : TupleElement) = e := by
      intro e hmem
      rw [h e.type (List.mem_map_of_mem hmem)]
      cases e
      rfl
    rw [mapChildren, map_eq_self he]
  | union members => rw [mapChildren, map_eq_self (show ∀ m ∈ members, f m = m from h)]
  | intersection members => rw [mapChildren, map_eq_self (show ∀ m ∈ members, f m = m from h)]
  | parenthesized inner =>
    rw [mapChildren, h inner (by simp [children]), reparenthesize_self]
  | typeLiteral members =>
    have hm : ∀ m ∈ members, m.mapTypes f = m := by
      intro m hmem
      exact mapTypes_eq_self fun type htype => h type (List.mem_flatMap.mpr ⟨m, hmem, htype⟩)
    rw [mapChildren, map_eq_self hm]

theorem mapChildren_congr {f g : TypeNode → TypeNode} {node : TypeNode}
    (h : ∀ child ∈ node.children, f child = g child) : node.mapChildren f = node.mapChildren g := by
  cases node with
  | keyword => rfl
  | literal => rfl
  | reference name arguments => exact congrArg (reference name) (List.map_congr_left h)
  | array element => rw [mapChildren, mapChildren, h element (by simp [children])]
  | tuple elements =>
    rw [mapChildren, mapChildren]
    congr 1
    apply List.map_congr_left
    intro element hmem
    rw [h element.type (List.mem_map_of_mem hmem)]
  | union members => exact congrArg union (List.map_congr_left h)
  | intersection members => exact congrArg intersection (List.map_congr_left h)
  | parenthesized inner => rw [mapChildren, mapChildren, h inner (by simp [children])]
  | typeLiteral members =>
    rw [mapChildren, mapChildren]
    congr 1
    apply List.map_congr_left
    intro member hmem
    apply mapTypes_congr
    intro type htype
    exact h type (List.mem_flatMap.mpr ⟨member, hmem, htype⟩)

/-- The children of a node with replaced children, unless parentheses are derived again. -/
theorem children_mapChildren {node : TypeNode} (h : ∀ inner, node ≠ .parenthesized inner)
    (f : TypeNode → TypeNode) : (node.mapChildren f).children = node.children.map f := by
  cases node with
  | parenthesized inner => exact absurd rfl (h inner)
  | typeLiteral members =>
    simp only [mapChildren, children, List.flatMap_map, List.map_flatMap, types_mapTypes]
  | _ => simp [mapChildren, children]

/-- Replacing the children of a node twice, unless parentheses are derived again in between. -/
theorem mapChildren_mapChildren {f g : TypeNode → TypeNode} {node : TypeNode}
    (h : ∀ inner, node ≠ .parenthesized inner) :
    (node.mapChildren f).mapChildren g = node.mapChildren fun child => g (f child) := by
  cases node with
  | parenthesized inner => exact absurd rfl (h inner)
  | typeLiteral members =>
    rw [mapChildren, mapChildren, mapChildren, List.map_map]
    congr 1
    apply List.map_congr_left
    intro member _
    exact mapTypes_mapTypes f g member
  | _ => simp [mapChildren]

/-- A rule that leaves every node alone leaves every type alone. -/
theorem rewrite_eq_self {rule : TypeNode → TypeNode → TypeNode} {node : TypeNode}
    (h : ∀ n ∈ node.visit, rule n n = n) : node.rewrite rule = node := by
  induction node using inductionOn with
  | step node ih =>
    rw [rewrite_eq, mapChildren_eq_self]
    · exact h node (by simp [visit_eq node])
    · intro child hchild
      refine ih child hchild fun n hn => h n ?_
      rw [visit_eq node]
      exact List.mem_cons_of_mem _ (List.mem_flatMap.mpr ⟨child, hchild, hn⟩)

/-- What is kept of a list after its elements have been replaced, if the elements before decide
which are dropped. -/
theorem filterMap_zip_map {α : Type} (drops : α → Bool) (f : α → α) {pick : α × α → Option α}
    (hpick : ∀ before after, pick (before, after) = if drops before then none else some after)
    (as : List α) : (as.zip (as.map f)).filterMap pick = (as.filter (!drops ·)).map f := by
  induction as with
  | nil => rfl
  | cons a as ih =>
    rw [List.map_cons, List.zip_cons_cons, List.filterMap_cons, ih, hpick]
    by_cases h : drops a = true
    · simp [h]
    · simp [h]

/-! ## Picking from all nodes -/

/-- What is picked from the nodes of a type stands in the order of the walk: what is picked at the
node, and then what is picked below it. -/
theorem filterMap_visit {α : Type} (pick : TypeNode → Option α) (node : TypeNode) :
    node.visit.filterMap pick =
      (pick node).toList ++ node.children.flatMap fun child => child.visit.filterMap pick := by
  rw [visit_eq, List.filterMap_cons, List.filterMap_flatMap]
  cases pick node <;> rfl

/-! ## Properties of all nodes -/

/-- A property of a type and of all types in it. -/
def Everywhere (P : TypeNode → Prop) (node : TypeNode) : Prop := ∀ n ∈ node.visit, P n

theorem everywhere_iff {P : TypeNode → Prop} {node : TypeNode} :
    Everywhere P node ↔ P node ∧ ∀ child ∈ node.children, Everywhere P child := by
  unfold Everywhere
  rw [visit_eq node]
  simp only [List.mem_cons, List.mem_flatMap]
  constructor
  · intro h
    exact ⟨h node (.inl rfl), fun child hchild n hn => h n (.inr ⟨child, hchild, hn⟩)⟩
  · rintro ⟨hnode, hchildren⟩ n (rfl | ⟨child, hchild, hn⟩)
    · exact hnode
    · exact hchildren child hchild n hn

theorem Everywhere.here {P : TypeNode → Prop} {node : TypeNode} (h : Everywhere P node) :
    P node := (everywhere_iff.mp h).1

theorem Everywhere.below {P : TypeNode → Prop} {node : TypeNode} (h : Everywhere P node) :
    ∀ child ∈ node.children, Everywhere P child := (everywhere_iff.mp h).2

/-- The children of a node with replaced children hold what the replaced ones hold. -/
theorem everywhere_children_mapChildren {P : TypeNode → Prop} {f : TypeNode → TypeNode}
    {node : TypeNode} (h : ∀ child ∈ node.children, Everywhere P (f child)) :
    ∀ child ∈ (node.mapChildren f).children, Everywhere P child := by
  cases node with
  | keyword => simp [mapChildren, children]
  | literal => simp [mapChildren, children]
  | reference name arguments => simpa [mapChildren, children] using h
  | array element => simpa [mapChildren, children] using h
  | tuple elements => simpa [mapChildren, children] using h
  | union members => simpa [mapChildren, children] using h
  | intersection members => simpa [mapChildren, children] using h
  | parenthesized inner =>
    have hinner : Everywhere P (f inner) := h inner (by simp [children])
    rw [mapChildren]
    -- where the parentheses are gone, the children are those of what stood in them
    rcases reparenthesize_cases inner (f inner) with heq | heq
    · rw [heq]; simpa [children] using hinner
    · rw [heq]; exact hinner.below
  | typeLiteral members =>
    intro child hchild
    simp only [mapChildren, children, List.mem_flatMap, List.mem_map] at hchild
    obtain ⟨_, ⟨member, hmem, rfl⟩, htype⟩ := hchild
    rw [types_mapTypes] at htype
    obtain ⟨type, hold, rfl⟩ := List.mem_map.mp htype
    exact h type (List.mem_flatMap.mpr ⟨member, hmem, hold⟩)

/-- Parentheses that are derived again hold what their contents hold, and what all parentheses
hold. -/
theorem everywhere_reparenthesize {P : TypeNode → Prop} (hparen : ∀ n, P (.parenthesized n))
    (old : TypeNode) {new : TypeNode} (h : Everywhere P new) :
    Everywhere P (reparenthesize old new) := by
  rcases reparenthesize_cases old new with heq | heq
  · rw [heq, everywhere_iff]
    exact ⟨hparen new, by simpa [children] using h⟩
  · rw [heq]; exact h

theorem everywhere_reparenthesize_iff {P : TypeNode → Prop} (hparen : ∀ n, P (.parenthesized n))
    (old new : TypeNode) : Everywhere P (reparenthesize old new) ↔ Everywhere P new := by
  refine ⟨fun h => ?_, everywhere_reparenthesize hparen old⟩
  rcases reparenthesize_cases old new with heq | heq
  · rw [heq] at h
    exact h.below new (by simp [children])
  · rw [heq] at h
    exact h

/-- What holds in a node with replaced children, if the node itself has what parentheses have. -/
theorem everywhere_mapChildren_iff {P : TypeNode → Prop} {f : TypeNode → TypeNode}
    {node : TypeNode} (hparen : ∀ n, P (.parenthesized n))
    (hnode : (∀ inner, node ≠ .parenthesized inner) → (P (node.mapChildren f) ↔ P node)) :
    Everywhere P (node.mapChildren f) ↔ P node ∧ ∀ child ∈ node.children, Everywhere P (f child) := by
  by_cases hinner : ∃ inner, node = .parenthesized inner
  · obtain ⟨inner, rfl⟩ := hinner
    rw [mapChildren, children, List.forall_mem_singleton, and_iff_right (hparen inner),
      everywhere_reparenthesize_iff hparen]
  · have hne : ∀ inner, node ≠ .parenthesized inner := fun inner heq => hinner ⟨inner, heq⟩
    rw [everywhere_iff, children_mapChildren hne, List.forall_mem_map, hnode hne]

/-- A property holds in the result of a rewriting if the rule makes it hold at a node whose
children are done. -/
theorem everywhere_rewrite {P : TypeNode → Prop} {rule : TypeNode → TypeNode → TypeNode}
    (step : ∀ node, (∀ child ∈ node.children, Everywhere P (child.rewrite rule)) →
      Everywhere P (rule node (node.mapChildren (rewrite rule)))) (node : TypeNode) :
    Everywhere P (node.rewrite rule) := by
  induction node using inductionOn with
  | step node ih =>
    rw [rewrite_eq]
    exact step node ih

/-- A rewriting keeps a property if the rule keeps it at a node whose children are done. -/
theorem everywhere_rewrite_of_everywhere {P : TypeNode → Prop}
    {rule : TypeNode → TypeNode → TypeNode}
    (step : ∀ node, P node → (∀ child ∈ node.children, Everywhere P (child.rewrite rule)) →
      Everywhere P (rule node (node.mapChildren (rewrite rule)))) {node : TypeNode}
    (h : Everywhere P node) : Everywhere P (node.rewrite rule) := by
  induction node using inductionOn with
  | step node ih =>
    rw [rewrite_eq]
    exact step node h.here fun child hchild => ih child hchild (h.below child hchild)

/-! ## Counting nodes -/

/-- How many nodes some types have. -/
def nodeTotal (nodes : List TypeNode) : Nat := (nodes.flatMap visit).length

/-- How many nodes a type has. -/
def nodeCount (node : TypeNode) : Nat := node.visit.length

theorem nodeCount_eq (node : TypeNode) : node.nodeCount = nodeTotal node.children + 1 := by
  rw [nodeCount, visit_eq node, List.length_cons, nodeTotal]

@[simp] theorem nodeTotal_nil : nodeTotal [] = 0 := rfl

@[simp] theorem nodeTotal_cons (node : TypeNode) (nodes : List TypeNode) :
    nodeTotal (node :: nodes) = node.nodeCount + nodeTotal nodes := by
  rw [nodeTotal, List.flatMap_cons, List.length_append, nodeCount, nodeTotal]

theorem nodeTotal_le_of_sublist {nodes others : List TypeNode} (h : nodes.Sublist others) :
    nodeTotal nodes ≤ nodeTotal others := (h.flatMap visit).length_le

theorem nodeTotal_map_le {f : TypeNode → TypeNode} {nodes : List TypeNode}
    (h : ∀ node ∈ nodes, (f node).nodeCount ≤ node.nodeCount) :
    nodeTotal (nodes.map f) ≤ nodeTotal nodes := by
  induction nodes with
  | nil => exact Nat.le_refl _
  | cons node nodes ih =>
    have hnode := h node List.mem_cons_self
    have hnodes := ih fun other hmem => h other (List.mem_cons_of_mem _ hmem)
    rw [List.map_cons, nodeTotal_cons, nodeTotal_cons]
    omega

theorem nodeTotal_map_lt {f : TypeNode → TypeNode} {nodes : List TypeNode}
    (h : ∀ node ∈ nodes, (f node).nodeCount ≤ node.nodeCount)
    (hlt : ∃ node ∈ nodes, (f node).nodeCount < node.nodeCount) :
    nodeTotal (nodes.map f) < nodeTotal nodes := by
  induction nodes with
  | nil => obtain ⟨_, hmem, _⟩ := hlt; cases hmem
  | cons node nodes ih =>
    have hnode := h node List.mem_cons_self
    have hle : ∀ other ∈ nodes, (f other).nodeCount ≤ other.nodeCount :=
      fun other hmem => h other (List.mem_cons_of_mem _ hmem)
    have hnodes := nodeTotal_map_le hle
    rw [List.map_cons, nodeTotal_cons, nodeTotal_cons]
    obtain ⟨other, hmem, hother⟩ := hlt
    rcases List.mem_cons.mp hmem with rfl | hmem
    · omega
    · have := ih hle ⟨other, hmem, hother⟩
      omega

/-- A node with replaced children counts no more than these and itself. -/
theorem nodeCount_mapChildren_le (f : TypeNode → TypeNode) (node : TypeNode) :
    (node.mapChildren f).nodeCount ≤ nodeTotal (node.children.map f) + 1 := by
  cases node with
  | parenthesized inner =>
    rw [mapChildren, children, List.map_singleton, nodeTotal_cons, nodeTotal_nil]
    rcases reparenthesize_cases inner (f inner) with heq | heq
    · have hcount := nodeCount_eq (.parenthesized (f inner))
      rw [children, nodeTotal_cons, nodeTotal_nil] at hcount
      rw [heq]; omega
    · rw [heq]; omega
  | typeLiteral members =>
    have htypes : (members.map (·.mapTypes f)).flatMap (·.types) =
        (members.flatMap (·.types)).map f := by
      simp only [List.flatMap_map, List.map_flatMap, types_mapTypes]
    exact Nat.le_of_eq (by rw [nodeCount_eq, mapChildren, children, children, htypes])
  | tuple elements =>
    have htypes : ((elements.map fun e => ⟨f e.type, e.optional, e.rest⟩).map
        fun e : TupleElement => e.type) = (elements.map (·.type)).map f := by
      rw [List.map_map, List.map_map]; rfl
    exact Nat.le_of_eq (by rw [nodeCount_eq, mapChildren, children, children, htypes])
  | _ => exact Nat.le_of_eq (nodeCount_eq _)

end Declutter.TypeNode
