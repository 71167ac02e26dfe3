import Declutter.Proofs.Narrowing
import Declutter.Rewrite.Records

/-!
# Unknown records in unions

`dropUnknownRecords` picks the members to drop before it rewrites them. A member that only becomes
an unknown record by being rewritten stays, next to others: such a union has a stray record.

What the rewriting leaves is narrow, and a union of one member is left only around an unknown
record. Apart from stray records that is all there is to lose: `dropUnknownRecords_eq_self`. Where
there is a stray record something is lost, since the number of nodes goes down:
`nodeCount_dropUnknownRecords_lt`.
-/

namespace Declutter.TypeNode

/-! ## Unknown records -/

/-- A record next to a union member that is none. -/
def HasStrayRecord (node : TypeNode) : Prop :=
  ∃ members, node = .union members ∧ (∃ member ∈ members, member.isUnknownRecord = true) ∧
    ∃ member ∈ members, member.isUnknownRecord = false

theorem isKeyword_iff {word : Keyword} {node : TypeNode} :
    node.isKeyword word = true ↔ node = .keyword word := by
  cases node <;> simp [isKeyword]

/-- The types of an unknown index signature are two words of the language. -/
theorem types_of_isUnknownStringIndex {member : TypeMember}
    (h : member.isUnknownStringIndex = true) :
    member.types = [.keyword .string, .keyword .unknown] := by
  cases member with
  | property => simp [TypeMember.isUnknownStringIndex] at h
  | index signature =>
    simp only [TypeMember.isUnknownStringIndex, Bool.and_eq_true, isKeyword_iff] at h
    rw [TypeMember.types, h.1, h.2]

theorem children_of_isUnknownRecord {node : TypeNode} (h : node.isUnknownRecord = true) :
    node.children = [.keyword .string, .keyword .unknown] := by
  unfold isUnknownRecord at h
  split at h
  · rename_i member
    rw [children, List.flatMap_cons, List.flatMap_nil, List.append_nil,
      types_of_isUnknownStringIndex h]
  · cases h

theorem eq_typeLiteral_of_isUnknownRecord {node : TypeNode} (h : node.isUnknownRecord = true) :
    ∃ member, node = .typeLiteral [member] ∧ member.isUnknownStringIndex = true := by
  unfold isUnknownRecord at h
  split at h
  · exact ⟨_, rfl, h⟩
  · cases h

theorem not_union_of_isUnknownRecord {node : TypeNode} (h : node.isUnknownRecord = true)
    (members : List TypeNode) : node ≠ .union members := by
  obtain ⟨member, rfl, _⟩ := eq_typeLiteral_of_isUnknownRecord h
  simp

theorem hasStringLiteral_of_isUnknownRecord {node : TypeNode} (h : node.isUnknownRecord = true) :
    node.hasStringLiteral = false := by
  obtain ⟨member, rfl, _⟩ := eq_typeLiteral_of_isUnknownRecord h
  simp [hasStringLiteral]

/-- No node of an unknown record is a union. -/
theorem not_hasStrayRecord_of_isUnknownRecord {node : TypeNode} (h : node.isUnknownRecord = true) :
    Everywhere (fun n => ¬HasStrayRecord n) node := by
  rw [everywhere_iff, children_of_isUnknownRecord h]
  constructor
  · rintro ⟨members, heq, _⟩
    exact not_union_of_isUnknownRecord h members heq
  · intro child hchild n hn
    obtain rfl | rfl : child = .keyword .string ∨ child = .keyword .unknown := by simpa using hchild
    all_goals
      obtain rfl := List.mem_singleton.mp (by simpa [visit] using hn)
      rintro ⟨members, heq, _⟩
      cases heq

/-! ## What the rewriting does to a node -/

theorem keptMembers_map (f : TypeNode → TypeNode) (members : List TypeNode) :
    keptMembers members (members.map f) = (members.filter (!·.isUnknownRecord)).map f := by
  rw [keptMembers, filterMap_zip_map isUnknownRecord f fun _ _ => rfl]

theorem dropRecords_of_ne_union {node : TypeNode} (h : ∀ members, node ≠ .union members)
    (new : TypeNode) : dropRecords node new = new.dropWideString := by
  unfold dropRecords
  split
  · exact absurd rfl (h _)
  · rfl

/-- A union loses its unknown records if it has other members. -/
theorem dropRecords_union (f : TypeNode → TypeNode) (members : List TypeNode) :
    dropRecords (.union members) (.union (members.map f)) =
      if members.all isUnknownRecord then .union (members.map f)
      else dropWideString (ofUnion ((members.filter (!·.isUnknownRecord)).map f)) := by
  rw [dropRecords, keptMembers_map]
  by_cases hall : members.all isUnknownRecord = true
  · have hnone : members.filter (!·.isUnknownRecord) = [] := by
      rw [List.filter_eq_nil_iff]
      intro member hmem
      simp [List.all_eq_true.mp hall member hmem]
    rw [if_pos hall, hnone]
    rfl
  · rw [if_neg hall]
    cases hkept : (members.filter (!·.isUnknownRecord)).map f with
    | cons => rfl
    | nil =>
      rw [List.map_eq_nil_iff, List.filter_eq_nil_iff] at hkept
      exact absurd (List.all_eq_true.mpr fun member hmem => by simpa using hkept member hmem) hall

theorem dropUnknownRecords_of_ne_union {node : TypeNode} (h : ∀ members, node ≠ .union members) :
    node.dropUnknownRecords = (node.mapChildren dropUnknownRecords).dropWideString := by
  rw [dropUnknownRecords_eq, dropRecords_of_ne_union h]

theorem dropUnknownRecords_union (members : List TypeNode) :
    (union members).dropUnknownRecords =
      if members.all isUnknownRecord then .union (members.map dropUnknownRecords)
      else dropWideString
        (ofUnion ((members.filter (!·.isUnknownRecord)).map dropUnknownRecords)) := by
  rw [dropUnknownRecords_eq, mapChildren, dropRecords_union]

@[simp] theorem dropUnknownRecords_keyword (word : Keyword) :
    (keyword word).dropUnknownRecords = .keyword word := rfl

theorem dropUnknownRecords_of_isUnknownRecord {node : TypeNode}
    (h : node.isUnknownRecord = true) : node.dropUnknownRecords = node := by
  rw [dropUnknownRecords_of_ne_union (not_union_of_isUnknownRecord h), mapChildren_eq_self]
  · obtain ⟨member, rfl, _⟩ := eq_typeLiteral_of_isUnknownRecord h
    rfl
  · rw [children_of_isUnknownRecord h]
    simp

/-! ## What the rewriting leaves -/

theorem everywhere_ofUnion {P : TypeNode → Prop} {members : List TypeNode}
    (hnode : members.length ≠ 1 → P (.union members))
    (h : ∀ member ∈ members, Everywhere P member) : Everywhere P (ofUnion members) :=
  everywhere_collapse .union hnode h

/-- Below a union or its only member stands what stands in the members. -/
theorem everywhere_children_ofUnion {P : TypeNode → Prop} {members : List TypeNode}
    (h : ∀ member ∈ members, Everywhere P member) :
    ∀ child ∈ (ofUnion members).children, Everywhere P child := by
  rcases Compound.collapse_cases .union members with ⟨member, rfl, heq⟩ | ⟨_, heq⟩
  · rw [show ofUnion [member] = member from heq]
    exact (h member (List.mem_singleton_self member)).below
  · rw [show ofUnion members = .union members from heq]
    exact h

/-- The rewritten members that stay hold what all rewritten members hold. -/
theorem everywhere_kept {P : TypeNode → Prop} {f : TypeNode → TypeNode} {members : List TypeNode}
    (h : ∀ member ∈ members, Everywhere P (f member)) :
    ∀ member ∈ (members.filter (!·.isUnknownRecord)).map f, Everywhere P member := by
  rw [List.forall_mem_map]
  exact fun member hmem => h member (List.mem_filter.mp hmem).1

/-- Dropping unknown records leaves narrow nodes. -/
theorem everywhere_narrow_dropUnknownRecords (node : TypeNode) :
    Everywhere Narrow node.dropUnknownRecords := by
  induction node using inductionOn with
  | step node ih =>
    by_cases hunion : ∃ members, node = .union members
    · obtain ⟨members, rfl⟩ := hunion
      rw [dropUnknownRecords_union]
      split
      · -- unknown records have no string literal that a `string` could be next to
        rename_i hall
        rw [everywhere_iff, children, List.forall_mem_map]
        refine ⟨(narrow_node_iff .union _).mpr fun hany => ?_, ih⟩
        obtain ⟨_, hnew, hliteral⟩ := List.any_eq_true.mp hany
        obtain ⟨member, hmem, rfl⟩ := List.mem_map.mp hnew
        have hrecord := List.all_eq_true.mp hall member hmem
        rw [dropUnknownRecords_of_isUnknownRecord hrecord,
          hasStringLiteral_of_isUnknownRecord hrecord] at hliteral
        cases hliteral
      · exact everywhere_narrow_dropWideString (everywhere_children_ofUnion (everywhere_kept ih))
    · rw [dropUnknownRecords_of_ne_union fun members h => hunion ⟨members, h⟩]
      exact everywhere_narrow_dropWideString (everywhere_children_mapChildren ih)

/-- A node that is no union of one member, unless of an unknown record. -/
def NoLoneMember (node : TypeNode) : Prop :=
  ∀ member, node = .union [member] → member.isUnknownRecord = true

theorem noLoneMember_of_ne_union {node : TypeNode} (h : ∀ members, node ≠ .union members) :
    NoLoneMember node := fun member heq => absurd heq (h [member])

theorem noLoneMember_node (kind : Compound) {members : List TypeNode}
    (h : members.length ≠ 1) : NoLoneMember (kind.node members) := by
  intro member heq
  cases kind with
  | union =>
    obtain rfl : members = [member] := by simpa [Compound.node] using heq
    simp at h
  | intersection => cases heq

/-- A property that only unions can lack passes through the other nodes. -/
theorem everywhere_mapChildren_of_ne_union {P : TypeNode → Prop} {f : TypeNode → TypeNode}
    {node : TypeNode} (hP : ∀ n, (∀ members, n ≠ .union members) → P n)
    (hne : ∀ members, node ≠ .union members)
    (h : ∀ child ∈ node.children, Everywhere P (f child)) :
    Everywhere P (node.mapChildren f) := by
  cases node with
  | parenthesized inner =>
    rw [mapChildren]
    exact everywhere_reparenthesize (fun n => hP _ (by simp)) inner
      (h inner (by simp [children]))
  | union members => exact absurd rfl (hne members)
  | _ =>
    rw [everywhere_iff]
    exact ⟨hP _ (by simp [mapChildren]), everywhere_children_mapChildren h⟩

theorem everywhere_noLoneMember_dropWideString {node : TypeNode}
    (h : Everywhere NoLoneMember node) : Everywhere NoLoneMember node.dropWideString := by
  by_cases hcompound : node.isCompound = true
  · obtain ⟨kind, members, rfl⟩ := exists_compound hcompound
    rw [dropWideString_node]
    split
    · refine everywhere_collapse kind (noLoneMember_node kind) fun member hmem => ?_
      exact h.below member (by simpa using mem_of_mem_withoutWideString hmem)
    · exact h
  · rw [narrow_of_isCompound_eq_false (by simpa using hcompound)]
    exact h

/-- Dropping unknown records leaves no union of one member, unless of an unknown record. -/
theorem everywhere_noLoneMember_dropUnknownRecords (node : TypeNode) :
    Everywhere NoLoneMember node.dropUnknownRecords := by
  induction node using inductionOn with
  | step node ih =>
    by_cases hunion : ∃ members, node = .union members
    · obtain ⟨members, rfl⟩ := hunion
      rw [dropUnknownRecords_union]
      split
      · -- a union of unknown records only is not rebuilt, so it can have a single member
        rename_i hall
        rw [everywhere_iff, children, List.forall_mem_map]
        refine ⟨fun member heq => ?_, ih⟩
        obtain ⟨old, rfl, rfl⟩ : ∃ old, members = [old] ∧ old.dropUnknownRecords = member := by
          simpa [List.map_eq_singleton_iff] using heq
        have hrecord : old.isUnknownRecord = true := by simpa using hall
        rw [dropUnknownRecords_of_isUnknownRecord hrecord]
        exact hrecord
      · exact everywhere_noLoneMember_dropWideString
          (everywhere_ofUnion (noLoneMember_node .union) (everywhere_kept ih))
    · have hne : ∀ members, node ≠ .union members := fun members h => hunion ⟨members, h⟩
      rw [dropUnknownRecords_of_ne_union hne]
      exact everywhere_noLoneMember_dropWideString
        (everywhere_mapChildren_of_ne_union (fun _ => noLoneMember_of_ne_union) hne ih)

/-! ## Where nothing is lost -/

/-- Without stray records the rewriting has nothing to drop from what it has left before. -/
theorem dropUnknownRecords_eq_self {node : TypeNode} (hnarrow : Everywhere Narrow node)
    (hlone : Everywhere NoLoneMember node)
    (hstray : Everywhere (fun n => ¬HasStrayRecord n) node) : node.dropUnknownRecords = node := by
  refine rewrite_eq_self fun n hn => ?_
  by_cases hunion : ∃ members, n = .union members
  · obtain ⟨members, rfl⟩ := hunion
    have heq := dropRecords_union (fun type => type) members
    rw [List.map_id', List.map_id'] at heq
    rw [heq]
    split
    · rfl
    · rename_i hall
      have hkept : members.filter (!·.isUnknownRecord) = members := by
        rw [List.filter_eq_self]
        intro member hmem
        cases hrecord : member.isUnknownRecord with
        | false => rfl
        | true =>
          refine absurd ⟨members, rfl, ⟨member, hmem, hrecord⟩, ?_⟩ (hstray _ hn)
          simpa using hall
      have hlen : members.length ≠ 1 := by
        intro hlen
        obtain ⟨member, rfl⟩ := List.length_eq_one_iff.mp hlen
        exact hall (by simpa using hlone _ hn member rfl)
      rw [hkept, show ofUnion members = .union members from
        Compound.collapse_of_length_ne_one .union hlen]
      exact hnarrow _ hn
  · rw [dropRecords_of_ne_union fun members h => hunion ⟨members, h⟩]
    exact hnarrow n hn

/-! ## Where something is lost -/

theorem nodeCount_node (kind : Compound) (members : List TypeNode) :
    (kind.node members).nodeCount = nodeTotal members + 1 := by
  rw [nodeCount_eq, Compound.children_node]

theorem nodeCount_collapse_le (kind : Compound) (members : List TypeNode) :
    (kind.collapse members).nodeCount ≤ nodeTotal members + 1 := by
  rcases kind.collapse_cases members with ⟨member, rfl, heq⟩ | ⟨_, heq⟩
  · rw [heq, nodeTotal_cons, nodeTotal_nil]; omega
  · exact Nat.le_of_eq (heq ▸ nodeCount_node kind members)

theorem nodeCount_dropWideString_le (node : TypeNode) :
    node.dropWideString.nodeCount ≤ node.nodeCount := by
  by_cases hcompound : node.isCompound = true
  · obtain ⟨kind, members, rfl⟩ := exists_compound hcompound
    rw [dropWideString_node]
    split
    · have hcollapse := nodeCount_collapse_le kind (withoutWideString members)
      have hkept : nodeTotal (withoutWideString members) ≤ nodeTotal members :=
        nodeTotal_le_of_sublist List.filter_sublist
      rw [nodeCount_node kind members]
      omega
    · exact Nat.le_refl _
  · have hnarrow : node.dropWideString = node :=
      narrow_of_isCompound_eq_false (by simpa using hcompound)
    exact Nat.le_of_eq (congrArg nodeCount hnarrow)

/-- A union counts, without its unknown records, no more than the members that stay. -/
theorem nodeCount_dropUnknownRecords_union_le {members : List TypeNode}
    (h : members.all isUnknownRecord = false) :
    (union members).dropUnknownRecords.nodeCount ≤
      nodeTotal ((members.filter (!·.isUnknownRecord)).map dropUnknownRecords) + 1 := by
  rw [dropUnknownRecords_union, if_neg (by simp [h])]
  exact Nat.le_trans (nodeCount_dropWideString_le _) (nodeCount_collapse_le .union _)

theorem nodeCount_dropUnknownRecords_le (node : TypeNode) :
    node.dropUnknownRecords.nodeCount ≤ node.nodeCount := by
  induction node using inductionOn with
  | step node ih =>
    have hchildren := nodeTotal_map_le ih
    have hnode := nodeCount_eq node
    by_cases hunion : ∃ members, node = .union members
    · obtain ⟨members, rfl⟩ := hunion
      rw [children] at hchildren hnode
      cases hall : members.all isUnknownRecord with
      | true =>
        rw [dropUnknownRecords_union, if_pos hall, nodeCount_eq, children]
        omega
      | false =>
        have hkept : nodeTotal ((members.filter (!·.isUnknownRecord)).map dropUnknownRecords) ≤
            nodeTotal (members.map dropUnknownRecords) :=
          nodeTotal_le_of_sublist (List.filter_sublist.map _)
        have := nodeCount_dropUnknownRecords_union_le hall
        omega
    · rw [dropUnknownRecords_of_ne_union fun members h => hunion ⟨members, h⟩]
      have hdrop := nodeCount_dropWideString_le (node.mapChildren dropUnknownRecords)
      have hmap := nodeCount_mapChildren_le dropUnknownRecords node
      omega

/-- Fewer members count less. -/
theorem nodeTotal_filter_lt {p : TypeNode → Bool} {members : List TypeNode}
    (h : ∃ member ∈ members, p member = false) :
    nodeTotal (members.filter p) < nodeTotal members := by
  induction members with
  | nil => obtain ⟨_, hmem, _⟩ := h; cases hmem
  | cons member members ih =>
    have hpos := nodeCount_eq member
    have hle : nodeTotal (members.filter p) ≤ nodeTotal members :=
      nodeTotal_le_of_sublist List.filter_sublist
    rw [List.filter_cons, nodeTotal_cons]
    split
    · rename_i hp
      obtain ⟨other, hmem, hother⟩ := h
      rcases List.mem_cons.mp hmem with rfl | hmem
      · rw [hp] at hother; cases hother
      · have := ih ⟨other, hmem, hother⟩
        rw [nodeTotal_cons]
        omega
    · omega

/-- A type with a stray record is larger than what becomes of it. -/
theorem nodeCount_dropUnknownRecords_lt {node : TypeNode}
    (h : ∃ n ∈ node.visit, HasStrayRecord n) :
    node.dropUnknownRecords.nodeCount < node.nodeCount := by
  induction node using inductionOn with
  | step node ih =>
    have hle : ∀ child ∈ node.children, child.dropUnknownRecords.nodeCount ≤ child.nodeCount :=
      fun child _ => nodeCount_dropUnknownRecords_le child
    have hnode := nodeCount_eq node
    obtain ⟨n, hn, hstray⟩ := h
    rw [visit_eq node, List.mem_cons, List.mem_flatMap] at hn
    by_cases hunion : ∃ members, node = .union members
    · obtain ⟨members, rfl⟩ := hunion
      rw [children] at hnode hle
      -- some member is no record: the other one of the stray, or the one the stray stands in
      have hall : members.all isUnknownRecord = false := by
        rw [List.all_eq_false]
        rcases hn with rfl | ⟨child, hchild, hn⟩
        · obtain ⟨_, heq, _, other, hmem, hother⟩ := hstray
          cases heq
          exact ⟨other, hmem, by simp [hother]⟩
        · exact ⟨child, hchild, fun hrecord =>
            not_hasStrayRecord_of_isUnknownRecord hrecord n hn hstray⟩
      have hcount := nodeCount_dropUnknownRecords_union_le hall
      have hkept : nodeTotal (members.filter (!·.isUnknownRecord)) ≤ nodeTotal members :=
        nodeTotal_le_of_sublist List.filter_sublist
      have hfilter : ∀ member ∈ members.filter (!·.isUnknownRecord),
          member.dropUnknownRecords.nodeCount ≤ member.nodeCount :=
        fun member hmem => hle member (List.mem_filter.mp hmem).1
      rcases hn with rfl | ⟨child, hchild, hn⟩
      · obtain ⟨_, heq, ⟨record, hmem, hrecord⟩, _⟩ := hstray
        cases heq
        have hlost : nodeTotal (members.filter (!·.isUnknownRecord)) < nodeTotal members :=
          nodeTotal_filter_lt ⟨record, hmem, by simp [hrecord]⟩
        have := nodeTotal_map_le hfilter
        omega
      · have hrecord : child.isUnknownRecord = false := Bool.eq_false_iff.mpr fun hrecord =>
          not_hasStrayRecord_of_isUnknownRecord hrecord n hn hstray
        have hmem : child ∈ members.filter (!·.isUnknownRecord) :=
          List.mem_filter.mpr ⟨hchild, by simp [hrecord]⟩
        have := nodeTotal_map_lt hfilter ⟨child, hmem, ih child hchild ⟨n, hn, hstray⟩⟩
        omega
    · rw [dropUnknownRecords_of_ne_union fun members h => hunion ⟨members, h⟩]
      have hdrop := nodeCount_dropWideString_le (node.mapChildren dropUnknownRecords)
      have hmap := nodeCount_mapChildren_le dropUnknownRecords node
      rcases hn with rfl | ⟨child, hchild, hn⟩
      · obtain ⟨members, heq, _⟩ := hstray
        exact absurd ⟨members, heq⟩ hunion
      · have := nodeTotal_map_lt hle ⟨child, hchild, ih child hchild ⟨n, hn, hstray⟩⟩
        omega

end Declutter.TypeNode
