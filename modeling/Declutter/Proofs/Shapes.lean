import Declutter.Proofs.StrayRecords
import Declutter.Rewrite.IndexSignatures

/-!
# Shapes without unknown index signatures

`dropUnknownIndex` changes only what members shapes have. So it keeps what the earlier rewritings
have reached: whether a type is `string`, has a string literal or is an unknown record stays the
same, and with it narrow nodes stay narrow and lone members what they are. Its own result is
stripped: a second run finds nothing to drop.
-/

namespace Declutter

/-- A shape loses its unknown index signatures if it has other members. -/
theorem keptShape_map (f : TypeMember → TypeMember) (members : List TypeMember) :
    keptShape members (members.map f) =
      if members.all (·.isUnknownStringIndex) then members.map f
      else (members.filter (!·.isUnknownStringIndex)).map f := by
  unfold keptShape
  rw [TypeNode.filterMap_zip_map TypeMember.isUnknownStringIndex f fun _ _ => rfl]
  by_cases hall : members.all (·.isUnknownStringIndex) = true
  · rw [if_pos hall, if_pos]
    rw [List.isEmpty_iff, List.map_eq_nil_iff, List.filter_eq_nil_iff]
    intro member hmem
    simp [List.all_eq_true.mp hall member hmem]
  · rw [if_neg hall, if_neg]
    rw [List.isEmpty_iff, List.map_eq_nil_iff, List.filter_eq_nil_iff]
    exact fun hnone => hall (List.all_eq_true.mpr fun member hmem => by
      simpa using hnone member hmem)

theorem keptShape_map_sublist (f : TypeMember → TypeMember) (members : List TypeMember) :
    (keptShape members (members.map f)).Sublist (members.map f) := by
  rw [keptShape_map]
  split
  · exact List.Sublist.refl _
  · exact List.filter_sublist.map f

/-- A shape that has no unknown index signature to lose. -/
def StrippedShape (members : List TypeMember) : Prop := keptShape members members = members

theorem strippedShape_iff {members : List TypeMember} :
    StrippedShape members ↔ members.all (·.isUnknownStringIndex) = true ∨
      ∀ member ∈ members, member.isUnknownStringIndex = false := by
  have heq := keptShape_map (fun member => member) members
  rw [List.map_id', List.map_id'] at heq
  rw [StrippedShape, heq]
  split
  · rename_i hall
    exact iff_of_true rfl (.inl hall)
  · rename_i hall
    rw [List.filter_eq_self]
    constructor
    · exact fun h => .inr fun member hmem => by simpa using h member hmem
    · rintro (h | h)
      · exact absurd h hall
      · exact fun member hmem => by rw [h member hmem]; rfl

/-- What is left of a shape has nothing more to lose, if the members keep being unknown index
signatures or not. -/
theorem strippedShape_keptShape_map {f : TypeMember → TypeMember} {members : List TypeMember}
    (h : ∀ member ∈ members, (f member).isUnknownStringIndex = member.isUnknownStringIndex) :
    StrippedShape (keptShape members (members.map f)) := by
  rw [strippedShape_iff, keptShape_map]
  split
  · rename_i hall
    refine .inl (List.all_eq_true.mpr fun new hnew => ?_)
    obtain ⟨member, hmem, rfl⟩ := List.mem_map.mp hnew
    rw [h member hmem]
    exact List.all_eq_true.mp hall member hmem
  · refine .inr fun new hnew => ?_
    obtain ⟨member, hmem, rfl⟩ := List.mem_map.mp hnew
    obtain ⟨hmem, hindex⟩ := List.mem_filter.mp hmem
    rw [h member hmem]
    simpa using hindex

namespace TypeNode

theorem dropIndex_typeLiteral (old new : List TypeMember) :
    dropIndex (.typeLiteral old) (.typeLiteral new) = .typeLiteral (keptShape old new) := rfl

theorem dropIndex_of_ne_typeLiteral {node : TypeNode} (h : ∀ members, node ≠ .typeLiteral members)
    (new : TypeNode) : dropIndex node new = new := by
  unfold dropIndex
  split
  · exact absurd rfl (h _)
  · rfl

theorem dropUnknownIndex_typeLiteral (members : List TypeMember) :
    (typeLiteral members).dropUnknownIndex =
      .typeLiteral (keptShape members (members.map (·.mapTypes dropUnknownIndex))) := by
  rw [dropUnknownIndex_eq, mapChildren, dropIndex_typeLiteral]

theorem dropUnknownIndex_of_ne_typeLiteral {node : TypeNode}
    (h : ∀ members, node ≠ .typeLiteral members) :
    node.dropUnknownIndex = node.mapChildren dropUnknownIndex := by
  rw [dropUnknownIndex_eq, dropIndex_of_ne_typeLiteral h]

/-! ## What stays the same of a type -/

/-- A shape that loses members is a shape. -/
theorem dropIndex_cases (old new : TypeNode) :
    dropIndex old new = new ∨
      ∃ members left, new = .typeLiteral members ∧ dropIndex old new = .typeLiteral left := by
  unfold dropIndex
  split
  · exact .inr ⟨_, _, rfl, rfl⟩
  · exact .inl rfl

theorem hasStringLiteral_dropUnknownIndex (node : TypeNode) :
    node.dropUnknownIndex.hasStringLiteral = node.hasStringLiteral := by
  apply hasStringLiteral_rewrite
  intro old new
  rcases dropIndex_cases old new with heq | ⟨members, left, rfl, heq⟩
  · rw [heq]
  · rw [heq, hasStringLiteral, hasStringLiteral]
    all_goals simp

theorem isWideString_dropUnknownIndex (node : TypeNode) :
    node.dropUnknownIndex.isWideString = node.isWideString := by
  apply isWideString_rewrite
  intro old new
  rcases dropIndex_cases old new with heq | ⟨members, left, rfl, heq⟩
  · rw [heq]
  · rw [heq]
    rfl

/-- New contents do not turn parentheses into a type that stays as it is. -/
theorem reparenthesize_eq_false {p : TypeNode → Bool} {old new : TypeNode}
    (hparen : ∀ n, p (.parenthesized n) = false) (hfixed : p old = true → new = old)
    (hnew : p new = p old) : p (reparenthesize old new) = false := by
  by_cases heq : new = old
  · rw [heq, reparenthesize_self]
    exact hparen old
  · have hfalse : p new = false := by
      rw [hnew]
      exact Bool.eq_false_iff.mpr fun hold => heq (hfixed hold)
    rcases reparenthesize_cases old new with hcase | hcase
    · rw [hcase]; exact hparen new
    · rw [hcase]; exact hfalse

theorem isKeyword_dropUnknownIndex (word : Keyword) (node : TypeNode) :
    node.dropUnknownIndex.isKeyword word = node.isKeyword word := by
  induction node using inductionOn with
  | step node ih =>
    by_cases hshape : ∃ members, node = .typeLiteral members
    · obtain ⟨members, rfl⟩ := hshape
      rw [dropUnknownIndex_typeLiteral]
      rfl
    · rw [dropUnknownIndex_of_ne_typeLiteral fun members h => hshape ⟨members, h⟩]
      cases node with
      | parenthesized inner =>
        rw [mapChildren]
        refine reparenthesize_eq_false (fun _ => rfl) (fun hold => ?_) (ih inner (by simp [children]))
        rw [isKeyword_iff.mp hold]
        rfl
      | _ => rfl

theorem isUnknownStringIndex_mapTypes {f : TypeNode → TypeNode} {member : TypeMember}
    (h : ∀ type ∈ member.types, ∀ word, (f type).isKeyword word = type.isKeyword word) :
    (member.mapTypes f).isUnknownStringIndex = member.isUnknownStringIndex := by
  cases member with
  | property => rfl
  | index i =>
    rw [TypeMember.mapTypes, TypeMember.isUnknownStringIndex, TypeMember.isUnknownStringIndex,
      h i.key (by simp [TypeMember.types]), h i.value (by simp [TypeMember.types])]

theorem isUnknownStringIndex_dropUnknownIndex (member : TypeMember) :
    (member.mapTypes dropUnknownIndex).isUnknownStringIndex = member.isUnknownStringIndex :=
  isUnknownStringIndex_mapTypes fun type _ word => isKeyword_dropUnknownIndex word type

theorem dropUnknownIndex_of_isUnknownRecord {node : TypeNode} (h : node.isUnknownRecord = true) :
    node.dropUnknownIndex = node := by
  have hchildren : node.mapChildren dropUnknownIndex = node := by
    apply mapChildren_eq_self
    rw [children_of_isUnknownRecord h]
    intro child hchild
    obtain rfl | rfl : child = .keyword .string ∨ child = .keyword .unknown := by simpa using hchild
    · rfl
    · rfl
  obtain ⟨member, rfl, hindex⟩ := eq_typeLiteral_of_isUnknownRecord h
  rw [dropUnknownIndex_eq, hchildren, dropIndex_typeLiteral]
  rw [show keptShape [member] [member] = [member] from strippedShape_iff.mpr (.inl (by simpa))]

theorem isUnknownRecord_eq_false {members : List TypeMember} {member : TypeMember}
    (hmem : member ∈ members) (h : member.isUnknownStringIndex = false) :
    (typeLiteral members).isUnknownRecord = false := by
  refine Bool.eq_false_iff.mpr fun hrecord => ?_
  obtain ⟨only, heq, hindex⟩ := eq_typeLiteral_of_isUnknownRecord hrecord
  rw [typeLiteral.injEq] at heq
  rw [heq, List.mem_singleton] at hmem
  rw [hmem, hindex] at h
  cases h

theorem isUnknownRecord_dropUnknownIndex (node : TypeNode) :
    node.dropUnknownIndex.isUnknownRecord = node.isUnknownRecord := by
  induction node using inductionOn with
  | step node ih =>
    cases node with
    | typeLiteral members =>
      rw [dropUnknownIndex_typeLiteral, keptShape_map]
      split
      · rcases members with _ | ⟨first, _ | ⟨second, rest⟩⟩
        · rfl
        · exact isUnknownStringIndex_dropUnknownIndex first
        · rfl
      · rename_i hall
        -- a member that is no unknown index signature stands before and after
        obtain ⟨member, hmem, hindex⟩ : ∃ member ∈ members,
            member.isUnknownStringIndex = false := by simpa using hall
        have hkept : member.mapTypes dropUnknownIndex ∈
            (members.filter (!·.isUnknownStringIndex)).map (·.mapTypes dropUnknownIndex) :=
          List.mem_map_of_mem (List.mem_filter.mpr ⟨hmem, by rw [hindex]; rfl⟩)
        have hnew : (member.mapTypes dropUnknownIndex).isUnknownStringIndex = false := by
          rw [isUnknownStringIndex_dropUnknownIndex, hindex]
        rw [isUnknownRecord_eq_false hmem hindex, isUnknownRecord_eq_false hkept hnew]
    | parenthesized inner =>
      rw [dropUnknownIndex_of_ne_typeLiteral (by simp), mapChildren]
      exact reparenthesize_eq_false (fun _ => rfl) dropUnknownIndex_of_isUnknownRecord
        (ih inner (by simp [children]))
    | _ =>
      rw [dropUnknownIndex_of_ne_typeLiteral (by simp)]
      rfl

/-! ## Stripped types -/

/-- A node that is no shape with unknown index signatures to lose. -/
def Stripped (node : TypeNode) : Prop := dropIndex node node = node

theorem stripped_of_ne_typeLiteral {node : TypeNode} (h : ∀ members, node ≠ .typeLiteral members) :
    Stripped node := dropIndex_of_ne_typeLiteral h node

theorem stripped_typeLiteral_iff {members : List TypeMember} :
    Stripped (.typeLiteral members) ↔ StrippedShape members := by
  rw [Stripped, dropIndex_typeLiteral, StrippedShape, typeLiteral.injEq]

/-- What is left of a shape holds what the types of its rewritten members hold. -/
theorem everywhere_types_keptShape {P : TypeNode → Prop} {f : TypeNode → TypeNode}
    {members : List TypeMember}
    (h : ∀ type ∈ members.flatMap (·.types), Everywhere P (f type)) :
    ∀ type ∈ (keptShape members (members.map (·.mapTypes f))).flatMap (·.types),
      Everywhere P type := by
  intro type htype
  obtain ⟨new, hnew, htype⟩ := List.mem_flatMap.mp htype
  obtain ⟨member, hmem, rfl⟩ := List.mem_map.mp ((keptShape_map_sublist _ members).mem hnew)
  rw [types_mapTypes] at htype
  obtain ⟨old, hold, rfl⟩ := List.mem_map.mp htype
  exact h old (List.mem_flatMap.mpr ⟨member, hmem, hold⟩)

/-- A property that words of the language, shapes and parentheses have, whatever they hold. -/
structure HoldsOfSimple (P : TypeNode → Prop) : Prop where
  keyword : ∀ word, P (.keyword word)
  typeLiteral : ∀ members, P (.typeLiteral members)
  parenthesized : ∀ inner, P (.parenthesized inner)

/-- What only unions can lack. -/
theorem holdsOfSimple_of_ne_union {P : TypeNode → Prop}
    (h : ∀ n, (∀ members, n ≠ .union members) → P n) : HoldsOfSimple P where
  keyword _ := h _ (by simp)
  typeLiteral _ := h _ (by simp)
  parenthesized _ := h _ (by simp)

section

variable {P : TypeNode → Prop} (h : HoldsOfSimple P)
include h

theorem everywhere_keyword (word : Keyword) : Everywhere P (.keyword word) := by
  rw [everywhere_iff]
  exact ⟨h.keyword word, by simp [children]⟩

theorem everywhere_of_isUnknownRecord {node : TypeNode} (hrecord : node.isUnknownRecord = true) :
    Everywhere P node := by
  have hchildren := children_of_isUnknownRecord hrecord
  obtain ⟨member, rfl, _⟩ := eq_typeLiteral_of_isUnknownRecord hrecord
  rw [everywhere_iff, hchildren]
  refine ⟨h.typeLiteral _, fun child hchild => ?_⟩
  obtain rfl | rfl : child = .keyword .string ∨ child = .keyword .unknown := by simpa using hchild
  · exact everywhere_keyword h _
  · exact everywhere_keyword h _

theorem everywhere_of_isWideString {node : TypeNode} (hwide : node.isWideString = true) :
    Everywhere P node := by
  induction node using inductionOn with
  | step node ih =>
    cases node with
    | parenthesized inner =>
      rw [isWideString_parenthesized] at hwide
      rw [everywhere_iff]
      exact ⟨h.parenthesized inner, by simpa [children] using ih inner (by simp [children]) hwide⟩
    | keyword word => exact everywhere_keyword h word
    | _ => simp [isWideString, isKeyword] at hwide

/-- The types of what a shape loses are words of the language. -/
theorem everywhere_types_keptShape_iff (members : List TypeMember) :
    (∀ type ∈ (keptShape members (members.map (·.mapTypes dropUnknownIndex))).flatMap (·.types),
        Everywhere P type) ↔
      ∀ type ∈ members.flatMap (·.types), Everywhere P type.dropUnknownIndex := by
  refine ⟨fun hkept type htype => ?_, everywhere_types_keptShape⟩
  obtain ⟨member, hmem, htype⟩ := List.mem_flatMap.mp htype
  cases hindex : member.isUnknownStringIndex with
  | true =>
    rw [types_of_isUnknownStringIndex hindex] at htype
    obtain rfl | rfl : type = .keyword .string ∨ type = .keyword .unknown := by simpa using htype
    · exact everywhere_keyword h _
    · exact everywhere_keyword h _
  | false =>
    have hstays : member.mapTypes dropUnknownIndex ∈
        keptShape members (members.map (·.mapTypes dropUnknownIndex)) := by
      rw [keptShape_map]
      split
      · exact List.mem_map_of_mem hmem
      · exact List.mem_map_of_mem (List.mem_filter.mpr ⟨hmem, by rw [hindex]; rfl⟩)
    refine hkept _ (List.mem_flatMap.mpr ⟨_, hstays, ?_⟩)
    rw [types_mapTypes]
    exact List.mem_map_of_mem htype

end

/-- Dropping unknown index signatures leaves stripped nodes. -/
theorem everywhere_stripped_dropUnknownIndex (node : TypeNode) :
    Everywhere Stripped node.dropUnknownIndex := by
  induction node using inductionOn with
  | step node ih =>
    cases node with
    | typeLiteral members =>
      rw [dropUnknownIndex_typeLiteral, everywhere_iff, stripped_typeLiteral_iff]
      exact ⟨strippedShape_keptShape_map fun member _ => isUnknownStringIndex_dropUnknownIndex member,
        everywhere_types_keptShape ih⟩
    | parenthesized inner =>
      rw [dropUnknownIndex_of_ne_typeLiteral (by simp), mapChildren]
      exact everywhere_reparenthesize (fun n => stripped_of_ne_typeLiteral (by simp)) inner
        (ih inner (by simp [children]))
    | _ =>
      rw [dropUnknownIndex_of_ne_typeLiteral (by simp), everywhere_iff]
      exact ⟨stripped_of_ne_typeLiteral (by simp [mapChildren]), everywhere_children_mapChildren ih⟩

/-- A type of stripped nodes has nothing to lose. -/
theorem dropUnknownIndex_eq_self {node : TypeNode} (h : Everywhere Stripped node) :
    node.dropUnknownIndex = node := rewrite_eq_self h

/-! ## What earlier rewritings have reached -/

/-- Properties of unions and intersections that only depend on what stays the same of their
members are kept. -/
theorem everywhere_dropUnknownIndex {P : TypeNode → Prop}
    (hsimple : ∀ n, n.isCompound = false → P n)
    (hcompound : ∀ (kind : Compound) members, P (kind.node members) →
      P (kind.node (members.map dropUnknownIndex))) {node : TypeNode} (h : Everywhere P node) :
    Everywhere P node.dropUnknownIndex := by
  refine everywhere_rewrite_of_everywhere (fun node hnode hchildren => ?_) h
  by_cases hkind : node.isCompound = true
  · obtain ⟨kind, members, rfl⟩ := exists_compound hkind
    rw [Compound.mapChildren_node, dropIndex_of_ne_typeLiteral (by cases kind <;> simp [Compound.node]),
      everywhere_iff, Compound.children_node, List.forall_mem_map]
    exact ⟨hcompound kind members hnode, by simpa using hchildren⟩
  · cases node with
    | union => simp [isCompound] at hkind
    | intersection => simp [isCompound] at hkind
    | typeLiteral members =>
      rw [mapChildren, dropIndex_typeLiteral, everywhere_iff]
      exact ⟨hsimple _ rfl, everywhere_types_keptShape hchildren⟩
    | parenthesized inner =>
      rw [dropIndex_of_ne_typeLiteral (by simp), mapChildren]
      exact everywhere_reparenthesize (fun n => hsimple _ rfl) inner
        (hchildren inner (by simp [children]))
    | _ =>
      rw [dropIndex_of_ne_typeLiteral (by simp), everywhere_iff]
      exact ⟨hsimple _ rfl, everywhere_children_mapChildren hchildren⟩

/-- Narrow nodes stay narrow. -/
theorem everywhere_narrow_dropUnknownIndex {node : TypeNode} (h : Everywhere Narrow node) :
    Everywhere Narrow node.dropUnknownIndex := by
  refine everywhere_dropUnknownIndex (fun n => narrow_of_isCompound_eq_false) ?_ h
  intro kind members hnarrow
  rw [narrow_node_iff] at hnarrow ⊢
  rw [any_map_congr fun member _ => hasStringLiteral_dropUnknownIndex member, List.length_map,
    List.forall_mem_map]
  simpa only [isWideString_dropUnknownIndex] using hnarrow

/-- Lone members stay what they are. -/
theorem everywhere_noLoneMember_dropUnknownIndex {node : TypeNode}
    (h : Everywhere NoLoneMember node) : Everywhere NoLoneMember node.dropUnknownIndex := by
  refine everywhere_dropUnknownIndex (fun n hn => noLoneMember_of_ne_union ?_) ?_ h
  · rintro members rfl
    cases hn
  · intro kind members hlone member heq
    cases kind with
    | intersection => cases heq
    | union =>
      obtain ⟨old, rfl, rfl⟩ : ∃ old, members = [old] ∧ old.dropUnknownIndex = member := by
        simpa [Compound.node, List.map_eq_singleton_iff] using heq
      rw [isUnknownRecord_dropUnknownIndex]
      exact hlone old rfl

theorem nodeCount_dropUnknownIndex_le (node : TypeNode) :
    node.dropUnknownIndex.nodeCount ≤ node.nodeCount := by
  induction node using inductionOn with
  | step node ih =>
    have hchildren := nodeTotal_map_le ih
    have hnode := nodeCount_eq node
    have hmap := nodeCount_mapChildren_le dropUnknownIndex node
    by_cases hshape : ∃ members, node = .typeLiteral members
    · obtain ⟨members, rfl⟩ := hshape
      have hkept : nodeTotal ((keptShape members
          (members.map (·.mapTypes dropUnknownIndex))).flatMap (·.types)) ≤
            nodeTotal ((members.map (·.mapTypes dropUnknownIndex)).flatMap (·.types)) := by
        apply nodeTotal_le_of_sublist
        exact (keptShape_map_sublist _ members).flatMap (·.types)
      have hnew := nodeCount_eq (typeLiteral (members.map (·.mapTypes dropUnknownIndex)))
      rw [children] at hnew
      rw [mapChildren] at hmap
      rw [dropUnknownIndex_typeLiteral, nodeCount_eq, children]
      omega
    · rw [dropUnknownIndex_of_ne_typeLiteral fun members h => hshape ⟨members, h⟩]
      omega

end TypeNode

end Declutter
