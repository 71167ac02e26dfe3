import Declutter.Proofs.LateRecords
import Declutter.Proofs.NormalForm

/-!
# Dropping records drops `string` as well

Every union and intersection that `dropUnknownRecords` rebuilds is checked for a redundant `string`
again. So nothing is gained by dropping redundant `string` members first: the result is the same,
whatever the tree looks like
(`dropUnknownRecords_subsumes_dropStringWidening`).

The two sides meet in `dropUnknownRecords_collapse`: next to a string literal, what becomes of a
compound depends on its members that are no records and no `string`, and not on whether the compound
has already collapsed to its only member.
-/

namespace Declutter

namespace TypeNode

/-! ## String literals stay -/

@[simp] theorem hasStringLiteral_collapse (kind : Compound) (members : List TypeNode) :
    (kind.collapse members).hasStringLiteral = members.any hasStringLiteral := by
  rcases kind.collapse_cases members with ⟨member, rfl, heq⟩ | ⟨_, heq⟩
  · rw [heq, List.any_cons, List.any_nil, Bool.or_false]
  · rw [heq, hasStringLiteral_node]

/-- What is dropped next to a string literal has none. -/
theorem any_hasStringLiteral_filter {p : TypeNode → Bool} {members : List TypeNode}
    (h : ∀ member ∈ members, p member = false → member.hasStringLiteral = false) :
    (members.filter p).any hasStringLiteral = members.any hasStringLiteral := by
  rw [List.any_filter, Bool.eq_iff_iff, List.any_eq_true, List.any_eq_true]
  refine exists_congr fun member => and_congr_right fun hmem => ?_
  cases hp : p member with
  | true => rw [Bool.true_and]
  | false => rw [h member hmem hp, Bool.false_and]

theorem any_hasStringLiteral_withoutWideString (members : List TypeNode) :
    (withoutWideString members).any hasStringLiteral = members.any hasStringLiteral := by
  refine any_hasStringLiteral_filter fun member _ hwide => hasStringLiteral_of_isWideString ?_
  simpa using hwide

@[simp] theorem hasStringLiteral_dropWideString (node : TypeNode) :
    node.dropWideString.hasStringLiteral = node.hasStringLiteral := by
  by_cases hcompound : node.isCompound = true
  · obtain ⟨kind, members, rfl⟩ := exists_compound hcompound
    rw [dropWideString_node]
    split
    · rw [hasStringLiteral_collapse, any_hasStringLiteral_withoutWideString, hasStringLiteral_node]
    · rfl
  · rw [narrow_of_isCompound_eq_false (by simpa using hcompound)]

theorem hasStringLiteral_dropStringWidening (node : TypeNode) :
    node.dropStringWidening.hasStringLiteral = node.hasStringLiteral :=
  hasStringLiteral_rewrite (fun _ => hasStringLiteral_dropWideString) node

theorem hasStringLiteral_dropUnknownRecords (node : TypeNode) :
    node.dropUnknownRecords.hasStringLiteral = node.hasStringLiteral := by
  induction node using inductionOn with
  | step node ih =>
    by_cases hunion : ∃ members, node = .union members
    · obtain ⟨members, rfl⟩ := hunion
      have hmap (kept : List TypeNode) (hkept : ∀ member ∈ kept, member ∈ members) :
          (kept.map dropUnknownRecords).any hasStringLiteral = kept.any hasStringLiteral :=
        any_map_congr fun member hmem => ih member (hkept member hmem)
      rw [dropUnknownRecords_union, show union = Compound.union.node from rfl,
        hasStringLiteral_node]
      split
      · rw [hasStringLiteral_node, hmap members fun _ hmem => hmem]
      · -- a record that is dropped has no string literal
        rw [hasStringLiteral_dropWideString, show ofUnion = Compound.union.collapse from rfl,
          hasStringLiteral_collapse, hmap _ fun _ hmem => List.mem_of_mem_filter hmem]
        refine any_hasStringLiteral_filter fun member _ hrecord =>
          hasStringLiteral_of_isUnknownRecord ?_
        simpa using hrecord
    · rw [dropUnknownRecords_of_ne_union fun members h => hunion ⟨members, h⟩,
        hasStringLiteral_dropWideString, hasStringLiteral_mapChildren ih]

/-! ## What dropping `string` does not touch -/

/-- What no compound and no type with a string literal has is neither won nor lost where a redundant
`string` is dropped. -/
theorem apply_dropWideString {p : TypeNode → Bool}
    (hcompound : ∀ (kind : Compound) members, p (kind.node members) = false)
    (hliteral : ∀ n : TypeNode, n.hasStringLiteral = true → p n = false) (node : TypeNode) :
    p node.dropWideString = p node := by
  by_cases hkind : node.isCompound = true
  · obtain ⟨kind, members, rfl⟩ := exists_compound hkind
    rw [hcompound, dropWideString_node]
    split
    · rename_i hany
      apply hliteral
      rw [hasStringLiteral_collapse, any_hasStringLiteral_withoutWideString, hany]
    · exact hcompound kind members
  · rw [narrow_of_isCompound_eq_false (by simpa using hkind)]

theorem isWideString_of_hasStringLiteral {node : TypeNode} (h : node.hasStringLiteral = true) :
    node.isWideString = false := by
  refine Bool.eq_false_iff.mpr fun hwide => ?_
  rw [hasStringLiteral_of_isWideString hwide] at h
  cases h

@[simp] theorem isWideString_dropWideString (node : TypeNode) :
    node.dropWideString.isWideString = node.isWideString :=
  apply_dropWideString (fun kind _ => by cases kind <;> rfl)
    (fun _ => isWideString_of_hasStringLiteral) node

theorem isWideString_dropStringWidening (node : TypeNode) :
    node.dropStringWidening.isWideString = node.isWideString :=
  isWideString_rewrite (fun _ => isWideString_dropWideString) node

theorem isKeyword_of_hasStringLiteral (word : Keyword) {node : TypeNode}
    (h : node.hasStringLiteral = true) : node.isKeyword word = false := by
  cases node with
  | keyword => simp [hasStringLiteral] at h
  | _ => rfl

theorem isKeyword_dropStringWidening (word : Keyword) (node : TypeNode) :
    node.dropStringWidening.isKeyword word = node.isKeyword word := by
  induction node using inductionOn with
  | step node ih =>
    rw [dropStringWidening_eq, apply_dropWideString (p := isKeyword word)
      (fun kind _ => by cases kind <;> rfl) (fun _ => isKeyword_of_hasStringLiteral word)]
    cases node with
    | parenthesized inner =>
      rw [mapChildren]
      refine reparenthesize_eq_false (fun _ => rfl) (fun hold => ?_) (ih inner (by simp [children]))
      rw [isKeyword_iff.mp hold]
      rfl
    | _ => rfl

theorem dropStringWidening_of_isUnknownRecord {node : TypeNode}
    (h : node.isUnknownRecord = true) : node.dropStringWidening = node := by
  rw [dropStringWidening_eq, mapChildren_eq_self]
  · obtain ⟨member, rfl, _⟩ := eq_typeLiteral_of_isUnknownRecord h
    rfl
  · rw [children_of_isUnknownRecord h]
    intro child hchild
    obtain rfl | rfl : child = .keyword .string ∨ child = .keyword .unknown := by simpa using hchild
    · rfl
    · rfl

/-- A type is an unknown record once its redundant `string` members are gone only if it was one
before. -/
theorem isUnknownRecord_dropStringWidening (node : TypeNode) :
    node.dropStringWidening.isUnknownRecord = node.isUnknownRecord := by
  induction node using inductionOn with
  | step node ih =>
    rw [dropStringWidening_eq, apply_dropWideString (fun kind _ => by cases kind <;> rfl)
      (fun _ => isUnknownRecord_of_hasStringLiteral)]
    cases node with
    | typeLiteral members =>
      rcases members with _ | ⟨first, _ | ⟨second, rest⟩⟩
      · rfl
      · exact isUnknownStringIndex_mapTypes fun type _ word => isKeyword_dropStringWidening word type
      · rfl
    | parenthesized inner =>
      rw [mapChildren]
      exact reparenthesize_eq_false (fun _ => rfl) dropStringWidening_of_isUnknownRecord
        (ih inner (by simp [children]))
    | _ => rfl

/-- What is `string` in parentheses stays that. -/
theorem isWideString_dropUnknownRecords {node : TypeNode} (h : node.isWideString = true) :
    node.dropUnknownRecords.isWideString = true := by
  induction node using inductionOn with
  | step node ih =>
    cases node with
    | parenthesized inner =>
      rw [isWideString_parenthesized] at h
      rw [dropUnknownRecords_of_ne_union (by simp), isWideString_dropWideString, mapChildren,
        isWideString_reparenthesize]
      exact ih inner (by simp [children]) h
    | keyword word => exact h
    | _ => simp [isWideString, isKeyword] at h

/-! ## Which members are left -/

/-- The members that dropping records leaves to a compound: a union loses its records. -/
def withoutRecords : Compound → List TypeNode → List TypeNode
  | .union, members => members.filter (!·.isUnknownRecord)
  | .intersection, members => members

theorem any_hasStringLiteral_withoutRecords (kind : Compound) (members : List TypeNode) :
    (withoutRecords kind members).any hasStringLiteral = members.any hasStringLiteral := by
  cases kind with
  | union =>
    refine any_hasStringLiteral_filter fun member _ hrecord =>
      hasStringLiteral_of_isUnknownRecord ?_
    simpa using hrecord
  | intersection => rfl

theorem withoutRecords_map {f : TypeNode → TypeNode} {members : List TypeNode}
    (h : ∀ member ∈ members, (f member).isUnknownRecord = member.isUnknownRecord)
    (kind : Compound) :
    withoutRecords kind (members.map f) = (withoutRecords kind members).map f := by
  cases kind with
  | union =>
    rw [withoutRecords, withoutRecords, List.filter_map]
    congr 1
    refine List.filter_congr fun member hmem => ?_
    rw [Function.comp_apply, h member hmem]
  | intersection => rfl

theorem withoutWideString_map {f : TypeNode → TypeNode} {members : List TypeNode}
    (h : ∀ member ∈ members, (f member).isWideString = member.isWideString) :
    withoutWideString (members.map f) = (withoutWideString members).map f := by
  rw [withoutWideString, withoutWideString, List.filter_map]
  congr 1
  refine List.filter_congr fun member hmem => ?_
  rw [Function.comp_apply, h member hmem]

theorem withoutRecords_withoutWideString (kind : Compound) (members : List TypeNode) :
    withoutRecords kind (withoutWideString members) =
      withoutWideString (withoutRecords kind members) := by
  cases kind with
  | union =>
    rw [withoutRecords, withoutRecords, withoutWideString, withoutWideString, List.filter_filter,
      List.filter_filter]
    exact List.filter_congr fun member _ => Bool.and_comm _ _
  | intersection => rfl

/-- What is `string` before the members are rewritten need not wait until afterwards to be
dropped. -/
theorem withoutWideString_map_withoutWideString {f : TypeNode → TypeNode}
    (h : ∀ member : TypeNode, member.isWideString = true → (f member).isWideString = true)
    (members : List TypeNode) :
    withoutWideString ((withoutWideString members).map f) = withoutWideString (members.map f) := by
  unfold withoutWideString
  rw [List.filter_map, List.filter_map, List.filter_filter]
  congr 1
  refine List.filter_congr fun member _ => ?_
  rw [Function.comp_apply]
  cases hwide : member.isWideString with
  | true => rw [h member hwide]; rfl
  | false => rw [Bool.not_false, Bool.and_true]

/-! ## Compounds with a string literal -/

/-- Next to a string literal, members that need no more dropping in them are left by a compound that
has collapsed as by one that has not. -/
theorem dropWideString_collapse (kind : Compound) {members : List TypeNode}
    (hnarrow : ∀ member ∈ members, Narrow member) (hany : members.any hasStringLiteral = true) :
    (kind.collapse members).dropWideString = kind.collapse (withoutWideString members) := by
  rcases kind.collapse_cases members with ⟨member, rfl, heq⟩ | ⟨_, heq⟩
  · have hliteral : member.hasStringLiteral = true := by simpa using hany
    have hkept : withoutWideString [member] = [member] := by
      rw [withoutWideString_eq_self_iff, List.forall_mem_singleton]
      exact isWideString_of_hasStringLiteral hliteral
    rw [hkept, heq]
    exact hnarrow member (List.mem_singleton_self member)
  · rw [heq, dropWideString_node, if_pos hany]

theorem narrow_of_mem_map_dropUnknownRecords {members : List TypeNode} :
    ∀ member ∈ members.map dropUnknownRecords, Narrow member := by
  rw [List.forall_mem_map]
  exact fun member _ => (everywhere_narrow_dropUnknownRecords member).here

theorem any_hasStringLiteral_map_dropUnknownRecords (members : List TypeNode) :
    (members.map dropUnknownRecords).any hasStringLiteral = members.any hasStringLiteral :=
  any_map_congr fun member _ => hasStringLiteral_dropUnknownRecords member

/-- What becomes of a compound with a string literal. -/
theorem dropUnknownRecords_node (kind : Compound) {members : List TypeNode}
    (hany : members.any hasStringLiteral = true) :
    (kind.node members).dropUnknownRecords =
      kind.collapse (withoutWideString ((withoutRecords kind members).map dropUnknownRecords)) := by
  have hkept : ((withoutRecords kind members).map dropUnknownRecords).any hasStringLiteral = true := by
    rw [any_hasStringLiteral_map_dropUnknownRecords, any_hasStringLiteral_withoutRecords, hany]
  cases kind with
  | union =>
    have hall : ¬members.all isUnknownRecord = true := by
      obtain ⟨literal, hmem, hliteral⟩ := List.any_eq_true.mp hany
      intro hall
      have hrecord := List.all_eq_true.mp hall literal hmem
      rw [isUnknownRecord_of_hasStringLiteral hliteral] at hrecord
      cases hrecord
    rw [Compound.node, dropUnknownRecords_union, if_neg hall]
    exact dropWideString_collapse .union narrow_of_mem_map_dropUnknownRecords hkept
  | intersection =>
    rw [withoutRecords] at hkept ⊢
    rw [dropUnknownRecords_of_ne_union (by simp [Compound.node]), Compound.mapChildren_node,
      dropWideString_node, if_pos hkept]

/-- The same becomes of a compound that has collapsed to its only member. -/
theorem dropUnknownRecords_collapse (kind : Compound) {members : List TypeNode}
    (hany : members.any hasStringLiteral = true) :
    (kind.collapse members).dropUnknownRecords =
      kind.collapse (withoutWideString ((withoutRecords kind members).map dropUnknownRecords)) := by
  rcases kind.collapse_cases members with ⟨member, rfl, heq⟩ | ⟨_, heq⟩
  · have hliteral : member.hasStringLiteral = true := by simpa using hany
    have hkept : withoutRecords kind [member] = [member] := by
      cases kind with
      | union => simp [withoutRecords, isUnknownRecord_of_hasStringLiteral hliteral]
      | intersection => rfl
    have hnew : withoutWideString [member.dropUnknownRecords] = [member.dropUnknownRecords] := by
      rw [withoutWideString_eq_self_iff, List.forall_mem_singleton]
      apply isWideString_of_hasStringLiteral
      rw [hasStringLiteral_dropUnknownRecords, hliteral]
    rw [heq, hkept, List.map_singleton, hnew]
    cases kind <;> rfl
  · rw [heq, dropUnknownRecords_node kind hany]

/-! ## Both rewritings -/

/-- A compound without its redundant `string` loses the same to both rewritings as to the second. -/
theorem dropUnknownRecords_dropWideString_node (kind : Compound) {members : List TypeNode}
    (h : ∀ member ∈ members,
      member.dropStringWidening.dropUnknownRecords = member.dropUnknownRecords) :
    (kind.node (members.map dropStringWidening)).dropWideString.dropUnknownRecords =
      (kind.node members).dropUnknownRecords := by
  have hany : (members.map dropStringWidening).any hasStringLiteral = members.any hasStringLiteral :=
    any_map_congr fun member _ => hasStringLiteral_dropStringWidening member
  have hboth (kept : List TypeNode) (hkept : ∀ member ∈ kept, member ∈ members) :
      (kept.map dropStringWidening).map dropUnknownRecords = kept.map dropUnknownRecords := by
    rw [List.map_map]
    exact List.map_congr_left fun member hmem => h member (hkept member hmem)
  have hrecord : ∀ member ∈ members,
      member.dropStringWidening.isUnknownRecord = member.isUnknownRecord :=
    fun member _ => isUnknownRecord_dropStringWidening member
  rw [dropWideString_node, hany]
  split
  · rename_i hliteral
    have hsub : ∀ member ∈ withoutWideString (withoutRecords kind members), member ∈ members := by
      intro member hmem
      have hmem := mem_of_mem_withoutWideString hmem
      cases kind with
      | union => exact List.mem_of_mem_filter hmem
      | intersection => exact hmem
    rw [dropUnknownRecords_node kind hliteral, dropUnknownRecords_collapse kind (by
        rw [any_hasStringLiteral_withoutWideString, hany, hliteral]),
      withoutRecords_withoutWideString, withoutRecords_map hrecord,
      withoutWideString_map fun member _ => isWideString_dropStringWidening member, hboth _ hsub,
      withoutWideString_map_withoutWideString fun _ => isWideString_dropUnknownRecords]
  · -- without a string literal only the members differ
    cases kind with
    | union =>
      have hall : (members.map dropStringWidening).all isUnknownRecord =
          members.all isUnknownRecord := by
        rw [List.all_map]
        exact List.all_congr rfl fun member => isUnknownRecord_dropStringWidening member
      have hkept := withoutRecords_map hrecord .union
      rw [withoutRecords, withoutRecords] at hkept
      rw [Compound.node, Compound.node, dropUnknownRecords_union, dropUnknownRecords_union, hall,
        hkept, hboth members fun _ hmem => hmem, hboth _ fun _ hmem => List.mem_of_mem_filter hmem]
    | intersection =>
      rw [Compound.node, Compound.node, dropUnknownRecords_of_ne_union (by simp),
        dropUnknownRecords_of_ne_union (by simp), mapChildren, mapChildren,
        hboth members fun _ hmem => hmem]

/-- Replacing the children of a node that is no compound. -/
theorem isCompound_mapChildren (f : TypeNode → TypeNode) {node : TypeNode}
    (h : node.isCompound = false) : (node.mapChildren f).isCompound = false := by
  cases node with
  | union => cases h
  | intersection => cases h
  | parenthesized inner =>
    rw [mapChildren]
    rcases reparenthesize_cases_of_isCompound inner (f inner) with heq | ⟨heq, hnew⟩
    · rw [heq]; rfl
    · rw [heq, hnew]
  | _ => rfl

theorem dropUnknownRecords_of_isCompound_eq_false {node : TypeNode}
    (h : node.isCompound = false) :
    node.dropUnknownRecords = node.mapChildren dropUnknownRecords := by
  rw [dropUnknownRecords_of_ne_union (isNoUnion_of_isCompound_eq_false h)]
  exact narrow_of_isCompound_eq_false (isCompound_mapChildren _ h)

theorem dropStringWidening_of_isCompound_eq_false {node : TypeNode}
    (h : node.isCompound = false) :
    node.dropStringWidening = node.mapChildren dropStringWidening := by
  rw [dropStringWidening_eq]
  exact narrow_of_isCompound_eq_false (isCompound_mapChildren _ h)

theorem parenthesize_of_isCompound_eq_false {node : TypeNode} (h : node.isCompound = false) :
    node.parenthesize = node := by
  cases node with
  | union => cases h
  | intersection => cases h
  | _ => rfl

/-- Parentheses around a compound are derived again as if they had not been there. -/
theorem reparenthesize_of_isCompound {old : TypeNode} (h : old.isCompound = true)
    (new : TypeNode) : reparenthesize old new = new.parenthesize := by
  rw [reparenthesize]
  split
  · rename_i heq
    rw [heq]
    cases old with
    | union => rfl
    | intersection => rfl
    | _ => cases h
  · rfl

/-- Parentheses are derived again from what both rewritings leave in them. -/
theorem dropUnknownRecords_dropStringWidening_parenthesized {inner : TypeNode}
    (h : inner.dropStringWidening.dropUnknownRecords = inner.dropUnknownRecords) :
    (parenthesized inner).dropStringWidening.dropUnknownRecords =
      (parenthesized inner).dropUnknownRecords := by
  rw [dropStringWidening_of_isCompound_eq_false rfl, mapChildren]
  by_cases hsame : inner.dropStringWidening = inner
  · rw [hsame, reparenthesize_self]
  · -- what changes by losing a `string` is changed by the second rewriting as well
    have hchanged : inner.dropUnknownRecords ≠ inner := by
      intro heq
      apply hsame
      apply dropStringWidening_eq_self
      rw [← heq]
      exact everywhere_narrow_dropUnknownRecords inner
    have hright : (parenthesized inner).dropUnknownRecords = inner.dropUnknownRecords.parenthesize := by
      rw [dropUnknownRecords_of_isCompound_eq_false rfl, mapChildren, reparenthesize,
        if_neg hchanged]
    rw [hright, reparenthesize, if_neg hsame]
    cases hkind : inner.dropStringWidening.isCompound with
    | true =>
      obtain ⟨kind, members, heq⟩ := exists_compound hkind
      have hwrapped : inner.dropStringWidening.parenthesize =
          .parenthesized inner.dropStringWidening := by
        rw [heq]
        cases kind <;> rfl
      rw [hwrapped, dropUnknownRecords_of_isCompound_eq_false rfl, mapChildren,
        reparenthesize_of_isCompound hkind, h]
    | false =>
      have hsimple : inner.dropUnknownRecords.isCompound = false := by
        rw [← h, dropUnknownRecords_of_isCompound_eq_false hkind]
        exact isCompound_mapChildren _ hkind
      rw [parenthesize_of_isCompound_eq_false hkind, h, parenthesize_of_isCompound_eq_false hsimple]

/-- Dropping redundant `string` members first does not change what dropping records leaves. -/
theorem dropUnknownRecords_dropStringWidening (node : TypeNode) :
    node.dropStringWidening.dropUnknownRecords = node.dropUnknownRecords := by
  induction node using inductionOn with
  | step node ih =>
    by_cases hkind : node.isCompound = true
    · obtain ⟨kind, members, rfl⟩ := exists_compound hkind
      rw [Compound.children_node] at ih
      rw [dropStringWidening_eq, Compound.mapChildren_node]
      exact dropUnknownRecords_dropWideString_node kind ih
    · rw [Bool.not_eq_true] at hkind
      by_cases hparen : ∃ inner, node = .parenthesized inner
      · obtain ⟨inner, rfl⟩ := hparen
        exact dropUnknownRecords_dropStringWidening_parenthesized (ih inner (by simp [children]))
      · rw [dropStringWidening_of_isCompound_eq_false hkind,
          dropUnknownRecords_of_isCompound_eq_false hkind,
          dropUnknownRecords_of_isCompound_eq_false (isCompound_mapChildren _ hkind),
          mapChildren_mapChildren fun inner heq => hparen ⟨inner, heq⟩]
        exact mapChildren_congr ih

end TypeNode

/-! ## Files -/

/-- Dropping unknown records drops redundant `string` members too, in every file. -/
theorem SourceFile.dropUnknownRecords_subsumes_dropStringWidening (file : SourceFile) :
    file.dropStringWidening.dropUnknownRecords = file.dropUnknownRecords := by
  have hstatement (statement : Statement) :
      (statement.mapTypes TypeNode.dropStringWidening).mapTypes TypeNode.dropUnknownRecords =
        statement.mapTypes TypeNode.dropUnknownRecords := by
    rw [Statement.mapTypes_mapTypes]
    exact Statement.mapTypes_congr fun type _ => type.dropUnknownRecords_dropStringWidening
  rw [dropStringWidening, dropUnknownRecords, dropUnknownRecords, mapTypes, mapTypes, mapTypes,
    List.map_map]
  congr 1
  exact List.map_congr_left fun statement _ => hstatement statement

end Declutter
