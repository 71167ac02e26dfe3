import Declutter.Proofs.Clashes
import Declutter.Proofs.Subsumption

/-!
# What the clean-up cannot mend

The clean-up removes nodes, but only from types without defects: a `string` next to a literal, an
unknown record, an index signature of two keywords. It makes no empty union, since a literal stays
next to a `string` that goes, and it touches no reference. So a file is accepted after the clean-up
exactly if it would have been accepted before it: `check_cleanUp_iff`. Merging unions cannot
mend anything either, since the check asks of an intersection what it asks of a union:
`check_mergeRootUnions_iff`.

Both are cases of properties that are `Inherent`: replacing the children of a node does not change
whether it has them, and of a compound they only say that it has members.
-/

namespace Declutter

namespace TypeNode

/-- A property of nodes that does not look at the children of a node, apart from whether a compound
has any. -/
structure Inherent (P : TypeNode → Prop) : Prop extends HoldsOfSimple P where
  node_iff : ∀ (kind : Compound) members, P (kind.node members) ↔ members ≠ []
  mapChildren_iff : ∀ (f : TypeNode → TypeNode) {node : TypeNode}, node.isCompound = false →
    (∀ inner, node ≠ .parenthesized inner) → (P (node.mapChildren f) ↔ P node)

/-- The check of a node looks at its name and at whether it has members. -/
theorem inherent_defect? (before now : List String) :
    Inherent fun node => node.defect? before now = none where
  keyword _ := rfl
  typeLiteral _ := rfl
  parenthesized _ := rfl
  node_iff kind members := by
    cases members with
    | nil => cases kind <;> simp [Compound.node, defect?]
    | cons => cases kind <;> simp [Compound.node, defect?]
  mapChildren_iff f node hcompound hparen := by
    cases node with
    | union => cases hcompound
    | intersection => cases hcompound
    | parenthesized inner => exact absurd rfl (hparen inner)
    | _ => rfl

section Inherent

variable {P : TypeNode → Prop} (h : Inherent P)
include h

theorem everywhere_node_iff (kind : Compound) (members : List TypeNode) :
    Everywhere P (kind.node members) ↔
      members ≠ [] ∧ ∀ member ∈ members, Everywhere P member := by
  rw [everywhere_iff, h.node_iff, Compound.children_node]

/-- A compound of members, or the only one of them. -/
theorem everywhere_collapse_iff (kind : Compound) (members : List TypeNode) :
    Everywhere P (kind.collapse members) ↔
      members ≠ [] ∧ ∀ member ∈ members, Everywhere P member := by
  rcases kind.collapse_cases members with ⟨member, rfl, heq⟩ | ⟨_, heq⟩
  · rw [heq, List.forall_mem_singleton]
    exact (and_iff_right (by simp)).symm
  · rw [heq, everywhere_node_iff h]

/-- A node with replaced children has what it had, and what the new children have. -/
theorem everywhere_mapChildren_iff_of_inherent (f : TypeNode → TypeNode) (node : TypeNode) :
    Everywhere P (node.mapChildren f) ↔
      P node ∧ ∀ child ∈ node.children, Everywhere P (f child) := by
  refine everywhere_mapChildren_iff h.parenthesized fun hparen => ?_
  by_cases hcompound : node.isCompound = true
  · obtain ⟨kind, members, rfl⟩ := exists_compound hcompound
    rw [Compound.mapChildren_node, h.node_iff, h.node_iff, Ne, List.map_eq_nil_iff]
  · exact h.mapChildren_iff f (by simpa using hcompound) hparen

/-- A rule that keeps what is inherent in the node it is given keeps what is inherent in a type. -/
theorem everywhere_rewrite_iff {rule : TypeNode → TypeNode}
    (hrule : ∀ node, Everywhere P (rule node) ↔ Everywhere P node) (node : TypeNode) :
    Everywhere P (node.rewrite fun _ new => rule new) ↔ Everywhere P node := by
  induction node using inductionOn with
  | step node ih =>
    rw [rewrite_eq, hrule, everywhere_mapChildren_iff_of_inherent h, everywhere_iff]
    exact and_congr_right' (forall₂_congr ih)

/-! ### The rewritings -/

theorem everywhere_dropWideString_iff (node : TypeNode) :
    Everywhere P node.dropWideString ↔ Everywhere P node := by
  by_cases hcompound : node.isCompound = true
  · obtain ⟨kind, members, rfl⟩ := exists_compound hcompound
    rw [dropWideString_node]
    by_cases hany : members.any hasStringLiteral = true
    · have hkept : withoutWideString members ≠ [] := withoutWideString_ne_nil hany
      have hmembers : members ≠ [] := by
        intro heq
        rw [heq] at hany
        cases hany
      rw [if_pos hany, everywhere_collapse_iff h, everywhere_node_iff h, and_iff_right hkept,
        and_iff_right hmembers]
      refine ⟨fun hall member hmem => ?_, fun hall member hmem =>
        hall member (mem_of_mem_withoutWideString hmem)⟩
      -- a `string` that goes is a keyword in parentheses
      by_cases hwide : member.isWideString = true
      · exact everywhere_of_isWideString h.toHoldsOfSimple hwide
      · exact hall member (List.mem_filter.mpr ⟨hmem, by simpa using hwide⟩)
    · rw [if_neg hany]
  · rw [narrow_of_isCompound_eq_false (by simpa using hcompound)]

theorem everywhere_dropStringWidening_iff (node : TypeNode) :
    Everywhere P node.dropStringWidening ↔ Everywhere P node :=
  everywhere_rewrite_iff h (everywhere_dropWideString_iff h) node

theorem everywhere_dropUnknownRecords_iff (node : TypeNode) :
    Everywhere P node.dropUnknownRecords ↔ Everywhere P node := by
  induction node using inductionOn with
  | step node ih =>
    by_cases hunion : ∃ members, node = .union members
    · obtain ⟨members, rfl⟩ := hunion
      have hnode := everywhere_node_iff h .union members
      rw [Compound.node] at hnode
      rw [dropUnknownRecords_union, hnode]
      split
      · rw [show union = Compound.union.node from rfl, everywhere_node_iff h, Ne,
          List.map_eq_nil_iff, List.forall_mem_map]
        exact and_congr_right' (forall₂_congr ih)
      · rename_i hall
        -- a member that is no record is there before and after
        obtain ⟨member, hmem, hnone⟩ : ∃ member ∈ members, member.isUnknownRecord = false := by
          simpa using hall
        have hkept : member ∈ members.filter (!·.isUnknownRecord) :=
          List.mem_filter.mpr ⟨hmem, by rw [hnone]; rfl⟩
        have hne : (members.filter (!·.isUnknownRecord)).map dropUnknownRecords ≠ [] :=
          List.ne_nil_of_mem (List.mem_map_of_mem hkept)
        rw [everywhere_dropWideString_iff h, show ofUnion = Compound.union.collapse from rfl,
          everywhere_collapse_iff h, and_iff_right hne, and_iff_right (List.ne_nil_of_mem hmem),
          List.forall_mem_map]
        refine ⟨fun hall other hother => ?_, fun hall other hother => ?_⟩
        · by_cases hrecord : other.isUnknownRecord = true
          · exact everywhere_of_isUnknownRecord h.toHoldsOfSimple hrecord
          · apply (ih other hother).mp
            exact hall other (List.mem_filter.mpr ⟨hother, by simpa using hrecord⟩)
        · have hother := List.mem_of_mem_filter hother
          exact (ih other hother).mpr (hall other hother)
    · rw [dropUnknownRecords_of_ne_union fun members heq => hunion ⟨members, heq⟩,
        everywhere_dropWideString_iff h, everywhere_mapChildren_iff_of_inherent h, everywhere_iff]
      exact and_congr_right' (forall₂_congr ih)

theorem everywhere_dropUnknownIndex_iff (node : TypeNode) :
    Everywhere P node.dropUnknownIndex ↔ Everywhere P node := by
  induction node using inductionOn with
  | step node ih =>
    by_cases hshape : ∃ members, node = .typeLiteral members
    · obtain ⟨members, rfl⟩ := hshape
      rw [dropUnknownIndex_typeLiteral, everywhere_iff, everywhere_iff, children, children,
        everywhere_types_keptShape_iff h.toHoldsOfSimple]
      exact and_congr (iff_of_true (h.typeLiteral _) (h.typeLiteral _)) (forall₂_congr ih)
    · rw [dropUnknownIndex_of_ne_typeLiteral fun members heq => hshape ⟨members, heq⟩,
        everywhere_mapChildren_iff_of_inherent h, everywhere_iff]
      exact and_congr_right' (forall₂_congr ih)

theorem everywhere_mergeUnions_iff (node : TypeNode) :
    Everywhere P node.mergeUnions ↔ Everywhere P node := by
  refine everywhere_rewrite_iff h (fun n => ?_) node
  cases n with
  | union members =>
    rw [unionAsIntersection, show intersection = Compound.intersection.node from rfl,
      show union = Compound.union.node from rfl, everywhere_node_iff h, everywhere_node_iff h]
  | _ => rfl

end Inherent

end TypeNode

/-! ## Statements -/

namespace Statement

theorem everywhere_types_mapTypes_iff {P : TypeNode → Prop} {f : TypeNode → TypeNode}
    (hf : ∀ type, TypeNode.Everywhere P (f type) ↔ TypeNode.Everywhere P type)
    (statement : Statement) :
    (∀ type ∈ (statement.mapTypes f).types, TypeNode.Everywhere P type) ↔
      ∀ type ∈ statement.types, TypeNode.Everywhere P type := by
  rw [types_mapTypes, List.forall_mem_map]
  exact forall₂_congr fun type _ => hf type

theorem everywhere_types_cleanUp_iff {P : TypeNode → Prop} (h : TypeNode.Inherent P)
    (statement : Statement) :
    (∀ type ∈ statement.cleanUp.types, TypeNode.Everywhere P type) ↔
      ∀ type ∈ statement.types, TypeNode.Everywhere P type := by
  rw [cleanUp, everywhere_types_dropUnknownIndex_iff h.toHoldsOfSimple
      (TypeNode.everywhere_dropUnknownIndex_iff h),
    everywhere_types_mapTypes_iff (TypeNode.everywhere_dropUnknownRecords_iff h),
    everywhere_types_mapTypes_iff (TypeNode.everywhere_dropStringWidening_iff h)]

theorem declaredName?_cleanUp (statement : Statement) :
    statement.cleanUp.declaredName? = statement.declaredName? := by
  cases statement <;> rfl

/-- The clean-up mends nothing in a statement and breaks nothing. -/
theorem fault?_cleanUp_eq_none_iff (before now : List String) (statement : Statement) :
    statement.cleanUp.fault? before now = none ↔ statement.fault? before now = none := by
  have htypes := statement.everywhere_types_cleanUp_iff (TypeNode.inherent_defect? before now)
  cases statement with
  | verbatim => rfl
  | typeAlias decl => rw [fault?_eq_none_iff (by simp), fault?_eq_none_iff (by simp), htypes]
  | interface decl => rw [fault?_eq_none_iff (by simp), fault?_eq_none_iff (by simp), htypes]

/-- Nor does merging unions. -/
theorem fault?_mergeUnions?_eq_none_iff (before now : List String) {name : String}
    {statement merged : Statement} (h : statement.mergeUnions? name = some merged) :
    merged.fault? before now = none ↔ statement.fault? before now = none := by
  obtain ⟨decl, rfl, _, rfl⟩ := mergeUnions?_eq_some_iff.mp h
  rw [fault?_eq_none_iff (by simp), fault?_eq_none_iff (by simp)]
  simp only [types, List.forall_mem_singleton]
  exact TypeNode.everywhere_mergeUnions_iff (TypeNode.inherent_defect? before now) decl.type

end Statement

/-! ## Files -/

namespace SourceFile

/-- A file is accepted after the clean-up exactly if it is accepted without it. -/
theorem check_cleanUp_iff (file : SourceFile) (before : List String) :
    file.cleanUp.check before = .ok () ↔ file.check before = .ok () := by
  have hname : file.cleanUp.statements.map (·.name?) = file.statements.map (·.name?) := by
    rw [statements_cleanUp, List.map_map]
    exact List.map_congr_left fun statement _ => name?_cleanUp statement
  have hdeclared : file.cleanUp.statements.map (·.declaredName?) =
      file.statements.map (·.declaredName?) := by
    rw [statements_cleanUp, List.map_map]
    exact List.map_congr_left fun statement _ => statement.declaredName?_cleanUp
  rw [check_eq_ok_iff_of_names hname hdeclared, check_eq_ok_iff, statements_cleanUp,
    List.forall_mem_map]
  exact and_congr_right' (forall₂_congr fun statement _ =>
    statement.fault?_cleanUp_eq_none_iff before file.declaredNames)

/-- A file is accepted with the unions of an alias merged exactly if it is accepted with them. -/
theorem check_mergeRootUnions_iff (file : SourceFile) (name : String) (before : List String) :
    (file.mergeRootUnions name).check before = .ok () ↔ file.check before = .ok () := by
  have hsame {β : Type} {view : Statement → β}
      (hview : ∀ decl type, view (.typeAlias { decl with type := type }) = view (.typeAlias decl)) :
      (file.mergeRootUnions name).statements.map view = file.statements.map view := by
    refine map_updateFirst (fun statement merged hmerged => ?_) file.statements
    obtain ⟨decl, rfl, _, rfl⟩ := Statement.mergeUnions?_eq_some_iff.mp hmerged
    exact hview decl _
  rw [check_eq_ok_iff_of_names (hsame fun _ _ => rfl) (hsame fun _ _ => rfl), check_eq_ok_iff]
  refine and_congr_right' (forall_mem_updateFirst_iff (fun statement merged hmerged => ?_) _)
  exact Statement.fault?_mergeUnions?_eq_none_iff before file.declaredNames hmerged

end SourceFile

end Declutter
