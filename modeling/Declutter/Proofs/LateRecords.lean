import Declutter.Proofs.Idempotence

/-!
# Records that come too late

A union loses the members that are unknown records before they are rewritten. A member that only
becomes one by being rewritten is kept, and so stands next to the members that stay something else:
the union `LeavesRecord`. Nothing else makes a stray record, and no later rewriting removes one:
`no_stray_record_of_transform_iff`.
-/

namespace Declutter

namespace TypeNode

/-- A node that is no union with a record next to a member that is none. -/
def NoStrayRecord (node : TypeNode) : Prop := ¬node.HasStrayRecord

/-- A union that keeps members of which some become unknown records and some do not. -/
def LeavesRecord (node : TypeNode) : Prop :=
  ∃ members, node = .union members ∧
    (∃ member ∈ members, member.isUnknownRecord = false ∧
      member.dropUnknownRecords.isUnknownRecord = true) ∧
    ∃ member ∈ members, member.dropUnknownRecords.isUnknownRecord = false

theorem noStrayRecord_of_ne_union {node : TypeNode} (h : ∀ members, node ≠ .union members) :
    NoStrayRecord node := by
  rintro ⟨members, rfl, _⟩
  exact h members rfl

theorem not_leavesRecord_of_ne_union {node : TypeNode} (h : ∀ members, node ≠ .union members) :
    ¬node.LeavesRecord := by
  rintro ⟨members, rfl, _⟩
  exact h members rfl

theorem holdsOfSimple_noStrayRecord : HoldsOfSimple NoStrayRecord :=
  holdsOfSimple_of_ne_union fun _ => noStrayRecord_of_ne_union

theorem holdsOfSimple_not_leavesRecord : HoldsOfSimple fun node => ¬node.LeavesRecord :=
  holdsOfSimple_of_ne_union fun _ => not_leavesRecord_of_ne_union

/-! ## Dropping `string` -/

theorem isUnknownRecord_of_isWideString {node : TypeNode} (h : node.isWideString = true) :
    node.isUnknownRecord = false := by
  cases node with
  | typeLiteral => simp [isWideString, isKeyword] at h
  | _ => rfl

theorem isUnknownRecord_of_hasStringLiteral {node : TypeNode} (h : node.hasStringLiteral = true) :
    node.isUnknownRecord = false := by
  cases node with
  | typeLiteral => simp [hasStringLiteral] at h
  | _ => rfl

theorem noStrayRecord_union_iff {members : List TypeNode} :
    NoStrayRecord (.union members) ↔ ∀ record ∈ members, record.isUnknownRecord = true →
      ∀ member ∈ members, member.isUnknownRecord = true := by
  constructor
  · intro h record hmem hrecord member hmember
    cases hmemberRecord : member.isUnknownRecord with
    | true => rfl
    | false => exact absurd ⟨members, rfl, ⟨record, hmem, hrecord⟩, member, hmember, hmemberRecord⟩ h
  · rintro h ⟨_, heq, ⟨record, hmem, hrecord⟩, member, hmember, hnone⟩
    cases heq
    rw [h record hmem hrecord member hmember] at hnone
    cases hnone

/-- Neither a record nor the literal next to a `string` goes with it. -/
theorem noStrayRecord_withoutWideString (kind : Compound) {members : List TypeNode}
    (hany : members.any hasStringLiteral = true) :
    NoStrayRecord (kind.node (withoutWideString members)) ↔ NoStrayRecord (kind.node members) := by
  have hstays : ∀ member ∈ members, member.isWideString = false →
      member ∈ withoutWideString members := fun member hmem hwide =>
    List.mem_filter.mpr ⟨hmem, by rw [hwide]; rfl⟩
  cases kind with
  | intersection =>
    exact iff_of_true (noStrayRecord_of_ne_union (by simp [Compound.node]))
      (noStrayRecord_of_ne_union (by simp [Compound.node]))
  | union =>
    rw [Compound.node, Compound.node, noStrayRecord_union_iff, noStrayRecord_union_iff]
    constructor
    · intro h record hmem hrecord
      -- a record would make a record of the literal, which stays
      obtain ⟨literal, hliteral, hhas⟩ := List.any_eq_true.mp hany
      have hrecordStays := hstays record hmem (Bool.eq_false_iff.mpr fun hwide => by
        rw [isUnknownRecord_of_isWideString hwide] at hrecord; cases hrecord)
      have hliteralStays := hstays literal hliteral (Bool.eq_false_iff.mpr fun hwide => by
        rw [hasStringLiteral_of_isWideString hwide] at hhas; cases hhas)
      have := h record hrecordStays hrecord literal hliteralStays
      rw [isUnknownRecord_of_hasStringLiteral hhas] at this
      cases this
    · intro h record hmem hrecord member hmember
      exact h record (mem_of_mem_withoutWideString hmem) hrecord member
        (mem_of_mem_withoutWideString hmember)

/-- A compound and its only member have the same stray records. -/
theorem everywhere_noStrayRecord_collapse_iff (kind : Compound) (members : List TypeNode) :
    Everywhere NoStrayRecord (kind.collapse members) ↔
      NoStrayRecord (kind.node members) ∧ ∀ member ∈ members, Everywhere NoStrayRecord member := by
  rcases kind.collapse_cases members with ⟨member, rfl, heq⟩ | ⟨_, heq⟩
  · rw [heq, List.forall_mem_singleton]
    refine (and_iff_right ?_).symm
    cases kind with
    | intersection => exact noStrayRecord_of_ne_union (by simp [Compound.node])
    | union =>
      rw [Compound.node, noStrayRecord_union_iff]
      simp
  · rw [heq, everywhere_iff, Compound.children_node]

/-- Dropping a redundant `string` neither makes a stray record nor removes one. -/
theorem everywhere_noStrayRecord_dropWideString_iff (node : TypeNode) :
    Everywhere NoStrayRecord node.dropWideString ↔ Everywhere NoStrayRecord node := by
  by_cases hcompound : node.isCompound = true
  · obtain ⟨kind, members, rfl⟩ := exists_compound hcompound
    rw [dropWideString_node]
    split
    · rename_i hany
      have hnode : Everywhere NoStrayRecord (kind.node members) ↔
          NoStrayRecord (kind.node members) ∧
            ∀ member ∈ members, Everywhere NoStrayRecord member := by
        rw [everywhere_iff, Compound.children_node]
      rw [everywhere_noStrayRecord_collapse_iff, noStrayRecord_withoutWideString kind hany, hnode]
      refine and_congr_right fun _ => ⟨fun h member hmem => ?_, fun h member hmem =>
        h member (mem_of_mem_withoutWideString hmem)⟩
      cases hwide : member.isWideString with
      | true => exact everywhere_of_isWideString holdsOfSimple_noStrayRecord hwide
      | false => exact h member (List.mem_filter.mpr ⟨hmem, by rw [hwide]; rfl⟩)
    · rfl
  · rw [narrow_of_isCompound_eq_false (by simpa using hcompound)]

/-! ## Dropping records -/

/-- What only unions can lack is lacking in a node with replaced children where it is lacking in
one of these. -/
theorem everywhere_mapChildren_iff_of_ne_union {P : TypeNode → Prop} {f : TypeNode → TypeNode}
    {node : TypeNode} (hP : ∀ n, (∀ members, n ≠ .union members) → P n)
    (hnode : ∀ members, node ≠ .union members) :
    Everywhere P (node.mapChildren f) ↔ ∀ child ∈ node.children, Everywhere P (f child) := by
  refine ⟨fun h => ?_, everywhere_mapChildren_of_ne_union hP hnode⟩
  have hmap : P (node.mapChildren f) := h.here
  rw [everywhere_mapChildren_iff (fun _ => hP _ (by simp))
    (fun _ => iff_of_true hmap (hP node hnode))] at h
  exact h.2

theorem noStrayRecord_kept_iff (members : List TypeNode) :
    NoStrayRecord (.union ((members.filter (!·.isUnknownRecord)).map dropUnknownRecords)) ↔
      ¬(union members).LeavesRecord := by
  rw [noStrayRecord_union_iff]
  constructor
  · rintro h ⟨_, heq, ⟨late, hlate, hbefore, hafter⟩, other, hother, hnone⟩
    cases heq
    have hotherBefore : other.isUnknownRecord = false := Bool.eq_false_iff.mpr fun hrecord => by
      rw [dropUnknownRecords_of_isUnknownRecord hrecord, hrecord] at hnone
      cases hnone
    have hkept : ∀ member ∈ members, member.isUnknownRecord = false → member.dropUnknownRecords ∈
        (members.filter (!·.isUnknownRecord)).map dropUnknownRecords := fun member hmem hbefore =>
      List.mem_map_of_mem (List.mem_filter.mpr ⟨hmem, by rw [hbefore]; rfl⟩)
    rw [h _ (hkept late hlate hbefore) hafter _ (hkept other hother hotherBefore)] at hnone
    cases hnone
  · intro h record hrecord hisRecord member hmember
    obtain ⟨late, hlate, rfl⟩ := List.mem_map.mp hrecord
    obtain ⟨other, hother, rfl⟩ := List.mem_map.mp hmember
    rw [List.mem_filter] at hlate hother
    cases hotherRecord : other.dropUnknownRecords.isUnknownRecord with
    | true => rfl
    | false =>
      exact absurd ⟨members, rfl, ⟨late, hlate.1, by simpa using hlate.2, hisRecord⟩, other,
        hother.1, hotherRecord⟩ h

/-- Stray records are left exactly by the unions that keep members which become records. -/
theorem everywhere_noStrayRecord_dropUnknownRecords_iff (node : TypeNode) :
    Everywhere NoStrayRecord node.dropUnknownRecords ↔
      Everywhere (fun n => ¬n.LeavesRecord) node := by
  induction node using inductionOn with
  | step node ih =>
    by_cases hunion : ∃ members, node = .union members
    · obtain ⟨members, rfl⟩ := hunion
      have hrecord : ∀ member ∈ members, member.isUnknownRecord = true →
          Everywhere (fun n => ¬n.LeavesRecord) member := fun member _ h =>
        everywhere_of_isUnknownRecord holdsOfSimple_not_leavesRecord h
      rw [dropUnknownRecords_union]
      split
      · -- records only: there is nothing else that one could stand next to
        rename_i hall
        rw [List.all_eq_true] at hall
        have hfixed : members.map dropUnknownRecords = members := map_eq_self fun member hmem =>
          dropUnknownRecords_of_isUnknownRecord (hall member hmem)
        rw [hfixed]
        refine iff_of_true ?_ ?_
        · rw [everywhere_iff, noStrayRecord_union_iff]
          exact ⟨fun _ _ _ => hall, fun member hmem =>
            everywhere_of_isUnknownRecord holdsOfSimple_noStrayRecord (hall member hmem)⟩
        · rw [everywhere_iff]
          refine ⟨?_, fun member hmem => hrecord member hmem (hall member hmem)⟩
          rintro ⟨_, heq, ⟨late, hlate, hbefore, _⟩, _⟩
          cases heq
          rw [hall late hlate] at hbefore
          cases hbefore
      · rw [everywhere_noStrayRecord_dropWideString_iff,
          show ofUnion _ = Compound.union.collapse _ from rfl,
          everywhere_noStrayRecord_collapse_iff, Compound.node, noStrayRecord_kept_iff,
          List.forall_mem_map, everywhere_iff]
        refine and_congr_right fun _ => ⟨fun h member hmem => ?_, fun h member hmem => ?_⟩
        · cases hbefore : member.isUnknownRecord with
          | true => exact hrecord member hmem hbefore
          | false =>
            exact (ih member hmem).mp (h member (List.mem_filter.mpr ⟨hmem, by rw [hbefore]; rfl⟩))
        · exact (ih member (List.mem_filter.mp hmem).1).mpr (h member (List.mem_filter.mp hmem).1)
    · have hnode : ∀ members, node ≠ .union members := fun members h => hunion ⟨members, h⟩
      rw [dropUnknownRecords_of_ne_union hnode, everywhere_noStrayRecord_dropWideString_iff,
        everywhere_mapChildren_iff_of_ne_union (fun _ => noStrayRecord_of_ne_union) hnode, everywhere_iff]
      exact (forall₂_congr ih).trans (and_iff_right (not_leavesRecord_of_ne_union hnode)).symm

/-! ## Dropping index signatures -/

/-- Dropping unknown index signatures neither makes a stray record nor removes one. -/
theorem everywhere_noStrayRecord_dropUnknownIndex_iff (node : TypeNode) :
    Everywhere NoStrayRecord node.dropUnknownIndex ↔ Everywhere NoStrayRecord node := by
  induction node using inductionOn with
  | step node ih =>
    have hchildren : (∀ child ∈ node.children, Everywhere NoStrayRecord child.dropUnknownIndex) ↔
        ∀ child ∈ node.children, Everywhere NoStrayRecord child := forall₂_congr ih
    cases node with
    | typeLiteral members =>
      rw [dropUnknownIndex_typeLiteral, everywhere_iff, everywhere_iff, children, children,
        everywhere_types_keptShape_iff holdsOfSimple_noStrayRecord]
      exact and_congr (iff_of_true (noStrayRecord_of_ne_union (by simp))
        (noStrayRecord_of_ne_union (by simp))) hchildren
    | union members =>
      rw [dropUnknownIndex_of_ne_typeLiteral (by simp), mapChildren, everywhere_iff,
        everywhere_iff, children, children, List.forall_mem_map]
      refine and_congr ?_ hchildren
      simp only [noStrayRecord_union_iff, List.forall_mem_map, isUnknownRecord_dropUnknownIndex]
    | _ =>
      rw [dropUnknownIndex_of_ne_typeLiteral (by simp),
        everywhere_mapChildren_iff_of_ne_union (fun _ => noStrayRecord_of_ne_union) (by simp), everywhere_iff,
        hchildren]
      exact (and_iff_right (noStrayRecord_of_ne_union (by simp))).symm

end TypeNode

/-! ## Files -/

namespace SourceFile

/-- The types of a statement have stray records before unknown index signatures are dropped if
they have some afterwards. -/
theorem noStrayRecord_types_dropUnknownIndex_iff (statement : Statement) :
    (∀ type ∈ statement.dropUnknownIndex.types, TypeNode.Everywhere TypeNode.NoStrayRecord type) ↔
      ∀ type ∈ statement.types, TypeNode.Everywhere TypeNode.NoStrayRecord type :=
  statement.everywhere_types_dropUnknownIndex_iff TypeNode.holdsOfSimple_noStrayRecord
    TypeNode.everywhere_noStrayRecord_dropUnknownIndex_iff

/-- A transformed file has a stray record exactly if a union of the file before, with its root
edited and without redundant `string` members, keeps members of which some become records. -/
theorem no_stray_record_of_transform_iff {file rooted result : SourceFile} {options : Options}
    (hroot : file.applyRoot options = .ok rooted) (h : file.transform options = .ok result) :
    (∀ node ∈ result.visit, ∀ members, node = .union members →
        (∃ member ∈ members, member.isUnknownRecord = true) →
        ∀ member ∈ members, member.isUnknownRecord = true) ↔
      ∀ node ∈ rooted.dropStringWidening.visit, ¬node.LeavesRecord := by
  obtain ⟨_, hrooted, rfl, _⟩ := transform_eq_ok_iff.mp h
  obtain rfl := Except.ok.inj (hroot.symm.trans hrooted)
  have hunion : ∀ node : TypeNode, (∀ members, node = .union members →
      (∃ member ∈ members, member.isUnknownRecord = true) →
        ∀ member ∈ members, member.isUnknownRecord = true) ↔ node.NoStrayRecord := by
    intro node
    constructor
    · rintro hall ⟨members, heq, hrecord, member, hmem, hnone⟩
      rw [hall members heq hrecord member hmem] at hnone
      cases hnone
    · rintro hstray members rfl ⟨record, hmem, hrecord⟩
      exact TypeNode.noStrayRecord_union_iff.mp hstray record hmem hrecord
  simp only [hunion]
  rw [forall_visit_iff, forall_visit_iff]
  -- the last two rewritings go through the statements one by one
  simp only [cleanUp, dropUnknownIndex, dropUnknownRecords, mapTypes, List.forall_mem_map,
    noStrayRecord_types_dropUnknownIndex_iff]
  refine forall₂_congr fun statement _ => ?_
  rw [Statement.types_mapTypes, List.forall_mem_map]
  simp only [TypeNode.everywhere_noStrayRecord_dropUnknownRecords_iff]

/-- `type name = B | { [k: string]: unknown } | { [k: string]: value };` -/
def recordsBesides (name : String) (value : TypeNode) : SourceFile :=
  ⟨[.typeAlias ⟨[], [], name, .union [.named "B",
    .typeLiteral [.index ⟨[], false, "k", .keyword .string, .keyword .unknown⟩],
    .typeLiteral [.index ⟨[], false, "k", .keyword .string, value⟩]]⟩], []⟩

/-- `unknown | { [j: string]: unknown }` -/
def unknownOrRecord : TypeNode :=
  .union [.keyword .unknown,
    .typeLiteral [.index ⟨[], false, "j", .keyword .string, .keyword .unknown⟩]]

/-- The record goes, and what becomes one stays. -/
theorem stray_record_of_recordsBesides :
    (recordsBesides "A" unknownOrRecord).applyRoot {} =
        .ok (recordsBesides "Tsconfig" unknownOrRecord) ∧
      (recordsBesides "A" unknownOrRecord).transform {} =
        .ok (recordBesides "Tsconfig" (.keyword .unknown)) ∧
      ((∀ node ∈ (recordBesides "Tsconfig" (.keyword .unknown)).visit, ∀ members,
          node = .union members → (∃ member ∈ members, member.isUnknownRecord = true) →
            ∀ member ∈ members, member.isUnknownRecord = true) ↔
        ∀ node ∈ (recordsBesides "Tsconfig" unknownOrRecord).dropStringWidening.visit,
          ¬node.LeavesRecord) :=
  have hroot : (recordsBesides "A" unknownOrRecord).applyRoot {} =
      .ok (recordsBesides "Tsconfig" unknownOrRecord) := rfl
  have h : (recordsBesides "A" unknownOrRecord).transform {} =
      .ok (recordBesides "Tsconfig" (.keyword .unknown)) := rfl
  ⟨hroot, h, no_stray_record_of_transform_iff hroot h⟩

/-- `type A = B | { [k: string]: unknown | { [j: string]: unknown } };` is left with a record next to
`B`. -/
theorem exists_stray_record_of_transform :
    ∃ (file result : SourceFile) (options : Options), file.transform options = .ok result ∧
      ∃ node ∈ result.visit, ∃ members, node = .union members ∧
        (∃ member ∈ members, member.isUnknownRecord = true) ∧
        ∃ member ∈ members, member.isUnknownRecord = false :=
  ⟨recordBesides "A" unknownOrRecord, recordBesides "Tsconfig" (.keyword .unknown), {},
    rfl, _, List.mem_cons_self, _, rfl,
    ⟨_, List.mem_cons_of_mem _ List.mem_cons_self, rfl⟩, _, List.mem_cons_self, rfl⟩

end SourceFile

end Declutter
