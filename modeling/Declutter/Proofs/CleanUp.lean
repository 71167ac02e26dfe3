import Declutter.Pipeline
import Declutter.Proofs.Shapes

/-!
# Cleaning up statement by statement

`cleanUp` runs three rewritings over a whole file, one after the other. They treat statements, and
the types of a statement, independently of each other: `statements_cleanUp` and
`exists_of_mem_types_cleanUp` split the work up. A type that has been cleaned up is narrow and
stripped, and only stray records can make it change once more: `cleanUp_eq_self_iff`.

Every file that the pipeline hands out has been cleaned up, and so has no compound with both a
string literal and a redundant `string`: `no_widening_of_transform`.
-/

namespace Declutter

/-! ## Types -/

namespace TypeNode

/-- The three rewritings that need no options. -/
def cleanUp (node : TypeNode) : TypeNode :=
  node.dropStringWidening.dropUnknownRecords.dropUnknownIndex

/-- What holds everywhere in a type that has been cleaned up. -/
structure Clean (node : TypeNode) : Prop where
  narrow : Everywhere Narrow node
  noLoneMember : Everywhere NoLoneMember node
  stripped : Everywhere Stripped node

theorem clean_cleanUp (node : TypeNode) : Clean node.cleanUp where
  narrow := everywhere_narrow_dropUnknownIndex (everywhere_narrow_dropUnknownRecords _)
  noLoneMember := everywhere_noLoneMember_dropUnknownIndex (everywhere_noLoneMember_dropUnknownRecords _)
  stripped := everywhere_stripped_dropUnknownIndex _

/-- Each of the rewritings leaves a clean type without stray records as it is. -/
theorem Clean.fixed {node : TypeNode} (h : Clean node)
    (hstray : Everywhere (fun n => ¬HasStrayRecord n) node) :
    node.dropStringWidening = node ∧ node.dropUnknownRecords = node ∧
      node.dropUnknownIndex = node :=
  ⟨dropStringWidening_eq_self h.narrow,
    dropUnknownRecords_eq_self h.narrow h.noLoneMember hstray,
    dropUnknownIndex_eq_self h.stripped⟩

/-- Cleaning up once more changes a clean type exactly if it has a stray record. -/
theorem Clean.cleanUp_eq_self_iff {node : TypeNode} (h : Clean node) :
    node.cleanUp = node ↔ Everywhere (fun n => ¬HasStrayRecord n) node := by
  constructor
  · intro heq n hn hstray
    have hlt := nodeCount_dropUnknownRecords_lt ⟨n, hn, hstray⟩
    have hle := nodeCount_dropUnknownIndex_le node.dropUnknownRecords
    rw [cleanUp, dropStringWidening_eq_self h.narrow] at heq
    rw [heq] at hle
    omega
  · intro hstray
    obtain ⟨hwide, hrecords, hindex⟩ := h.fixed hstray
    rw [cleanUp, hwide, hrecords, hindex]

end TypeNode

/-! ## Statements -/

theorem TypeMember.mapTypes_eq_self_iff {f : TypeNode → TypeNode} {member : TypeMember} :
    member.mapTypes f = member ↔ ∀ type ∈ member.types, f type = type := by
  refine ⟨fun h type htype => ?_, TypeNode.mapTypes_eq_self⟩
  have hmap := congrArg TypeMember.types h
  rw [TypeNode.types_mapTypes] at hmap
  exact TypeNode.map_eq_self_iff.mp hmap type htype

namespace Statement

/-- The three rewritings that need no options. -/
def cleanUp (statement : Statement) : Statement :=
  ((statement.mapTypes TypeNode.dropStringWidening).mapTypes
    TypeNode.dropUnknownRecords).dropUnknownIndex

theorem types_mapTypes (f : TypeNode → TypeNode) (statement : Statement) :
    (statement.mapTypes f).types = statement.types.map f := by
  cases statement with
  | interface decl =>
    simp only [mapTypes, types, List.map_append, List.flatMap_map, List.map_flatMap,
      TypeNode.types_mapTypes]
  | _ => rfl

theorem mapTypes_mapTypes (f g : TypeNode → TypeNode) (statement : Statement) :
    (statement.mapTypes f).mapTypes g = statement.mapTypes fun type => g (f type) := by
  cases statement with
  | interface decl =>
    simp only [mapTypes, List.map_map, Function.comp_def, TypeNode.mapTypes_mapTypes]
  | _ => rfl

theorem mapTypes_congr {f g : TypeNode → TypeNode} {statement : Statement}
    (h : ∀ type ∈ statement.types, f type = g type) :
    statement.mapTypes f = statement.mapTypes g := by
  cases statement with
  | typeAlias decl => rw [mapTypes, mapTypes, h decl.type (by simp [types])]
  | interface decl =>
    have hheritage : decl.heritage.map f = decl.heritage.map g :=
      List.map_congr_left fun type htype => h type (List.mem_append_left _ htype)
    have hmembers : decl.members.map (·.mapTypes f) = decl.members.map (·.mapTypes g) :=
      List.map_congr_left fun member hmem => TypeNode.mapTypes_congr fun type htype =>
        h type (List.mem_append_right _ (List.mem_flatMap.mpr ⟨member, hmem, htype⟩))
    rw [mapTypes, mapTypes, hheritage, hmembers]
  | verbatim => rfl

theorem mapTypes_eq_self {f : TypeNode → TypeNode} {statement : Statement}
    (h : ∀ type ∈ statement.types, f type = type) : statement.mapTypes f = statement := by
  rw [mapTypes_congr h]
  cases statement with
  | interface decl => simp only [mapTypes, List.map_id', TypeNode.mapTypes_id]
  | _ => rfl

/-- The members that an interface body has, if a statement is an interface. -/
def body : Statement → List TypeMember
  | .interface decl => decl.members
  | _ => []

/-- The types of a statement that has lost its unknown index signatures are types that have. -/
theorem exists_of_mem_types_dropUnknownIndex {statement : Statement} {type : TypeNode}
    (h : type ∈ statement.dropUnknownIndex.types) :
    ∃ old ∈ statement.types, old.dropUnknownIndex = type := by
  cases statement with
  | typeAlias decl =>
    obtain rfl : type = decl.type.dropUnknownIndex := by simpa [types, dropUnknownIndex] using h
    exact ⟨decl.type, by simp [types], rfl⟩
  | interface decl =>
    rw [dropUnknownIndex, types, List.mem_append] at h
    rcases h with h | h
    · obtain ⟨old, hold, rfl⟩ := List.mem_map.mp h
      exact ⟨old, List.mem_append_left _ hold, rfl⟩
    · obtain ⟨new, hnew, htype⟩ := List.mem_flatMap.mp h
      obtain ⟨member, hmem, rfl⟩ := List.mem_map.mp ((keptShape_map_sublist _ _).mem hnew)
      rw [TypeNode.types_mapTypes] at htype
      obtain ⟨old, hold, rfl⟩ := List.mem_map.mp htype
      exact ⟨old, List.mem_append_right _ (List.mem_flatMap.mpr ⟨member, hmem, hold⟩), rfl⟩
  | verbatim => cases h

theorem strippedShape_body_dropUnknownIndex (statement : Statement) :
    StrippedShape statement.dropUnknownIndex.body := by
  cases statement with
  | interface decl =>
    rw [dropUnknownIndex, body]
    exact strippedShape_keptShape_map fun member _ =>
      TypeNode.isUnknownStringIndex_dropUnknownIndex member
  | _ => exact strippedShape_iff.mpr (.inl rfl)

/-- A statement has no unknown index signature to lose if its body and its types have none. -/
theorem dropUnknownIndex_eq_self {statement : Statement} (hbody : StrippedShape statement.body)
    (h : ∀ type ∈ statement.types, type.dropUnknownIndex = type) :
    statement.dropUnknownIndex = statement := by
  cases statement with
  | typeAlias decl => rw [dropUnknownIndex, h decl.type (by simp [types])]
  | interface decl =>
    have hheritage : decl.heritage.map TypeNode.dropUnknownIndex = decl.heritage :=
      TypeNode.map_eq_self fun type htype => h type (List.mem_append_left _ htype)
    have hmembers : decl.members.map (·.mapTypes TypeNode.dropUnknownIndex) = decl.members :=
      TypeNode.map_eq_self fun member hmem => TypeNode.mapTypes_eq_self fun type htype =>
        h type (List.mem_append_right _ (List.mem_flatMap.mpr ⟨member, hmem, htype⟩))
    rw [dropUnknownIndex, hheritage, hmembers]
    rw [show keptShape decl.members decl.members = decl.members from hbody]
  | verbatim => rfl

/-- The members of an interface body before unknown index signatures are dropped from it. -/
def rewrittenMembers (members : List TypeMember) : List TypeMember :=
  members.map (·.mapTypes fun type => type.dropStringWidening.dropUnknownRecords)

@[simp] theorem cleanUp_typeAlias (decl : TypeAlias) :
    (typeAlias decl).cleanUp = .typeAlias { decl with type := decl.type.cleanUp } := rfl

@[simp] theorem cleanUp_interface (decl : Interface) :
    (interface decl).cleanUp = .interface { decl with
      heritage := decl.heritage.map TypeNode.cleanUp
      members := keptShape (rewrittenMembers decl.members)
        ((rewrittenMembers decl.members).map (·.mapTypes TypeNode.dropUnknownIndex)) } := by
  simp only [cleanUp, mapTypes, dropUnknownIndex, rewrittenMembers, List.map_map,
    Function.comp_def, TypeNode.mapTypes_mapTypes]
  rfl

theorem mapTypes_dropUnknownIndex_rewrittenMembers (members : List TypeMember) :
    (rewrittenMembers members).map (·.mapTypes TypeNode.dropUnknownIndex) =
      members.map (·.mapTypes TypeNode.cleanUp) := by
  rw [rewrittenMembers, List.map_map]
  exact List.map_congr_left fun member _ => TypeNode.mapTypes_mapTypes _ _ member

/-- The types of a statement that has been cleaned up are types that have been cleaned up. -/
theorem exists_of_mem_types_cleanUp {statement : Statement} {type : TypeNode}
    (h : type ∈ statement.cleanUp.types) : ∃ old ∈ statement.types, old.cleanUp = type := by
  obtain ⟨new, hnew, rfl⟩ := exists_of_mem_types_dropUnknownIndex h
  rw [types_mapTypes, types_mapTypes, List.map_map] at hnew
  obtain ⟨old, hold, rfl⟩ := List.mem_map.mp hnew
  exact ⟨old, hold, rfl⟩

theorem strippedShape_body_cleanUp (statement : Statement) :
    StrippedShape statement.cleanUp.body := strippedShape_body_dropUnknownIndex _

/-- A statement changes if one of its types does. -/
theorem types_fixed_of_cleanUp_eq_self {statement : Statement}
    (h : statement.cleanUp = statement) : ∀ type ∈ statement.types, type.cleanUp = type := by
  cases statement with
  | typeAlias decl =>
    rw [cleanUp_typeAlias, typeAlias.injEq] at h
    intro type htype
    obtain rfl : type = decl.type := by simpa [types] using htype
    exact congrArg TypeAlias.type h
  | interface decl =>
    rw [cleanUp_interface, interface.injEq] at h
    have hheritage : decl.heritage.map TypeNode.cleanUp = decl.heritage := congrArg (·.heritage) h
    have hmembers := congrArg (·.members) h
    have hlength : (rewrittenMembers decl.members).length = decl.members.length :=
      List.length_map _
    -- no member is gone, so every rewritten member is there
    have hall := (keptShape_map_sublist (·.mapTypes TypeNode.dropUnknownIndex)
      (rewrittenMembers decl.members)).eq_of_length (by
        rw [List.length_map, hlength]; exact congrArg List.length hmembers)
    rw [hall, mapTypes_dropUnknownIndex_rewrittenMembers] at hmembers
    intro type htype
    rcases List.mem_append.mp htype with htype | htype
    · exact TypeNode.map_eq_self_iff.mp hheritage type htype
    · obtain ⟨member, hmem, htype⟩ := List.mem_flatMap.mp htype
      have hmember := TypeNode.map_eq_self_iff.mp hmembers member hmem
      exact TypeMember.mapTypes_eq_self_iff.mp hmember type htype
  | verbatim => simp [types]

/-- A statement stays if its types do and its body has nothing to lose. -/
theorem cleanUp_eq_self {statement : Statement} (hbody : StrippedShape statement.body)
    (h : ∀ type ∈ statement.types, type.dropStringWidening = type ∧
      type.dropUnknownRecords = type ∧ type.dropUnknownIndex = type) :
    statement.cleanUp = statement := by
  rw [cleanUp, mapTypes_eq_self fun type htype => (h type htype).1,
    mapTypes_eq_self fun type htype => (h type htype).2.1,
    dropUnknownIndex_eq_self hbody fun type htype => (h type htype).2.2]

/-- What dropping unknown index signatures neither wins nor loses in a type it neither wins nor loses
in a statement: the types of a member that goes are words of the language. -/
theorem everywhere_types_dropUnknownIndex_iff {P : TypeNode → Prop}
    (hP : TypeNode.HoldsOfSimple P)
    (hdrop : ∀ type : TypeNode, TypeNode.Everywhere P type.dropUnknownIndex ↔
      TypeNode.Everywhere P type) (statement : Statement) :
    (∀ type ∈ statement.dropUnknownIndex.types, TypeNode.Everywhere P type) ↔
      ∀ type ∈ statement.types, TypeNode.Everywhere P type := by
  cases statement with
  | typeAlias decl =>
    simpa only [dropUnknownIndex, types, List.forall_mem_singleton] using hdrop decl.type
  | interface decl =>
    simp only [dropUnknownIndex, types, List.forall_mem_append, List.forall_mem_map]
    rw [TypeNode.everywhere_types_keptShape_iff hP]
    simp only [hdrop]
  | verbatim => rfl

end Statement

/-! ## Files -/

namespace SourceFile

theorem cleanUp_eq (file : SourceFile) :
    file.cleanUp = { file with statements := file.statements.map Statement.cleanUp } := by
  simp only [cleanUp, dropStringWidening, dropUnknownRecords, dropUnknownIndex, mapTypes,
    List.map_map]
  rfl

theorem statements_cleanUp (file : SourceFile) :
    file.cleanUp.statements = file.statements.map Statement.cleanUp := by rw [cleanUp_eq]

/-- The types at the top of a file are replaced where they stand. -/
theorem types_mapTypes (f : TypeNode → TypeNode) (file : SourceFile) :
    (file.mapTypes f).statements.flatMap (·.types) =
      (file.statements.flatMap (·.types)).map f := by
  simp only [mapTypes, List.flatMap_map, List.map_flatMap, Statement.types_mapTypes]

/-- A file whose types stay is unchanged. -/
theorem mapTypes_eq_self {f : TypeNode → TypeNode} {file : SourceFile}
    (h : ∀ statement ∈ file.statements, ∀ type ∈ statement.types, f type = type) :
    file.mapTypes f = file := by
  have hstatements : file.statements.map (·.mapTypes f) = file.statements :=
    TypeNode.map_eq_self fun statement hmem => Statement.mapTypes_eq_self (h statement hmem)
  rw [mapTypes, hstatements]

theorem mapTypes_eq_self_iff {f : TypeNode → TypeNode} {file : SourceFile} :
    file.mapTypes f = file ↔
      ∀ statement ∈ file.statements, ∀ type ∈ statement.types, f type = type := by
  refine ⟨fun h statement hmem type htype => ?_, mapTypes_eq_self⟩
  have htypes := types_mapTypes f file
  rw [h] at htypes
  exact TypeNode.map_eq_self_iff.mp htypes.symm type (List.mem_flatMap.mpr ⟨statement, hmem, htype⟩)

theorem mem_visit_iff {file : SourceFile} {node : TypeNode} :
    node ∈ file.visit ↔
      ∃ statement ∈ file.statements, ∃ type ∈ statement.types, node ∈ type.visit := by
  simp only [visit, List.mem_flatMap]
  constructor
  · rintro ⟨type, ⟨statement, hmem, htype⟩, hnode⟩
    exact ⟨statement, hmem, type, htype, hnode⟩
  · rintro ⟨statement, hmem, type, htype, hnode⟩
    exact ⟨type, ⟨statement, hmem, htype⟩, hnode⟩

theorem forall_visit_iff {P : TypeNode → Prop} {file : SourceFile} :
    (∀ node ∈ file.visit, P node) ↔
      ∀ statement ∈ file.statements, ∀ type ∈ statement.types, TypeNode.Everywhere P type := by
  constructor
  · intro h statement hmem type htype node hnode
    exact h node (mem_visit_iff.mpr ⟨statement, hmem, type, htype, hnode⟩)
  · intro h node hnode
    obtain ⟨statement, hmem, type, htype, hnode⟩ := mem_visit_iff.mp hnode
    exact h statement hmem type htype node hnode

/-- Every type of a file that has been cleaned up is clean. -/
theorem clean_of_mem_cleanUp {file : SourceFile} {statement : Statement} {type : TypeNode}
    (hmem : statement ∈ file.cleanUp.statements) (htype : type ∈ statement.types) :
    type.Clean := by
  rw [statements_cleanUp] at hmem
  obtain ⟨old, _, rfl⟩ := List.mem_map.mp hmem
  obtain ⟨oldType, _, rfl⟩ := Statement.exists_of_mem_types_cleanUp htype
  exact TypeNode.clean_cleanUp oldType

/-- Cleaning up a second time changes a file exactly if the first time left a stray record. -/
theorem cleanUp_cleanUp_eq_self_iff (file : SourceFile) :
    file.cleanUp.cleanUp = file.cleanUp ↔
      ∀ node ∈ file.cleanUp.visit, ¬node.HasStrayRecord := by
  constructor
  · intro h node hnode
    obtain ⟨statement, hmem, type, htype, hnode⟩ := mem_visit_iff.mp hnode
    have hstatements := congrArg SourceFile.statements h
    rw [statements_cleanUp file.cleanUp] at hstatements
    have hfixed := TypeNode.map_eq_self_iff.mp hstatements statement hmem
    have htypes := Statement.types_fixed_of_cleanUp_eq_self hfixed type htype
    exact (clean_of_mem_cleanUp hmem htype).cleanUp_eq_self_iff.mp htypes node hnode
  · intro h
    rw [cleanUp_eq file.cleanUp]
    have hstatements : file.cleanUp.statements.map Statement.cleanUp = file.cleanUp.statements := by
      refine TypeNode.map_eq_self fun statement hmem => Statement.cleanUp_eq_self ?_ ?_
      · rw [statements_cleanUp] at hmem
        obtain ⟨old, _, rfl⟩ := List.mem_map.mp hmem
        exact Statement.strippedShape_body_cleanUp old
      · intro type htype
        refine (clean_of_mem_cleanUp hmem htype).fixed fun node hnode => ?_
        exact h node (mem_visit_iff.mpr ⟨statement, hmem, type, htype, hnode⟩)
    rw [hstatements]

/-- The pipeline is the edits of the root, the clean-up and the check, in this order. -/
theorem transform_eq_ok_iff {file result : SourceFile} {options : Options} :
    file.transform options = .ok result ↔
      ∃ rooted, file.applyRoot options = .ok rooted ∧ rooted.cleanUp = result ∧
        result.check file.declaredNames = .ok () := by
  unfold transform
  cases hroot : file.applyRoot options with
  | error => simp [bind, Except.bind]
  | ok rooted =>
    cases hcheck : rooted.cleanUp.check file.declaredNames with
    | error =>
      simp only [bind, Except.bind, hcheck, Except.ok.injEq]
      constructor
      · intro h; cases h
      · rintro ⟨_, rfl, rfl, h⟩
        rw [hcheck] at h; cases h
    | ok =>
      simp only [bind, Except.bind, hcheck, pure, Except.pure, Except.ok.injEq]
      constructor
      · rintro rfl
        exact ⟨rooted, rfl, rfl, hcheck⟩
      · rintro ⟨_, rfl, rfl, _⟩
        rfl

/-- No union or intersection of a transformed file has both a `string` and a string literal among
its members, parentheses looked through. -/
theorem no_widening_of_transform {file result : SourceFile} {options : Options}
    (h : file.transform options = .ok result) :
    ∀ node ∈ result.visit, ∀ members, node = .union members ∨ node = .intersection members →
      ¬((∃ member ∈ members, member.isWideString = true) ∧
        ∃ member ∈ members, member.hasStringLiteral = true) := by
  intro node hnode members hkind
  obtain ⟨rooted, _, rfl, _⟩ := transform_eq_ok_iff.mp h
  obtain ⟨statement, hmem, type, htype, hnode⟩ := mem_visit_iff.mp hnode
  have hnarrow : node.Narrow := (clean_of_mem_cleanUp hmem htype).narrow node hnode
  rcases hkind with rfl | rfl
  · exact TypeNode.Narrow.not_widened .union hnarrow
  · exact TypeNode.Narrow.not_widened .intersection hnarrow

/-- `type Root = "a" | "b" | (string | { [k: string]: unknown });` -/
def widenedLate : SourceFile :=
  ⟨[.typeAlias ⟨[], [.exported], "Root", .union [.stringLiteral "a", .stringLiteral "b",
    .parenthesized (.union [.keyword .string,
      .typeLiteral [.index ⟨[], false, "k", .keyword .string, .keyword .unknown⟩]])]⟩], []⟩

/-- `type Tsconfig = "a" | "b";` -/
def narrowed : SourceFile :=
  ⟨[.typeAlias ⟨[], [.exported], "Tsconfig",
    .union [.stringLiteral "a", .stringLiteral "b"]⟩], []⟩

/-- The `string` here is redundant only once the record next to it is gone. -/
theorem no_widening_of_late_string :
    widenedLate.transform {} = .ok narrowed ∧
      ∀ node ∈ narrowed.visit, ∀ members, node = .union members ∨ node = .intersection members →
        ¬((∃ member ∈ members, member.isWideString = true) ∧
          ∃ member ∈ members, member.hasStringLiteral = true) :=
  have h : widenedLate.transform {} = .ok narrowed := by decide +kernel
  ⟨h, no_widening_of_transform h⟩

end SourceFile

end Declutter
