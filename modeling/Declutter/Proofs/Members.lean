import Declutter.Proofs.Defects

/-!
# Compounds keep members

A compound is rebuilt from the members that stay, and there must be some. `dropStringWidening?` and
`dropUnknownRecords?` are the two rewritings that rebuild compounds, with that demand checked: they
give up where a compound would be rebuilt from nothing. They never do, whatever the tree looks like,
since a string literal is no wide string and a union of records only is not rebuilt.

So a rewriting empties no compound, and what is empty in a result was empty before
(`filled_applyRoot_iff`, `filled_dropUnknownRecords_iff`). A file without empty compounds is never
refused for one: `rebuilds_have_members`.
-/

namespace Declutter

namespace TypeNode

/-! ## Rebuilding with a check -/

/-- The union of members, of which there must be some. -/
def ofUnion? (members : List TypeNode) : Option TypeNode :=
  if members.isEmpty then none else some (ofUnion members)

/-- The intersection of members, of which there must be some. -/
def ofIntersection? (members : List TypeNode) : Option TypeNode :=
  if members.isEmpty then none else some (ofIntersection members)

/-- Drops a redundant `string` from a compound, of which something must stay. -/
def dropWideString? : TypeNode → Option TypeNode
  | .union members =>
    if members.any hasStringLiteral then ofUnion? (withoutWideString members)
    else some (.union members)
  | .intersection members =>
    if members.any hasStringLiteral then ofIntersection? (withoutWideString members)
    else some (.intersection members)
  | node => some node

/-- Drops unknown records from a union, of which something must stay if it is rebuilt. -/
def dropRecords? : TypeNode → TypeNode → Option TypeNode
  | .union old, .union new =>
    match keptMembers old new with
    | [] => some (.union new)
    | kept => do dropWideString? (← ofUnion? kept)
  | _, node => node.dropWideString?

mutual

/-- Applies a rule that can fail to every node, children first. -/
def rewrite? (rule : TypeNode → TypeNode → Option TypeNode) : TypeNode → Option TypeNode
  | .keyword word => rule (.keyword word) (.keyword word)
  | .literal value => rule (.literal value) (.literal value)
  | .reference name arguments => do
    rule (.reference name arguments) (.reference name (← rewriteList? rule arguments))
  | .array element => do rule (.array element) (.array (← element.rewrite? rule))
  | .tuple elements => do rule (.tuple elements) (.tuple (← rewriteElements? rule elements))
  | .union members => do rule (.union members) (.union (← rewriteList? rule members))
  | .intersection members => do
    rule (.intersection members) (.intersection (← rewriteList? rule members))
  | .parenthesized inner => do
    rule (.parenthesized inner) (reparenthesize inner (← inner.rewrite? rule))
  | .typeLiteral members => do
    rule (.typeLiteral members) (.typeLiteral (← rewriteMembers? rule members))

def rewriteList? (rule : TypeNode → TypeNode → Option TypeNode) :
    List TypeNode → Option (List TypeNode)
  | [] => some []
  | node :: nodes => do return (← node.rewrite? rule) :: (← rewriteList? rule nodes)

def rewriteElements? (rule : TypeNode → TypeNode → Option TypeNode) :
    List TupleElement → Option (List TupleElement)
  | [] => some []
  | ⟨type, optional, rest⟩ :: elements => do
    return ⟨← type.rewrite? rule, optional, rest⟩ :: (← rewriteElements? rule elements)

def rewriteMembers? (rule : TypeNode → TypeNode → Option TypeNode) :
    List TypeMember → Option (List TypeMember)
  | [] => some []
  | .property ⟨comments, readonly, name, optional, type⟩ :: members => do
    return .property ⟨comments, readonly, name, optional, ← type.rewrite? rule⟩ ::
      (← rewriteMembers? rule members)
  | .index ⟨comments, readonly, parameter, key, value⟩ :: members => do
    return .index ⟨comments, readonly, parameter, ← key.rewrite? rule, ← value.rewrite? rule⟩ ::
      (← rewriteMembers? rule members)

end

def dropStringWidening? : TypeNode → Option TypeNode := rewrite? fun _ node => node.dropWideString?

def dropUnknownRecords? : TypeNode → Option TypeNode := rewrite? dropRecords?

/-! ### The check is passed -/

theorem ofUnion?_eq_some {members : List TypeNode} (h : members ≠ []) :
    ofUnion? members = some (ofUnion members) := by
  rw [ofUnion?, if_neg (by simpa using h)]

theorem ofIntersection?_eq_some {members : List TypeNode} (h : members ≠ []) :
    ofIntersection? members = some (ofIntersection members) := by
  rw [ofIntersection?, if_neg (by simpa using h)]

/-- Next to a `string` that goes stands a literal that stays. -/
theorem dropWideString?_eq_some (node : TypeNode) :
    node.dropWideString? = some node.dropWideString := by
  cases node with
  | union members =>
    rw [dropWideString?, dropWideString]
    split
    · rename_i hany
      exact ofUnion?_eq_some (withoutWideString_ne_nil hany)
    · rfl
  | intersection members =>
    rw [dropWideString?, dropWideString]
    split
    · rename_i hany
      exact ofIntersection?_eq_some (withoutWideString_ne_nil hany)
    · rfl
  | _ => rfl

theorem dropRecords?_eq_some (old new : TypeNode) :
    dropRecords? old new = some (dropRecords old new) := by
  unfold dropRecords?
  split
  · rename_i old new
    rw [dropRecords]
    cases hkept : keptMembers old new with
    | nil => rfl
    | cons member members =>
      show (ofUnion? (member :: members)).bind dropWideString? = _
      rw [ofUnion?_eq_some (by simp), Option.bind_some, dropWideString?_eq_some]
  · rename_i hnone
    rw [dropRecords.eq_2 _ _ hnone, dropWideString?_eq_some]

section Rewrite

variable {rule? : TypeNode → TypeNode → Option TypeNode} {rule : TypeNode → TypeNode → TypeNode}

mutual

/-- A rewriting succeeds if its rule does. -/
theorem rewrite?_eq_some (h : ∀ old new, rule? old new = some (rule old new)) :
    ∀ node : TypeNode, node.rewrite? rule? = some (node.rewrite rule)
  | .keyword word => by rw [rewrite?, rewrite, h]
  | .literal value => by rw [rewrite?, rewrite, h]
  | .reference name arguments => by
    rw [rewrite?, rewrite, rewriteList?_eq_some h arguments, ← h]
    rfl
  | .array element => by
    rw [rewrite?, rewrite, rewrite?_eq_some h element, ← h]
    rfl
  | .tuple elements => by
    rw [rewrite?, rewrite, rewriteElements?_eq_some h elements, ← h]
    rfl
  | .union members => by
    rw [rewrite?, rewrite, rewriteList?_eq_some h members, ← h]
    rfl
  | .intersection members => by
    rw [rewrite?, rewrite, rewriteList?_eq_some h members, ← h]
    rfl
  | .parenthesized inner => by
    rw [rewrite?, rewrite, rewrite?_eq_some h inner, ← h]
    rfl
  | .typeLiteral members => by
    rw [rewrite?, rewrite, rewriteMembers?_eq_some h members, ← h]
    rfl

theorem rewriteList?_eq_some (h : ∀ old new, rule? old new = some (rule old new)) :
    ∀ nodes : List TypeNode, rewriteList? rule? nodes = some (rewriteList rule nodes)
  | [] => rfl
  | node :: nodes => by
    rw [rewriteList?, rewriteList, rewrite?_eq_some h node, rewriteList?_eq_some h nodes]
    rfl

theorem rewriteElements?_eq_some (h : ∀ old new, rule? old new = some (rule old new)) :
    ∀ elements : List TupleElement,
      rewriteElements? rule? elements = some (rewriteElements rule elements)
  | [] => rfl
  | ⟨type, _, _⟩ :: elements => by
    rw [rewriteElements?, rewriteElements, rewrite?_eq_some h type,
      rewriteElements?_eq_some h elements]
    rfl

theorem rewriteMembers?_eq_some (h : ∀ old new, rule? old new = some (rule old new)) :
    ∀ members : List TypeMember,
      rewriteMembers? rule? members = some (rewriteMembers rule members)
  | [] => rfl
  | .property ⟨_, _, _, _, type⟩ :: members => by
    rw [rewriteMembers?, rewriteMembers, rewrite?_eq_some h type,
      rewriteMembers?_eq_some h members]
    rfl
  | .index ⟨_, _, _, key, value⟩ :: members => by
    rw [rewriteMembers?, rewriteMembers, rewrite?_eq_some h key, rewrite?_eq_some h value,
      rewriteMembers?_eq_some h members]
    rfl

end

end Rewrite

theorem dropStringWidening?_eq_some (node : TypeNode) :
    node.dropStringWidening? = some node.dropStringWidening :=
  rewrite?_eq_some (fun _ => dropWideString?_eq_some) node

theorem dropUnknownRecords?_eq_some (node : TypeNode) :
    node.dropUnknownRecords? = some node.dropUnknownRecords :=
  rewrite?_eq_some dropRecords?_eq_some node

end TypeNode

/-! ### Files -/

/-- The member with each of its types replaced, if that can be done. -/
def TypeMember.mapTypes? (f : TypeNode → Option TypeNode) : TypeMember → Option TypeMember
  | .property p => do return .property { p with type := ← f p.type }
  | .index i => do return .index { i with key := ← f i.key, value := ← f i.value }

/-- The statement with each type at its top replaced, if that can be done. -/
def Statement.mapTypes? (f : TypeNode → Option TypeNode) : Statement → Option Statement
  | .typeAlias a => do return .typeAlias { a with type := ← f a.type }
  | .interface i => do
    let heritage ← i.heritage.mapM f
    let members ← i.members.mapM (·.mapTypes? f)
    return .interface { i with heritage := heritage, members := members }
  | .verbatim v => some (.verbatim v)

/-- The file with each type at the top of a statement replaced, if that can be done. -/
def SourceFile.mapTypes? (f : TypeNode → Option TypeNode) (file : SourceFile) :
    Option SourceFile := do
  return { file with statements := ← file.statements.mapM (·.mapTypes? f) }

def SourceFile.dropStringWidening? (file : SourceFile) : Option SourceFile :=
  file.mapTypes? TypeNode.dropStringWidening?

def SourceFile.dropUnknownRecords? (file : SourceFile) : Option SourceFile :=
  file.mapTypes? TypeNode.dropUnknownRecords?

theorem mapM_eq_some {α β : Type} {f : α → Option β} {g : α → β} (h : ∀ a, f a = some (g a))
    (as : List α) : as.mapM f = some (as.map g) := by
  rw [show f = fun a => pure (g a) from funext h]
  exact List.mapM_pure

section MapTypes

variable {f : TypeNode → Option TypeNode} {g : TypeNode → TypeNode} (h : ∀ type, f type = some (g type))
include h

theorem TypeMember.mapTypes?_eq_some (member : TypeMember) :
    member.mapTypes? f = some (member.mapTypes g) := by
  cases member with
  | property p =>
    rw [mapTypes?, h]
    rfl
  | index i =>
    rw [mapTypes?, h, h]
    rfl

theorem Statement.mapTypes?_eq_some (statement : Statement) :
    statement.mapTypes? f = some (statement.mapTypes g) := by
  cases statement with
  | typeAlias decl =>
    rw [mapTypes?, h]
    rfl
  | interface decl =>
    rw [mapTypes?, mapM_eq_some h, mapM_eq_some (TypeMember.mapTypes?_eq_some h)]
    rfl
  | verbatim => rfl

theorem SourceFile.mapTypes?_eq_some (file : SourceFile) :
    file.mapTypes? f = some (file.mapTypes g) := by
  rw [mapTypes?, mapM_eq_some (Statement.mapTypes?_eq_some h)]
  rfl

end MapTypes

/-! ## Empty compounds -/

/-- A node that is no compound without members. -/
def TypeNode.Filled (node : TypeNode) : Prop := node ≠ .union [] ∧ node ≠ .intersection []

instance : DecidablePred TypeNode.Filled := fun node =>
  inferInstanceAs (Decidable (node ≠ .union [] ∧ node ≠ .intersection []))

theorem TypeNode.inherent_filled : TypeNode.Inherent TypeNode.Filled where
  keyword _ := by simp [Filled]
  typeLiteral _ := by simp [Filled]
  parenthesized _ := by simp [Filled]
  node_iff kind members := by cases kind <;> simp [Filled, Compound.node]
  mapChildren_iff f node hcompound hparen := by
    cases node with
    | union => cases hcompound
    | intersection => cases hcompound
    | parenthesized inner => exact absurd rfl (hparen inner)
    | _ => simp [Filled, mapChildren]

namespace Statement

/-- A statement whose types have no compound without members. -/
def Filled (statement : Statement) : Prop :=
  ∀ type ∈ statement.types, TypeNode.Everywhere TypeNode.Filled type

theorem filled_mapTypes_iff {f : TypeNode → TypeNode}
    (hf : ∀ type, TypeNode.Everywhere TypeNode.Filled (f type) ↔
      TypeNode.Everywhere TypeNode.Filled type) (statement : Statement) :
    (statement.mapTypes f).Filled ↔ statement.Filled :=
  statement.everywhere_types_mapTypes_iff hf

theorem filled_inject?_iff {property : InjectedProperty} {statement injected : Statement}
    (h : statement.inject? property = some injected) : injected.Filled ↔ statement.Filled := by
  obtain ⟨decl, rfl, _, rfl⟩ := inject?_eq_some_iff.mp h
  split
  · rfl
  · -- the type of the property is a literal
    have hliteral : TypeNode.Everywhere TypeNode.Filled (.stringLiteral property.value) := by
      rw [TypeNode.everywhere_iff]
      exact ⟨by simp [TypeNode.Filled, TypeNode.stringLiteral],
        by simp [TypeNode.stringLiteral, TypeNode.children]⟩
    simp only [Filled, types, List.flatMap_cons, List.forall_mem_append, InjectedProperty.member,
      TypeMember.types, List.forall_mem_singleton, and_iff_right hliteral]

theorem filled_mergeUnions?_iff {name : String} {statement merged : Statement}
    (h : statement.mergeUnions? name = some merged) : merged.Filled ↔ statement.Filled := by
  obtain ⟨decl, rfl, _, rfl⟩ := mergeUnions?_eq_some_iff.mp h
  simp only [Filled, types, List.forall_mem_singleton]
  exact TypeNode.everywhere_mergeUnions_iff TypeNode.inherent_filled decl.type

end Statement

theorem TypeNode.everywhere_filled_renameReferences_iff (old new : String) (node : TypeNode) :
    Everywhere Filled (node.renameReferences old new) ↔ Everywhere Filled node := by
  refine everywhere_rewrite_iff inherent_filled (fun n => ?_) node
  rw [renameHead_eq_mapName]
  cases n with
  | reference name arguments =>
    rw [mapName, everywhere_iff, everywhere_iff]
    exact and_congr_left' (by simp [Filled])
  | _ => rfl

namespace SourceFile

/-- A file that has no compound without members. -/
def Filled (file : SourceFile) : Prop := ∀ node ∈ file.visit, node.Filled

theorem filled_iff {file : SourceFile} :
    file.Filled ↔ ∀ statement ∈ file.statements, statement.Filled := forall_visit_iff

theorem filled_mapTypes_iff {f : TypeNode → TypeNode}
    (hf : ∀ type, TypeNode.Everywhere TypeNode.Filled (f type) ↔
      TypeNode.Everywhere TypeNode.Filled type) (file : SourceFile) :
    (file.mapTypes f).Filled ↔ file.Filled := by
  rw [filled_iff, filled_iff, mapTypes, List.forall_mem_map]
  exact forall₂_congr fun statement _ => statement.filled_mapTypes_iff hf

theorem filled_updateFirst_iff {f : Statement → Option Statement}
    (hf : ∀ statement new, f statement = some new → (new.Filled ↔ statement.Filled))
    (file : SourceFile) :
    SourceFile.Filled { file with statements := updateFirst f file.statements } ↔ file.Filled := by
  rw [filled_iff, filled_iff]
  exact forall_mem_updateFirst_iff hf file.statements

/-! ### The edits of the root -/

theorem filled_renameFrom_iff (old new : String) (file : SourceFile) :
    (file.renameFrom old new).Filled ↔ file.Filled := by
  -- references are renamed first, then the root itself; modifiers and kept text hold no types
  have hrename : SourceFile.Filled
      (if old = new then file else file.mapTypes (TypeNode.renameReferences old new)) ↔
        file.Filled := by
    split
    · rfl
    · exact filled_mapTypes_iff (TypeNode.everywhere_filled_renameReferences_iff old new) file
  rw [renameFrom, filled_iff, List.forall_mem_map, ← hrename,
    ← filled_updateFirst_iff (f := Statement.renameAlias? old new), filled_iff]
  · refine forall₂_congr fun statement _ => ?_
    rw [Statement.Filled, Statement.types_renameWords, Statement.types_pruneModifiers]
    rfl
  · intro statement renamed h
    rw [Statement.Filled, Statement.types_renameAlias? h]
    rfl

theorem filled_injectAsked_iff (file : SourceFile) (options : Options) :
    (file.injectAsked options).Filled ↔ file.Filled := by
  unfold injectAsked
  split
  · exact filled_updateFirst_iff (fun _ _ => Statement.filled_inject?_iff) file
  · rfl

theorem filled_mergeAsked_iff (file : SourceFile) (options : Options) :
    (file.mergeAsked options).Filled ↔ file.Filled := by
  unfold mergeAsked
  split
  · exact filled_updateFirst_iff (fun _ _ => Statement.filled_mergeUnions?_iff) file
  · rfl

/-- The edits of the root neither empty a compound nor fill one. -/
theorem filled_applyRoot_iff {file rooted : SourceFile} {options : Options}
    (h : file.applyRoot options = .ok rooted) : rooted.Filled ↔ file.Filled := by
  obtain ⟨_, old, _, rfl⟩ := applyRoot_eq_ok_iff.mp h
  rw [filled_mergeAsked_iff, filled_injectAsked_iff, filled_renameFrom_iff]

/-! ### The clean-up -/

theorem filled_dropStringWidening_iff (file : SourceFile) :
    file.dropStringWidening.Filled ↔ file.Filled :=
  filled_mapTypes_iff (TypeNode.everywhere_dropStringWidening_iff TypeNode.inherent_filled) file

theorem filled_dropUnknownRecords_iff (file : SourceFile) :
    file.dropUnknownRecords.Filled ↔ file.Filled :=
  filled_mapTypes_iff (TypeNode.everywhere_dropUnknownRecords_iff TypeNode.inherent_filled) file

theorem filled_dropUnknownIndex_iff (file : SourceFile) :
    file.dropUnknownIndex.Filled ↔ file.Filled := by
  rw [filled_iff, filled_iff, dropUnknownIndex, List.forall_mem_map]
  exact forall₂_congr fun statement _ =>
    statement.everywhere_types_dropUnknownIndex_iff TypeNode.inherent_filled.toHoldsOfSimple
      (TypeNode.everywhere_dropUnknownIndex_iff TypeNode.inherent_filled)

/-! ### The check -/

end SourceFile

/-- A node with members has no defect but those of names. -/
theorem TypeNode.Filled.ne_of_defect? {before now : List String} {node : TypeNode} {defect : Defect}
    (h : node.Filled) (hdefect : node.defect? before now = some defect) :
    defect ≠ .emptyUnion ∧ defect ≠ .emptyIntersection := by
  unfold defect? at hdefect
  split at hdefect
  · exact absurd rfl h.1
  · exact absurd rfl h.2
  · split at hdefect
    · cases hdefect
      simp
    · split at hdefect
      · cases hdefect
        simp
      · cases hdefect
  · cases hdefect

theorem Statement.Filled.ne_of_fault? {before now : List String} {statement : Statement}
    {path : String} {defect : Defect} (h : statement.Filled)
    (hfault : statement.fault? before now = some (.unsound path defect)) :
    defect ≠ .emptyUnion ∧ defect ≠ .emptyIntersection := by
  by_cases hverbatim : ∃ decl, statement = .verbatim decl
  · -- of a statement that is kept as text only the words are checked
    obtain ⟨decl, rfl⟩ := hverbatim
    rw [fault?, Option.map_eq_some_iff] at hfault
    obtain ⟨word, _, heq⟩ := hfault
    obtain ⟨_, rfl⟩ := Error.unsound.inj heq
    simp
  · rw [fault?.eq_2 _ _ _ fun decl heq => hverbatim ⟨decl, heq⟩, Option.map_eq_some_iff] at hfault
    obtain ⟨found, hfound, heq⟩ := hfault
    obtain ⟨_, rfl⟩ := Error.unsound.inj heq
    obtain ⟨node, hnode, hdefect⟩ := List.exists_of_findSome?_eq_some hfound
    obtain ⟨type, htype, hnode⟩ := List.mem_flatMap.mp hnode
    exact (h type htype node hnode).ne_of_defect? hdefect

namespace SourceFile

theorem Filled.ne_of_check {file : SourceFile} {before : List String} {path : String}
    {defect : Defect} (h : file.Filled)
    (hcheck : file.check before = .error (.unsound path defect)) :
    defect ≠ .emptyUnion ∧ defect ≠ .emptyIntersection := by
  have hfault : file.fault? before = some (.unsound path defect) := by
    unfold check at hcheck
    split at hcheck
    · rename_i herror
      rw [herror, Except.error.inj hcheck]
    · cases hcheck
  rw [fault?, Option.orElse_eq_orElse, Option.orElse_eq_or, Option.or_eq_some_iff] at hfault
  rcases hfault with hname | ⟨_, hstatement⟩
  · obtain ⟨_, _, heq, hdefect⟩ := exists_unsound_of_nameFault? hname
    obtain ⟨_, rfl⟩ := Error.unsound.inj heq
    rcases hdefect with rfl | rfl <;> simp
  · obtain ⟨statement, hmem, hfault⟩ := List.exists_of_findSome?_eq_some hstatement
    exact (filled_iff.mp h statement hmem).ne_of_fault? hfault

/-- The edits of the root fail for want of a root, not for what they make of the file. -/
theorem applyRoot_ne_unsound (file : SourceFile) (options : Options) (path : String)
    (defect : Defect) : file.applyRoot options ≠ .error (.unsound path defect) := by
  have hname : file.rootName options.rootAlias ≠ .error (.unsound path defect) := by
    unfold rootName
    simp only
    split
    · split <;> simp
    · split <;> simp
  intro h
  unfold applyRoot renameRoot at h
  split at h
  · cases hroot : file.rootName options.rootAlias with
    | error error =>
      rw [hroot] at h hname
      exact hname (congrArg Except.error (Except.error.inj h))
    | ok old =>
      rw [hroot] at h
      cases h
  · cases h

/-- Whatever a file looks like, no compound is rebuilt from nothing. If it has no empty compound,
it has none after any of the rewritings, and is not refused for one. -/
theorem rebuilds_have_members (file : SourceFile) (options : Options) :
    file.dropStringWidening? = some file.dropStringWidening ∧
      file.dropUnknownRecords? = some file.dropUnknownRecords ∧
      (file.Filled →
        (∀ rooted, file.applyRoot options = .ok rooted →
          rooted.Filled ∧ rooted.dropStringWidening.Filled ∧
            rooted.dropStringWidening.dropUnknownRecords.Filled ∧
            rooted.dropStringWidening.dropUnknownRecords.dropUnknownIndex.Filled) ∧
        ∀ path defect, file.transform options = .error (.unsound path defect) →
          defect ≠ .emptyUnion ∧ defect ≠ .emptyIntersection) := by
  refine ⟨mapTypes?_eq_some TypeNode.dropStringWidening?_eq_some file,
    mapTypes?_eq_some TypeNode.dropUnknownRecords?_eq_some file, fun hfile => ?_⟩
  have hstages (rooted : SourceFile) (happly : file.applyRoot options = .ok rooted) :
      rooted.Filled ∧ rooted.dropStringWidening.Filled ∧
        rooted.dropStringWidening.dropUnknownRecords.Filled ∧
        rooted.dropStringWidening.dropUnknownRecords.dropUnknownIndex.Filled := by
    have hrooted : rooted.Filled := (filled_applyRoot_iff happly).mpr hfile
    have hwide := (filled_dropStringWidening_iff rooted).mpr hrooted
    have hrecords := (filled_dropUnknownRecords_iff _).mpr hwide
    exact ⟨hrooted, hwide, hrecords, (filled_dropUnknownIndex_iff _).mpr hrecords⟩
  refine ⟨hstages, fun path defect herror => ?_⟩
  unfold transform at herror
  cases happly : file.applyRoot options with
  | error error =>
    rw [happly] at herror
    exact absurd (happly.trans (congrArg Except.error (Except.error.inj herror)))
      (file.applyRoot_ne_unsound options path defect)
  | ok rooted =>
    have hclean : rooted.cleanUp.Filled := (hstages rooted happly).2.2.2
    cases hcheck : rooted.cleanUp.check file.declaredNames with
    | error error =>
      simp only [happly, bind, Except.bind, hcheck, Except.error.injEq] at herror
      rw [herror] at hcheck
      exact hclean.ne_of_check hcheck
    | ok =>
      simp only [happly, bind, Except.bind, hcheck] at herror
      cases herror

/-- `"a" & (string) & (number | { [k: string]: unknown })` -/
def thinned : TypeNode :=
  .intersection [.stringLiteral "a", .parenthesized (.keyword .string),
    .parenthesized (.union [.keyword .number,
      .typeLiteral [.index ⟨[], false, "k", .keyword .string, .keyword .unknown⟩]])]

/-- `type name = type;`, `type B = any;` and `type B = any;` again. -/
def withDuplicate (name : String) (type : TypeNode) : SourceFile :=
  ⟨[.typeAlias ⟨[], [], name, type⟩, .typeAlias ⟨[], [], "B", .keyword .any⟩,
    .typeAlias ⟨[], [], "B", .keyword .any⟩], []⟩

/-- Both compounds here are rebuilt from fewer members, and the file is refused for a name. -/
theorem rebuilds_have_members_thinned :
    (withDuplicate "A" thinned).Filled ∧
      (withDuplicate "A" thinned).applyRoot {} = .ok (withDuplicate "Tsconfig" thinned) ∧
      (withDuplicate "Tsconfig" thinned).dropStringWidening.dropUnknownRecords.Filled ∧
      (withDuplicate "A" thinned).transform {} = .error (.unsound "B" .declaredTwice) ∧
      Defect.declaredTwice ≠ .emptyUnion ∧ Defect.declaredTwice ≠ .emptyIntersection :=
  have hfilled : (withDuplicate "A" thinned).Filled := by
    unfold Filled
    decide +kernel
  have happly : (withDuplicate "A" thinned).applyRoot {} =
      .ok (withDuplicate "Tsconfig" thinned) := by
    decide +kernel
  have herror : (withDuplicate "A" thinned).transform {} =
      .error (.unsound "B" .declaredTwice) := by
    decide +kernel
  have h := (rebuilds_have_members (withDuplicate "A" thinned) {}).2.2 hfilled
  ⟨hfilled, happly, (h.1 _ happly).2.2.1, herror, h.2 "B" .declaredTwice herror⟩

end SourceFile

end Declutter
