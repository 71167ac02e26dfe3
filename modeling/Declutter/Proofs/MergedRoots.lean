import Declutter.Proofs.Defects

/-!
# What merging the root does besides

Merging unions comes before the clean-up, which treats intersections in another way than unions,
and before the check. It is the business of the root alone nevertheless: whether a file is refused
does not depend on it, the root has no union afterwards, and every other statement is what it is
without merging (`transform_mergeRootUnions`).

The two runs part only at the root alias, which `exists_isRoot_of_applyRoot` finds once it is
renamed.
-/

namespace Declutter.SourceFile

/-! ## The root after renaming -/

theorem rootName_some_iff {file : SourceFile} {name : String} :
    file.rootName (some name) = .ok name ↔ name ∈ file.statements.filterMap (·.aliasName?) := by
  unfold rootName
  simp only
  split
  · rename_i hmem
    exact iff_of_true rfl hmem
  · rename_i hmem
    exact iff_of_false (by simp) hmem

/-- The root stands among the aliases of a renamed file under its new name. -/
theorem rootName_some_renameFrom {file : SourceFile} {wanted : Option String} {old : String}
    (h : file.rootName wanted = .ok old) (new : String) :
    (file.renameFrom old new).rootName (some new) = .ok new := by
  obtain ⟨before, root, after, hroot, rfl⟩ := exists_isRoot h
  have hname : ((Statement.typeAlias { root with name := new }).followed root.name new).aliasName? =
      some new := rfl
  rw [rootName_some_iff, hroot.statements_renameFrom, List.filterMap_append,
    List.filterMap_cons_some hname, List.mem_append]
  exact .inr List.mem_cons_self

/-- The edits of the root leave an alias of the wanted name. -/
theorem exists_isRoot_of_applyRoot {file rooted : SourceFile} {options : Options}
    (h : file.applyRoot options = .ok rooted) :
    ∃ before root after, rooted.IsRoot (some options.rootName) before root after ∧
      root.name = options.rootName := by
  obtain ⟨_, old, hold, rfl⟩ := applyRoot_eq_ok_iff.mp h
  have hpruned := pruned_renameFrom file old options.rootName
  obtain ⟨hinjectName, hinjectPruned⟩ := keeps_of_injectAsked options hpruned
  obtain ⟨hmergeName, _⟩ := keeps_of_mergeAsked options hinjectPruned
  apply exists_isRoot
  rw [hmergeName, hinjectName, rootName_some_renameFrom hold]

/-! ## Merging under the root -/

/-- Merging changes the root and no other statement. -/
theorem IsRoot.statements_mergeRootUnions {file : SourceFile} {name : String}
    {before after : List Statement} {root : TypeAlias}
    (h : file.IsRoot (some name) before root after) :
    (file.mergeRootUnions name).statements =
      before ++ .typeAlias { root with type := root.type.mergeUnions } :: after := by
  have hname : root.name = name := h.name_eq name rfl
  have hbefore : ∀ statement ∈ before, statement.mergeUnions? name = none := by
    intro statement hmem
    have hother : statement.aliasName? ≠ some name := hname ▸ h.aliasName?_ne statement hmem
    cases statement with
    | typeAlias decl =>
      rw [Statement.mergeUnions?, if_neg fun heq => hother (congrArg some heq)]
    | _ => rfl
  have hroot : (Statement.typeAlias root).mergeUnions? name =
      some (.typeAlias { root with type := root.type.mergeUnions }) :=
    Statement.mergeUnions?_eq_some_iff.mpr ⟨root, rfl, hname, rfl⟩
  rw [mergeRootUnions, h.statements_eq, updateFirst_append hbefore hroot]

theorem applyRoot_merging_iff {file merged : SourceFile} {options : Options} :
    file.applyRoot { options with mergeRootUnions := true } = .ok merged ↔
      ∃ rooted, file.applyRoot { options with mergeRootUnions := false } = .ok rooted ∧
        rooted.mergeRootUnions options.rootName = merged := by
  have hplain (file : SourceFile) :
      file.mergeAsked { options with mergeRootUnions := false } = file := if_neg (by simp)
  have hmerge (file : SourceFile) : file.mergeAsked { options with mergeRootUnions := true } =
      file.mergeRootUnions options.rootName := if_pos rfl
  simp only [applyRoot_eq_ok_iff, hplain, hmerge]
  constructor
  · rintro ⟨hvalid, old, hold, rfl⟩
    exact ⟨_, ⟨hvalid, old, hold, rfl⟩, rfl⟩
  · rintro ⟨_, ⟨hvalid, old, hold, rfl⟩, rfl⟩
    exact ⟨hvalid, old, hold, rfl⟩

/-- Without merging, a file is accepted if it is accepted as the edits of the root leave it. -/
theorem transform_plain_iff {file plain : SourceFile} {options : Options} :
    file.transform { options with mergeRootUnions := false } = .ok plain ↔
      ∃ rooted, file.applyRoot { options with mergeRootUnions := false } = .ok rooted ∧
        rooted.check file.declaredNames = .ok () ∧ rooted.cleanUp = plain := by
  rw [transform_eq_ok_iff]
  refine exists_congr fun rooted => and_congr_right fun _ => ?_
  constructor
  · rintro ⟨rfl, hcheck⟩
    exact ⟨(check_cleanUp_iff rooted _).mp hcheck, rfl⟩
  · rintro ⟨hcheck, rfl⟩
    exact ⟨rfl, (check_cleanUp_iff rooted _).mpr hcheck⟩

/-- With merging, what is asked of the file is the same. -/
theorem transform_merging_iff {file merged : SourceFile} {options : Options} :
    file.transform { options with mergeRootUnions := true } = .ok merged ↔
      ∃ rooted, file.applyRoot { options with mergeRootUnions := false } = .ok rooted ∧
        rooted.check file.declaredNames = .ok () ∧
          (rooted.mergeRootUnions options.rootName).cleanUp = merged := by
  rw [transform_eq_ok_iff]
  have hcheck (rooted : SourceFile) :
      (rooted.mergeRootUnions options.rootName).cleanUp.check file.declaredNames = .ok () ↔
        rooted.check file.declaredNames = .ok () := by
    rw [check_cleanUp_iff, check_mergeRootUnions_iff]
  constructor
  · rintro ⟨_, happly, rfl, haccepted⟩
    obtain ⟨rooted, hplain, rfl⟩ := applyRoot_merging_iff.mp happly
    exact ⟨rooted, hplain, (hcheck rooted).mp haccepted, rfl⟩
  · rintro ⟨rooted, hplain, haccepted, rfl⟩
    exact ⟨_, applyRoot_merging_iff.mpr ⟨rooted, hplain, rfl⟩, rfl, (hcheck rooted).mpr haccepted⟩

/-- In a file that is accepted no other statement has the name of one of them. -/
theorem name?_ne_of_check {file : SourceFile} {names : List String} {name : String}
    {before after : List Statement} {statement : Statement} (h : file.check names = .ok ())
    (hsplit : file.statements = before ++ statement :: after)
    (hname : statement.name? = some name) :
    ∀ other ∈ before ++ after, other.name? ≠ some name := by
  have hnodup : (file.statements.filterMap (·.name?)).Nodup :=
    (nameFault?_eq_none_iff.mp (check_eq_ok_iff.mp h).1).2.1
  rw [hsplit, List.filterMap_append, List.filterMap_cons_some hname, List.nodup_middle,
    ← List.filterMap_append, List.nodup_cons] at hnodup
  exact fun other hmem hother => hnodup.1 (List.mem_filterMap.mpr ⟨other, hmem, hother⟩)

/-- Merging does not decide whether a file is accepted. It leaves no union at any depth of the root,
and every other statement as it is without merging. -/
theorem transform_mergeRootUnions (file : SourceFile) (options : Options) :
    ((∃ merged, file.transform { options with mergeRootUnions := true } = .ok merged) ↔
        ∃ plain, file.transform { options with mergeRootUnions := false } = .ok plain) ∧
      ∀ merged plain,
        file.transform { options with mergeRootUnions := true } = .ok merged →
        file.transform { options with mergeRootUnions := false } = .ok plain →
        ∃ before root type after,
          plain.statements = before ++ .typeAlias root :: after ∧
          merged.statements = before ++ .typeAlias { root with type := type } :: after ∧
          root.name = options.rootName ∧
          (∀ statement ∈ before ++ after, statement.name? ≠ some options.rootName) ∧
          (∀ node ∈ type.visit, ∀ members, node ≠ .union members) ∧
          merged.trailingComments = plain.trailingComments := by
  constructor
  · simp only [transform_merging_iff, transform_plain_iff]
    constructor
    · rintro ⟨_, rooted, happly, hcheck, _⟩
      exact ⟨_, rooted, happly, hcheck, rfl⟩
    · rintro ⟨_, rooted, happly, hcheck, _⟩
      exact ⟨_, rooted, happly, hcheck, rfl⟩
  · intro merged plain hmerged hplain
    -- both runs clean up what the same edits of the root have left
    obtain ⟨rooted, happly, _, rfl⟩ := transform_merging_iff.mp hmerged
    obtain ⟨_, hagain, hcheck, rfl⟩ := transform_plain_iff.mp hplain
    obtain rfl := Except.ok.inj (happly.symm.trans hagain)
    obtain ⟨before, root, after, hroot, hname⟩ := exists_isRoot_of_applyRoot happly
    have hplainSplit : rooted.cleanUp.statements = before.map Statement.cleanUp ++
        .typeAlias { root with type := root.type.cleanUp } :: after.map Statement.cleanUp := by
      rw [statements_cleanUp, hroot.statements_eq, List.map_append, List.map_cons,
        Statement.cleanUp_typeAlias]
    have hmergedSplit : (rooted.mergeRootUnions options.rootName).cleanUp.statements =
        before.map Statement.cleanUp ++
          .typeAlias { root with type := root.type.mergeUnions.cleanUp } ::
            after.map Statement.cleanUp := by
      rw [statements_cleanUp, hroot.statements_mergeRootUnions, List.map_append, List.map_cons,
        Statement.cleanUp_typeAlias]
    refine ⟨_, _, _, _, hplainSplit, hmergedSplit, hname, ?_, ?_, ?_⟩
    · exact name?_ne_of_check ((check_cleanUp_iff rooted _).mpr hcheck) hplainSplit
        (congrArg some hname)
    · exact TypeNode.everywhere_isNoUnion_cleanUp
        (TypeNode.everywhere_isNoUnion_mergeUnions root.type)
    · rw [cleanUp_eq, cleanUp_eq, mergeRootUnions]

/-- `type name = root;` and `type B = other;` -/
def twoAliases (name : String) (root other : TypeNode) : SourceFile :=
  ⟨[.typeAlias ⟨[], [], name, root⟩, .typeAlias ⟨[], [], "B", other⟩], []⟩

/-- `{ [k: string]: unknown }` -/
def unknownRecord : TypeNode :=
  .typeLiteral [.index ⟨[], false, "k", .keyword .string, .keyword .unknown⟩]

/-- `type A = B | { [k: string]: unknown };` and `type B = number | { [k: string]: unknown };` -/
def recordsInUnions : SourceFile :=
  twoAliases "A" (.union [.named "B", unknownRecord]) (.union [.keyword .number, unknownRecord])

/-- `type Tsconfig = B & { [k: string]: unknown };` and `type B = number;` -/
def recordMerged : SourceFile :=
  twoAliases "Tsconfig" (.intersection [.named "B", unknownRecord]) (.keyword .number)

/-- `type Tsconfig = B;` and `type B = number;` -/
def recordsDropped : SourceFile := twoAliases "Tsconfig" (.named "B") (.keyword .number)

/-- The root keeps its record if it is merged, and the other alias loses it all the same. -/
theorem transform_mergeRootUnions_recordsInUnions :
    recordsInUnions.transform { mergeRootUnions := true } = .ok recordMerged ∧
      recordsInUnions.transform { mergeRootUnions := false } = .ok recordsDropped ∧
      ∃ before root type after,
        recordsDropped.statements = before ++ .typeAlias root :: after ∧
        recordMerged.statements = before ++ .typeAlias { root with type := type } :: after ∧
        root.name = ({} : Options).rootName ∧
        (∀ statement ∈ before ++ after, statement.name? ≠ some ({} : Options).rootName) ∧
        (∀ node ∈ type.visit, ∀ members, node ≠ .union members) ∧
        recordMerged.trailingComments = recordsDropped.trailingComments :=
  have hmerged : recordsInUnions.transform { mergeRootUnions := true } = .ok recordMerged := rfl
  have hplain : recordsInUnions.transform { mergeRootUnions := false } = .ok recordsDropped := rfl
  ⟨hmerged, hplain,
    (transform_mergeRootUnions recordsInUnions {}).2 recordMerged recordsDropped hmerged hplain⟩

end Declutter.SourceFile
