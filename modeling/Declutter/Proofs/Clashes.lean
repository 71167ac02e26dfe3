import Declutter.Proofs.Idempotence
import Declutter.Proofs.Renaming
import Mathlib.Data.List.Nodup

/-!
# Names that clash

The check of a file refuses a name that two aliases or interfaces declare: `nameFault?_eq_none_iff`
says when it finds nothing to object to. Nothing behind the renaming of the root changes the names
that are declared, so a root that takes the name of another alias or interface is found out:
`transform_of_clash`.

Names that verbatim text declares are no part of that check, though they count among the declared
names of a file. A root that takes such a name is accepted: `exists_transform_of_verbatim_clash`.
-/

namespace Declutter

/-! ## The check of names -/

/-- Names pass if they are identifiers, each declared once and none seen before. -/
theorem nameFault?_eq_none_iff {seen names : List String} :
    nameFault? seen names = none ↔
      (∀ name ∈ names, isIdentifier name = true) ∧ names.Nodup ∧ ∀ name ∈ names, name ∉ seen := by
  induction names generalizing seen with
  | nil => simp [nameFault?]
  | cons name names ih =>
    rw [nameFault?]
    split
    · rename_i hinvalid
      refine iff_of_false (by simp) fun h => ?_
      rw [h.1 name List.mem_cons_self] at hinvalid
      cases hinvalid
    · rename_i hvalid
      split
      · rename_i hseen
        refine iff_of_false (by simp) fun h => ?_
        exact h.2.2 name List.mem_cons_self (List.contains_iff_mem.mp hseen)
      · rename_i hseen
        rw [List.contains_iff_mem] at hseen
        rw [ih, List.nodup_cons]
        constructor
        · rintro ⟨hvalids, hnodup, hnew⟩
          refine ⟨?_, ⟨fun hmem => hnew name hmem List.mem_cons_self, hnodup⟩, ?_⟩
          · rw [List.forall_mem_cons]
            exact ⟨by simpa using hvalid, hvalids⟩
          · rw [List.forall_mem_cons]
            exact ⟨hseen, fun other hmem hother =>
              hnew other hmem (List.mem_cons_of_mem name hother)⟩
        · rintro ⟨hvalids, ⟨hname, hnodup⟩, hnew⟩
          refine ⟨fun other hmem => hvalids other (List.mem_cons_of_mem name hmem), hnodup,
            fun other hmem hother => ?_⟩
          rcases List.mem_cons.mp hother with rfl | hother
          · exact hname hmem
          · exact hnew other (List.mem_cons_of_mem name hmem) hother

/-- What can be wrong with a name. -/
theorem exists_unsound_of_nameFault? {seen names : List String} {error : Error}
    (h : nameFault? seen names = some error) :
    ∃ path defect, error = .unsound path defect ∧
      (defect = .invalidName ∨ defect = .declaredTwice) := by
  induction names generalizing seen with
  | nil => cases h
  | cons name names ih =>
    rw [nameFault?] at h
    split at h
    · exact ⟨name, .invalidName, (Option.some.inj h).symm, .inl rfl⟩
    · split at h
      · exact ⟨name, .declaredTwice, (Option.some.inj h).symm, .inr rfl⟩
      · exact ih h

namespace SourceFile

/-- The names that aliases and interfaces declare. -/
def modelledNames (file : SourceFile) : List String := file.statements.filterMap (·.name?)

/-- A file is refused if a name is declared twice in it. -/
theorem check_of_not_nodup {file : SourceFile} (h : ¬file.modelledNames.Nodup)
    (before : List String) : ∃ path defect, file.check before = .error (.unsound path defect) := by
  cases hfault : nameFault? [] file.modelledNames with
  | none => exact absurd (nameFault?_eq_none_iff.mp hfault).2.1 h
  | some error =>
    obtain ⟨path, defect, rfl, _⟩ := exists_unsound_of_nameFault? hfault
    refine ⟨path, defect, ?_⟩
    have hfile : file.fault? before = some (.unsound path defect) := by
      rw [fault?, show file.statements.filterMap (·.name?) = file.modelledNames from rfl, hfault]
      rfl
    rw [check, hfile]

/-! ## The names that are declared -/

theorem modelledNames_eq (file : SourceFile) :
    file.modelledNames = (file.statements.map (·.name?)).filterMap id := by
  rw [modelledNames, List.filterMap_map, Function.id_comp]

theorem declaredNames_eq (file : SourceFile) :
    file.declaredNames = (file.statements.map (·.declaredName?)).filterMap id := by
  rw [declaredNames, List.filterMap_map, Function.id_comp]

/-- Of files that declare the same names the statements alone decide which of them is accepted. -/
theorem check_eq_ok_iff_of_names {file other : SourceFile} {before : List String}
    (hname : other.statements.map (·.name?) = file.statements.map (·.name?))
    (hdeclared : other.statements.map (·.declaredName?) = file.statements.map (·.declaredName?)) :
    other.check before = .ok () ↔ nameFault? [] file.modelledNames = none ∧
      ∀ statement ∈ other.statements, statement.fault? before file.declaredNames = none := by
  have hmodelled : other.modelledNames = file.modelledNames := by
    rw [modelledNames_eq, modelledNames_eq, hname]
  have hnames : other.declaredNames = file.declaredNames := by
    rw [declaredNames_eq, declaredNames_eq, hdeclared]
  rw [check_eq_ok_iff, hnames]
  exact and_congr_left' (by rw [← hmodelled]; rfl)

theorem name?_cleanUp (statement : Statement) : statement.cleanUp.name? = statement.name? := by
  cases statement <;> rfl

theorem modelledNames_cleanUp (file : SourceFile) :
    file.cleanUp.modelledNames = file.modelledNames := by
  rw [modelledNames_eq, modelledNames_eq, statements_cleanUp, List.map_map]
  congr 1
  exact List.map_congr_left fun statement _ => name?_cleanUp statement

theorem modelledNames_injectAsked (file : SourceFile) (options : Options) :
    (file.injectAsked options).modelledNames = file.modelledNames := by
  unfold injectAsked
  split
  · rw [modelledNames_eq, modelledNames_eq, injectProperty]
    refine congrArg _ (map_updateFirst (fun statement injected h => ?_) file.statements)
    obtain ⟨decl, rfl, _, rfl⟩ := Statement.inject?_eq_some_iff.mp h
    simp only [Statement.name?]
    split <;> rfl
  · rfl

theorem modelledNames_mergeAsked (file : SourceFile) (options : Options) :
    (file.mergeAsked options).modelledNames = file.modelledNames := by
  unfold mergeAsked
  split
  · rw [modelledNames_eq, modelledNames_eq, mergeRootUnions]
    refine congrArg _ (map_updateFirst (fun statement merged h => ?_) file.statements)
    obtain ⟨decl, rfl, _, rfl⟩ := Statement.mergeUnions?_eq_some_iff.mp h
    rfl
  · rfl

/-- A root that takes the name of another declaration makes that name one that is declared twice. -/
theorem not_nodup_modelledNames_renameFrom {file : SourceFile} {wanted : Option String}
    {old new : String} (hroot : file.rootName wanted = .ok old) (hne : old ≠ new)
    (hclash : new ∈ file.modelledNames) : ¬(file.renameFrom old new).modelledNames.Nodup := by
  obtain ⟨before, root, after, hsplit, rfl⟩ := exists_isRoot hroot
  have hnames : (file.renameFrom root.name new).modelledNames =
      before.filterMap (·.name?) ++ new :: after.filterMap (·.name?) := by
    have hnew : ((Statement.typeAlias { root with name := new }).followed root.name new).name? =
        some new := rfl
    rw [modelledNames, hsplit.statements_renameFrom]
    simp only [List.filterMap_append, List.filterMap_cons, hnew, List.filterMap_map,
      Function.comp_def, Statement.name?_followed]
  have hothers : new ∈ before.filterMap (·.name?) ++ after.filterMap (·.name?) := by
    have hfile : file.modelledNames =
        before.filterMap (·.name?) ++ root.name :: after.filterMap (·.name?) := by
      rw [modelledNames, hsplit.statements_eq, List.filterMap_append]
      rfl
    rw [hfile, List.mem_append, List.mem_cons] at hclash
    rw [List.mem_append]
    rcases hclash with hclash | rfl | hclash
    · exact .inl hclash
    · exact absurd rfl hne
    · exact .inr hclash
  rw [hnames, List.nodup_middle, List.nodup_cons]
  exact fun h => h.1 hothers

/-! ## Roots that clash -/

/-- A root that takes the name of another alias or interface is refused. -/
theorem transform_of_clash {file : SourceFile} {options : Options} {old : String}
    (hvalid : isIdentifier options.rootName = true)
    (hroot : file.rootName options.rootAlias = .ok old) (hne : old ≠ options.rootName)
    (hclash : options.rootName ∈ file.modelledNames) :
    ∃ path defect, file.transform options = .error (.unsound path defect) := by
  have happly := applyRoot_eq_ok_iff.mpr ⟨hvalid, old, hroot, rfl⟩
  have htwice : ¬((((file.renameFrom old options.rootName).injectAsked options).mergeAsked
      options).cleanUp).modelledNames.Nodup := by
    rw [modelledNames_cleanUp, modelledNames_mergeAsked, modelledNames_injectAsked]
    exact not_nodup_modelledNames_renameFrom hroot hne hclash
  obtain ⟨path, defect, hcheck⟩ := check_of_not_nodup htwice file.declaredNames
  refine ⟨path, defect, ?_⟩
  rw [transform, happly]
  simp only [bind, Except.bind, hcheck]

/-- `type A = B;` and `interface B { x: A; }` -/
def pair : SourceFile :=
  ⟨[.typeAlias ⟨[], [], "A", .named "B"⟩,
    .interface ⟨[], [], "B", [], [.property ⟨[], false, "x", false, .named "A"⟩]⟩], []⟩

/-- The root cannot be called like the interface that it refers to. -/
theorem transform_pair :
    isIdentifier ({ rootName := "B" } : Options).rootName = true ∧
      pair.rootName ({ rootName := "B" } : Options).rootAlias = .ok "A" ∧ "A" ≠ "B" ∧
      "B" ∈ pair.modelledNames ∧
      ∃ path defect, pair.transform { rootName := "B" } = .error (.unsound path defect) :=
  have hvalid : isIdentifier ({ rootName := "B" } : Options).rootName = true := rfl
  have hroot : pair.rootName ({ rootName := "B" } : Options).rootAlias = .ok "A" := rfl
  have hclash : "B" ∈ pair.modelledNames := by decide
  ⟨hvalid, hroot, by decide, hclash, transform_of_clash hvalid hroot (by decide) hclash⟩

/-- In `type A = string; enum Tsconfig { X }` the root takes the name of the enumeration, which is
a declared name, and is accepted. -/
theorem exists_transform_of_verbatim_clash :
    ∃ (file result : SourceFile) (options : Options) (old : String),
      isIdentifier options.rootName = true ∧ file.rootName options.rootAlias = .ok old ∧
        old ≠ options.rootName ∧ options.rootName ∈ file.declaredNames ∧
        file.transform options = .ok result :=
  ⟨⟨[.typeAlias ⟨[], [], "A", .keyword .string⟩, .verbatim ⟨[], "enum Tsconfig \x7b X \x7d"⟩], []⟩,
    ⟨[.typeAlias ⟨[], [], "Tsconfig", .keyword .string⟩,
      .verbatim ⟨[], "enum Tsconfig \x7b X \x7d"⟩], []⟩,
    {}, "A", by decide +kernel, by decide +kernel, by decide, by decide +kernel,
    by decide +kernel⟩

end SourceFile

end Declutter
