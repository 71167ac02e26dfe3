import Declutter.Proofs.RootedFiles

/-!
# Running the pipeline twice

A second run of the pipeline finds the root where the first one left it, and has nothing to rename,
inject or merge (`rooted_of_applyRoot`). A check that was passed against the names of the file
before is passed against the file's own names. What is left is the clean-up: it works a second time
exactly if the first time left a stray record.
-/

namespace Declutter

/-! ## The check -/

/-- No name is dangling in the file that declares it. -/
theorem isDangling_self (now : List String) (name : String) : isDangling now now name = false := by
  simp [isDangling]

theorem TypeNode.defect?_self {before now : List String} {node : TypeNode}
    (h : node.defect? before now = none) : node.defect? now now = none := by
  unfold defect? at h ⊢
  split
  · simp at h
  · simp at h
  · rename_i name arguments
    simp only at h
    split at h
    · cases h
    · rename_i hname
      rw [if_neg hname, isDangling_self, if_neg (by simp)]
  · rfl

/-- What is wrong with an alias or an interface is wrong with one of its types. -/
theorem Statement.fault?_eq_none_iff {before now : List String} {statement : Statement}
    (h : ∀ decl, statement ≠ .verbatim decl) :
    statement.fault? before now = none ↔ ∀ type ∈ statement.types,
      TypeNode.Everywhere (fun node => node.defect? before now = none) type := by
  rw [fault?.eq_2 _ _ _ h, Option.map_eq_none_iff, List.findSome?_eq_none_iff]
  simp only [List.mem_flatMap, forall_exists_index, and_imp]
  exact ⟨fun h type htype node hnode => h node type htype hnode,
    fun h node type htype hnode => h type htype node hnode⟩

theorem Statement.fault?_self {before now : List String} {statement : Statement}
    (h : statement.fault? before now = none) : statement.fault? now now = none := by
  by_cases hverbatim : ∃ decl, statement = .verbatim decl
  · obtain ⟨decl, rfl⟩ := hverbatim
    rw [fault?, Option.map_eq_none_iff, List.find?_eq_none]
    intro word _
    simp [isDangling_self]
  · have hmodelled : ∀ decl, statement ≠ .verbatim decl := fun decl heq => hverbatim ⟨decl, heq⟩
    rw [fault?_eq_none_iff hmodelled] at h ⊢
    intro type htype node hnode
    exact TypeNode.defect?_self (h type htype node hnode)

namespace SourceFile

/-- A file is accepted if nothing is wrong with its names and with its statements. -/
theorem check_eq_ok_iff {file : SourceFile} {before : List String} :
    file.check before = .ok () ↔ nameFault? [] (file.statements.filterMap (·.name?)) = none ∧
      ∀ statement ∈ file.statements, statement.fault? before file.declaredNames = none := by
  have hfault : file.check before = .ok () ↔ file.fault? before = none := by
    unfold check
    split <;> simp_all
  rw [hfault, fault?, Option.orElse_eq_orElse, Option.orElse_eq_or, Option.or_eq_none_iff,
    List.findSome?_eq_none_iff]

/-- A file that was accepted next to the names of another is accepted next to its own. -/
theorem check_declaredNames {file : SourceFile} {before : List String}
    (h : file.check before = .ok ()) : file.check file.declaredNames = .ok () := by
  rw [check_eq_ok_iff] at h ⊢
  obtain ⟨hnames, hstatements⟩ := h
  exact ⟨hnames, fun statement hmem => Statement.fault?_self (hstatements statement hmem)⟩

/-! ## The second run -/

/-- With the root in front or asked for by its new name, a second run changes the result of the
first one exactly if that has a stray record. -/
theorem transform_transform_iff {file result : SourceFile} {options : Options}
    (hroot : options.rootAlias = none ∨ options.rootAlias = some options.rootName)
    (h : file.transform options = .ok result) :
    result.transform options = .ok result ↔ ∀ node ∈ result.visit, ¬node.HasStrayRecord := by
  obtain ⟨rooted, happly, rfl, hcheck⟩ := transform_eq_ok_iff.mp h
  -- the edits of the root are done, so the second run is the clean-up and the check
  have hstays : rooted.cleanUp.applyRoot options = .ok rooted.cleanUp :=
    (rooted_of_applyRoot hroot happly).cleanUp.applyRoot_eq
  rw [← cleanUp_cleanUp_eq_self_iff, transform_eq_ok_iff]
  constructor
  · rintro ⟨again, hagain, hclean, _⟩
    obtain rfl : rooted.cleanUp = again := Except.ok.inj (hstays.symm.trans hagain)
    exact hclean
  · intro hclean
    exact ⟨rooted.cleanUp, hstays, hclean, check_declaredNames hcheck⟩

/-- `declare type A = "a" | string | { [k: string]: unknown };` and
`interface N { x: A; [k: string]: unknown; }` -/
def cluttered : SourceFile :=
  ⟨[.typeAlias ⟨[], [.declared], "A", .union [.stringLiteral "a", .keyword .string,
      .typeLiteral [.index ⟨[], false, "k", .keyword .string, .keyword .unknown⟩]]⟩,
    .interface ⟨[], [], "N", [], [.property ⟨[], false, "x", false, .named "A"⟩,
      .index ⟨[], false, "k", .keyword .string, .keyword .unknown⟩]⟩], []⟩

/-- `type Tsconfig = "a";` and `interface N { kind?: "n"; x: Tsconfig; }` -/
def decluttered : SourceFile :=
  ⟨[.typeAlias ⟨[], [], "Tsconfig", .stringLiteral "a"⟩,
    .interface ⟨[], [], "N", [], [.property ⟨[], false, "kind", true, .stringLiteral "n"⟩,
      .property ⟨[], false, "x", false, .named "Tsconfig"⟩]⟩], []⟩

/-- The options that ask for `kind`. -/
def askForKind : Options := { injectProperty := some ⟨"N", "kind", "n"⟩ }

/-- All rewritings have something to do here, and leave no stray record. -/
theorem transform_transform_cluttered :
    (askForKind.rootAlias = none ∨ askForKind.rootAlias = some askForKind.rootName) ∧
      cluttered.transform askForKind = .ok decluttered ∧
      (decluttered.transform askForKind = .ok decluttered ↔
        ∀ node ∈ decluttered.visit, ¬node.HasStrayRecord) :=
  have hroot : askForKind.rootAlias = none ∨ askForKind.rootAlias = some askForKind.rootName :=
    .inl rfl
  have h : cluttered.transform askForKind = .ok decluttered := rfl
  ⟨hroot, h, transform_transform_iff hroot h⟩

/-! ### A record that is left behind

Whether a union member is an unknown record is asked before its own types are rewritten. The index
signature below becomes unknown only then, and so outlives the first run. -/

/-- `type name = B | { [k: string]: value };` -/
def recordBesides (name : String) (value : TypeNode) : SourceFile :=
  ⟨[.typeAlias ⟨[], [], name, .union [.named "B",
    .typeLiteral [.index ⟨[], false, "k", .keyword .string, value⟩]]⟩], []⟩

/-- `type A = B | { [k: string]: unknown | { [j: string]: unknown } };` takes two runs, the second
of which leaves only `B`. -/
theorem exists_transform_transform_ne :
    ∃ (file result : SourceFile) (options : Options),
      (options.rootAlias = none ∨ options.rootAlias = some options.rootName) ∧
        file.transform options = .ok result ∧ result.transform options ≠ .ok result :=
  ⟨recordBesides "A" (.union [.keyword .unknown,
      .typeLiteral [.index ⟨[], false, "j", .keyword .string, .keyword .unknown⟩]]),
    recordBesides "Tsconfig" (.keyword .unknown), {}, .inl rfl, rfl,
    by decide +kernel⟩

end SourceFile

end Declutter
