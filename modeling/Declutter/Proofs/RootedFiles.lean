import Declutter.Proofs.RootEdits

/-!
# Files whose root has been edited

A file is `Rooted` for some options if the edits of the root that they ask for have been made: its
root alias has the public name, its declarations have no modifiers but `export`, the property is
injected, and under the root no union is left if unions are to be merged.

The edits make a file rooted (`rooted_of_applyRoot`), a rooted file is not changed by them any more
(`Rooted.applyRoot_eq`), and cleaning up keeps a file rooted (`Rooted.cleanUp`).
-/

namespace Declutter

/-! ## Rooted files -/

namespace SourceFile

/-- A file with the property that the options ask for. -/
def injectAsked (file : SourceFile) (options : Options) : SourceFile :=
  match options.injectProperty with
  | some property => file.injectProperty property
  | none => file

/-- A file with the unions under its root merged if the options ask for it. -/
def mergeAsked (file : SourceFile) (options : Options) : SourceFile :=
  if options.mergeRootUnions then file.mergeRootUnions options.rootName else file

/-- The edits of the root are renaming, injecting and merging, in this order. -/
theorem applyRoot_eq_ok_iff {file rooted : SourceFile} {options : Options} :
    file.applyRoot options = .ok rooted ↔ isIdentifier options.rootName = true ∧
      ∃ old, file.rootName options.rootAlias = .ok old ∧
        ((file.renameFrom old options.rootName).injectAsked options).mergeAsked options =
          rooted := by
  have hbind : file.applyRoot options = .ok rooted ↔ ∃ renamed,
      file.renameRoot options.rootName options.rootAlias = .ok renamed ∧
        (renamed.injectAsked options).mergeAsked options = rooted := by
    unfold applyRoot
    cases file.renameRoot options.rootName options.rootAlias with
    | error =>
      constructor
      · intro h; cases h
      · rintro ⟨_, h, _⟩; cases h
    | ok renamed =>
      constructor
      · intro h
        exact ⟨renamed, rfl, Except.ok.inj h⟩
      · rintro ⟨_, h, rfl⟩
        obtain rfl := Except.ok.inj h
        rfl
  rw [hbind]
  constructor
  · rintro ⟨_, h, heq⟩
    obtain ⟨hvalid, old, hold, rfl⟩ := renameRoot_eq_ok_iff.mp h
    exact ⟨hvalid, old, hold, heq⟩
  · rintro ⟨hvalid, old, hold, heq⟩
    exact ⟨_, renameRoot_eq_ok_iff.mpr ⟨hvalid, old, hold, rfl⟩, heq⟩

/-- A file in which the edits of the root have been made. -/
structure Rooted (file : SourceFile) (options : Options) : Prop where
  validName : isIdentifier options.rootName = true
  rootName_eq : file.rootName options.rootAlias = .ok options.rootName
  pruned : ∀ statement ∈ file.statements, statement.pruneModifiers = statement
  injected : file.injectAsked options = file
  merged : file.mergeAsked options = file

theorem rootName_congr {file other : SourceFile} (wanted : Option String)
    (h : file.statements.map (·.aliasName?) = other.statements.map (·.aliasName?)) :
    file.rootName wanted = other.rootName wanted := by
  have hnames : file.statements.filterMap (·.aliasName?) =
      other.statements.filterMap (·.aliasName?) := by
    have hid := congrArg (List.filterMap id) h
    rwa [List.filterMap_map, List.filterMap_map] at hid
  unfold rootName
  rw [hnames]

theorem statements_eq_iff {file : SourceFile} {statements : List Statement} :
    { file with statements := statements } = file ↔ statements = file.statements := by
  cases file
  simp

theorem Rooted.renameFrom_eq {file : SourceFile} {options : Options} (h : file.Rooted options) :
    file.renameFrom options.rootName options.rootName = file := by
  have hnamed : updateFirst (Statement.renameAlias? options.rootName options.rootName)
      file.statements = file.statements :=
    updateFirst_eq_self fun _ _ _ hrenamed => Statement.renameAlias?_self hrenamed
  rw [renameFrom, if_pos rfl, statements_eq_iff, hnamed]
  refine TypeNode.map_eq_self fun statement hmem => ?_
  rw [h.pruned statement hmem, Statement.renameWords_self]

/-- The edits of the root leave a rooted file as it is. -/
theorem Rooted.applyRoot_eq {file : SourceFile} {options : Options} (h : file.Rooted options) :
    file.applyRoot options = .ok file := by
  refine applyRoot_eq_ok_iff.mpr ⟨h.validName, options.rootName, h.rootName_eq, ?_⟩
  rw [h.renameFrom_eq, h.injected, h.merged]

/-! ### Renaming -/

theorem aliasNames_renameFrom (file : SourceFile) (old new : String) :
    (file.renameFrom old new).statements.map (·.aliasName?) =
      (updateFirst (Statement.renameAlias? old new)
        (if old = new then file.statements
          else file.statements.map (·.mapTypes (TypeNode.renameReferences old new)))).map
        (·.aliasName?) := by
  rw [renameFrom, List.map_map]
  split <;> simp [Function.comp_def, mapTypes]

/-- Renaming the first alias puts the new name in front. -/
theorem filterMap_aliasName?_updateFirst {old new : String} {statements : List Statement}
    (names : List String) (h : statements.filterMap (·.aliasName?) = old :: names) :
    (updateFirst (Statement.renameAlias? old new) statements).filterMap (·.aliasName?) =
      new :: names := by
  induction statements with
  | nil => cases h
  | cons statement statements ih =>
    cases hname : statement.aliasName? with
    | none =>
      rw [List.filterMap_cons_none hname] at h
      rw [updateFirst_cons_none (Statement.renameAlias?_eq_none (by simp [hname])),
        List.filterMap_cons_none hname, ih h]
    | some name =>
      rw [List.filterMap_cons_some hname, List.cons.injEq] at h
      obtain ⟨rfl, hnames⟩ := h
      obtain ⟨renamed, hrenamed, hnew⟩ := Statement.renameAlias?_of_aliasName? new hname
      rw [updateFirst_cons_some hrenamed, List.filterMap_cons_some hnew, hnames]

/-- Once renamed, the root is found under its new name. -/
theorem rootName_renameFrom {file : SourceFile} {old new : String} {wanted : Option String}
    (hwanted : wanted = none ∨ wanted = some new) (h : file.rootName wanted = .ok old) :
    (file.renameFrom old new).rootName wanted = .ok new := by
  have hnames := congrArg (List.filterMap id) (file.aliasNames_renameFrom old new)
  rw [List.filterMap_map, List.filterMap_map] at hnames
  simp only [Function.id_comp] at hnames
  rcases hwanted with rfl | rfl
  · -- the root is the first alias
    unfold rootName at h ⊢
    simp only at h ⊢
    split at h
    · rename_i name names hold
      obtain rfl : name = old := Except.ok.inj h
      rw [hnames, filterMap_aliasName?_updateFirst names]
      split
      · exact hold
      · rw [List.filterMap_map]
        simpa only [Function.comp_def, Statement.aliasName?_mapTypes] using hold
    · cases h
  · -- the root has been asked for by its new name
    unfold rootName at h ⊢
    simp only at h ⊢
    split at h
    · rename_i hmem
      obtain rfl : new = old := Except.ok.inj h
      rw [if_pos rfl, updateFirst_eq_self fun _ _ _ hrenamed =>
        Statement.renameAlias?_self hrenamed] at hnames
      rw [hnames, if_pos hmem]
    · cases h

theorem pruned_renameFrom (file : SourceFile) (old new : String) :
    ∀ statement ∈ (file.renameFrom old new).statements,
      statement.pruneModifiers = statement := by
  intro statement hmem
  rw [renameFrom] at hmem
  obtain ⟨before, _, rfl⟩ := List.mem_map.mp hmem
  rw [Statement.pruneModifiers_renameWords, Statement.pruneModifiers_pruneModifiers]

/-! ### Injecting and merging -/

/-- An update that keeps names and modifiers keeps a file's root and its pruned modifiers. -/
theorem keeps_of_updateFirst {file : SourceFile} {f : Statement → Option Statement}
    (hname : ∀ a b, f a = some b → b.aliasName? = a.aliasName?)
    (hpruned : ∀ a b, f a = some b → a.pruneModifiers = a → b.pruneModifiers = b)
    (h : ∀ statement ∈ file.statements, statement.pruneModifiers = statement) :
    (∀ wanted, { file with statements := updateFirst f file.statements }.rootName wanted =
        file.rootName wanted) ∧
      ∀ statement ∈ updateFirst f file.statements, statement.pruneModifiers = statement := by
  refine ⟨fun wanted => rootName_congr wanted (map_updateFirst hname file.statements), ?_⟩
  intro statement hmem
  rcases mem_updateFirst hmem with hmem | ⟨before, hmem, hbefore⟩
  · exact h statement hmem
  · exact hpruned before statement hbefore (h before hmem)

theorem keeps_of_injectAsked {file : SourceFile} (options : Options)
    (h : ∀ statement ∈ file.statements, statement.pruneModifiers = statement) :
    (∀ wanted, (file.injectAsked options).rootName wanted = file.rootName wanted) ∧
      ∀ statement ∈ (file.injectAsked options).statements,
        statement.pruneModifiers = statement := by
  unfold injectAsked
  split
  · refine keeps_of_updateFirst (fun a b hb => ?_) (fun a b hb ha => ?_) h
    · obtain ⟨decl, rfl, _, rfl⟩ := Statement.inject?_eq_some_iff.mp hb
      rfl
    · obtain ⟨decl, rfl, _, rfl⟩ := Statement.inject?_eq_some_iff.mp hb
      rw [Statement.pruneModifiers, Statement.interface.injEq] at ha
      have hmodifiers : decl.modifiers.filter (· = .exported) = decl.modifiers :=
        congrArg (·.modifiers) ha
      rw [Statement.pruneModifiers]
      split <;> rw [hmodifiers]
  · exact ⟨fun _ => rfl, h⟩

theorem keeps_of_mergeAsked {file : SourceFile} (options : Options)
    (h : ∀ statement ∈ file.statements, statement.pruneModifiers = statement) :
    (∀ wanted, (file.mergeAsked options).rootName wanted = file.rootName wanted) ∧
      ∀ statement ∈ (file.mergeAsked options).statements,
        statement.pruneModifiers = statement := by
  unfold mergeAsked
  split
  · refine keeps_of_updateFirst (fun a b hb => ?_) (fun a b hb ha => ?_) h
    · obtain ⟨decl, rfl, _, rfl⟩ := Statement.mergeUnions?_eq_some_iff.mp hb
      rfl
    · obtain ⟨decl, rfl, _, rfl⟩ := Statement.mergeUnions?_eq_some_iff.mp hb
      rw [Statement.pruneModifiers, Statement.typeAlias.injEq] at ha
      have hmodifiers : decl.modifiers.filter (· = .exported) = decl.modifiers :=
        congrArg (·.modifiers) ha
      rw [Statement.pruneModifiers, hmodifiers]
  · exact ⟨fun _ => rfl, h⟩

theorem injectAsked_eq_self_iff {file : SourceFile} {options : Options} :
    file.injectAsked options = file ↔ ∀ property, options.injectProperty = some property →
      updateFirst (Statement.inject? property) file.statements = file.statements := by
  unfold injectAsked
  split
  · rename_i property hproperty
    rw [injectProperty, statements_eq_iff]
    constructor
    · rintro h _ hother
      rw [hproperty] at hother
      cases hother
      exact h
    · exact fun h => h property hproperty
  · rename_i hnone
    exact iff_of_true rfl fun property hproperty => by rw [hnone] at hproperty; cases hproperty

theorem mergeAsked_eq_self_iff {file : SourceFile} {options : Options} :
    file.mergeAsked options = file ↔ (options.mergeRootUnions = true →
      updateFirst (Statement.mergeUnions? options.rootName) file.statements =
        file.statements) := by
  unfold mergeAsked
  split
  · rename_i hmerge
    rw [mergeRootUnions, statements_eq_iff]
    exact ⟨fun h _ => h, fun h => h hmerge⟩
  · rename_i hmerge
    exact iff_of_true rfl fun h => absurd h hmerge

theorem injectAsked_injectAsked (file : SourceFile) (options : Options) :
    (file.injectAsked options).injectAsked options = file.injectAsked options := by
  rw [injectAsked_eq_self_iff]
  intro property hproperty
  rw [injectAsked, hproperty]
  exact updateFirst_updateFirst (fun _ _ => Statement.inject?_injected) file.statements

theorem mergeAsked_mergeAsked (file : SourceFile) (options : Options) :
    (file.mergeAsked options).mergeAsked options = file.mergeAsked options := by
  rw [mergeAsked_eq_self_iff]
  intro hmerge
  rw [mergeAsked, if_pos hmerge]
  exact updateFirst_updateFirst (fun _ _ => Statement.mergeUnions?_merged) file.statements

/-- Merging concerns an alias, and so no interface that a property was injected into. -/
theorem injectAsked_mergeAsked {file : SourceFile} {options : Options}
    (h : file.injectAsked options = file) :
    (file.mergeAsked options).injectAsked options = file.mergeAsked options := by
  rw [injectAsked_eq_self_iff] at h ⊢
  intro property hproperty
  unfold mergeAsked
  split
  · refine updateFirst_updateFirst_of_disjoint (fun a b hb => ?_) (h property hproperty)
    obtain ⟨decl, rfl, _, rfl⟩ := Statement.mergeUnions?_eq_some_iff.mp hb
    exact ⟨rfl, rfl⟩
  · exact h property hproperty

/-- The edits of the root make a file rooted, if the root is looked for in front or under the name
that it gets. -/
theorem rooted_of_applyRoot {file rooted : SourceFile} {options : Options}
    (hroot : options.rootAlias = none ∨ options.rootAlias = some options.rootName)
    (h : file.applyRoot options = .ok rooted) : rooted.Rooted options := by
  obtain ⟨hvalid, old, hold, rfl⟩ := applyRoot_eq_ok_iff.mp h
  -- each edit keeps what the edits before it have reached
  have hnamed := rootName_renameFrom hroot hold
  have hpruned := pruned_renameFrom file old options.rootName
  obtain ⟨hinjectName, hinjectPruned⟩ := keeps_of_injectAsked options hpruned
  obtain ⟨hmergeName, hmergePruned⟩ := keeps_of_mergeAsked options hinjectPruned
  exact {
    validName := hvalid
    rootName_eq := by rw [hmergeName, hinjectName, hnamed]
    pruned := hmergePruned
    injected := injectAsked_mergeAsked (injectAsked_injectAsked _ options)
    merged := mergeAsked_mergeAsked _ options }

/-! ### Cleaning up -/

/-- A file stays rooted when it is cleaned up. -/
theorem Rooted.cleanUp {file : SourceFile} {options : Options} (h : file.Rooted options) :
    file.cleanUp.Rooted options where
  validName := h.validName
  rootName_eq := by
    have hnames : file.cleanUp.statements.map (·.aliasName?) =
        file.statements.map (·.aliasName?) := by
      rw [statements_cleanUp, List.map_map]
      exact List.map_congr_left fun statement _ => Statement.aliasName?_cleanUp statement
    rw [rootName_congr options.rootAlias hnames, h.rootName_eq]
  pruned := by
    intro statement hmem
    rw [statements_cleanUp] at hmem
    obtain ⟨before, hbefore, rfl⟩ := List.mem_map.mp hmem
    rw [Statement.pruneModifiers_cleanUp, h.pruned before hbefore]
  injected := by
    rw [injectAsked_eq_self_iff, statements_cleanUp]
    intro property hproperty
    exact updateFirst_map_eq_self (fun _ => Statement.inject?_cleanUp_none)
      (fun _ => Statement.inject?_cleanUp_self) (injectAsked_eq_self_iff.mp h.injected property hproperty)
  merged := by
    rw [mergeAsked_eq_self_iff, statements_cleanUp]
    intro hmerge
    exact updateFirst_map_eq_self (fun _ => Statement.mergeUnions?_cleanUp_none)
      (fun _ => Statement.mergeUnions?_cleanUp_self) (mergeAsked_eq_self_iff.mp h.merged hmerge)

end SourceFile

end Declutter
