import Declutter.Proofs.Clashes

/-!
# What the check of a file accepts

`SourceFile.IsSound` says what a file must be like: names that are identifiers and declared once,
compounds with members, references with a name, and no mention of a type that is gone.
`check_iff_isSound_and_first_fault` says that the check accepts exactly these files, and that it
reports the first name at fault or, if there is none, the first statement at fault.
-/

namespace Declutter

/-! ## Sound files -/

/-- Names that are identifiers, each of them once. -/
structure SoundNames (names : List String) : Prop where
  identifiers : ∀ name ∈ names, isIdentifier name = true
  distinct : names.Nodup

/-- A node with nothing wrong about itself, where `before` are the names that were declared and
`now` those that are. -/
structure TypeNode.IsSound (before now : List String) (node : TypeNode) : Prop where
  union : node ≠ .union []
  intersection : node ≠ .intersection []
  reference : ∀ name arguments, node = .reference name arguments →
    referenceRoot name ≠ "" ∧ (referenceRoot name ∈ before → referenceRoot name ∈ now)

/-- Text that mentions no type that is gone. -/
def Verbatim.IsSound (before now : List String) (text : String) : Prop :=
  ∀ word ∈ (Verbatim.words text).map Prod.snd, word ∈ before → word ∈ now

/-- A statement with sound nodes, or with sound text. -/
structure Statement.IsSound (before now : List String) (statement : Statement) : Prop where
  nodes : ∀ node ∈ statement.types.flatMap TypeNode.visit, node.IsSound before now
  words : ∀ decl, statement = .verbatim decl → Verbatim.IsSound before now decl.text

/-- What a statement is called when it is at fault: the name it declares, or the first line of its
text. -/
def Statement.label : Statement → String
  | .verbatim decl => firstLine decl.text
  | statement => statement.name?.getD ""

namespace SourceFile

/-- A file with nothing wrong about it, where `before` are the names declared before. -/
structure IsSound (file : SourceFile) (before : List String) : Prop where
  names : SoundNames file.modelledNames
  nodes : ∀ node ∈ file.visit, node.IsSound before file.declaredNames
  words : ∀ decl, .verbatim decl ∈ file.statements →
    Verbatim.IsSound before file.declaredNames decl.text

/-- What is at fault first: a declaration whose name is no identifier or has been declared above
it, or a statement that is not sound where all names are. -/
inductive FirstFault (file : SourceFile) (before : List String) (path : String) : Prop
  | name {front back : List Statement} {statement : Statement}
      (hstatements : file.statements = front ++ statement :: back)
      (hfront : SoundNames (front.filterMap (·.name?)))
      (hname : statement.name? = some path)
      (hfault : isIdentifier path = false ∨ path ∈ front.filterMap (·.name?))
  | statement {front back : List Statement} {statement : Statement}
      (hnames : SoundNames file.modelledNames)
      (hstatements : file.statements = front ++ statement :: back)
      (hfront : ∀ other ∈ front, other.IsSound before file.declaredNames)
      (hfault : ¬statement.IsSound before file.declaredNames)
      (hpath : path = statement.label)

end SourceFile

/-! ## The check of names -/

theorem nameFault?_nil_eq_none_iff {names : List String} :
    nameFault? [] names = none ↔ SoundNames names := by
  rw [nameFault?_eq_none_iff]
  exact ⟨fun h => ⟨h.1, h.2.1⟩, fun h => ⟨h.identifiers, h.distinct, fun _ _ => by simp⟩⟩

/-- The name that is reported is the first one at fault. -/
theorem exists_first_of_nameFault? {seen names : List String} {error : Error}
    (h : nameFault? seen names = some error) :
    ∃ earlier name later defect, names = earlier ++ name :: later ∧
      nameFault? seen earlier = none ∧ error = .unsound name defect ∧
      (isIdentifier name = false ∨ name ∈ seen ∨ name ∈ earlier) := by
  induction names generalizing seen with
  | nil => cases h
  | cons name names ih =>
    rw [nameFault?] at h
    split at h
    · rename_i hinvalid
      exact ⟨[], name, names, _, rfl, rfl, (Option.some.inj h).symm, .inl (by simpa using hinvalid)⟩
    · rename_i hvalid
      split at h
      · rename_i hseen
        exact ⟨[], name, names, _, rfl, rfl, (Option.some.inj h).symm,
          .inr (.inl (List.contains_iff_mem.mp hseen))⟩
      · rename_i hunseen
        obtain ⟨earlier, other, later, defect, rfl, hearlier, herror, hother⟩ := ih h
        refine ⟨name :: earlier, other, later, defect, rfl, ?_, herror, ?_⟩
        · rw [nameFault?, if_neg hvalid, if_neg hunseen, hearlier]
        · rw [List.mem_cons] at hother ⊢
          tauto

/-! ## The check of statements -/

theorem isDangling_eq_false_iff {before now : List String} {name : String} :
    isDangling before now name = false ↔ (name ∈ before → name ∈ now) := by
  simp only [isDangling, Bool.and_eq_false_imp, List.contains_iff_mem, Bool.not_eq_eq_eq_not,
    Bool.not_false]

theorem TypeNode.defect?_eq_none_iff {before now : List String} {node : TypeNode} :
    node.defect? before now = none ↔ node.IsSound before now := by
  have hother : (∀ name arguments, node ≠ .reference name arguments) → node ≠ .union [] →
      node ≠ .intersection [] → node.IsSound before now := fun hreference hunion hintersection =>
    ⟨hunion, hintersection, fun name arguments heq => absurd heq (hreference name arguments)⟩
  unfold defect?
  split
  · exact iff_of_false (by simp) fun h => h.union rfl
  · exact iff_of_false (by simp) fun h => h.intersection rfl
  · rename_i name arguments
    have hsound : (reference name arguments).IsSound before now ↔
        referenceRoot name ≠ "" ∧ isDangling before now (referenceRoot name) = false := by
      rw [isDangling_eq_false_iff]
      refine ⟨fun h => h.reference name arguments rfl, fun h => ⟨nofun, nofun, ?_⟩⟩
      rintro _ _ ⟨⟩
      exact h
    rw [hsound, ← String.isEmpty_eq_false_iff]
    cases (referenceRoot name).isEmpty <;>
      cases isDangling before now (referenceRoot name) <;> simp
  · rename_i hunion hintersection hreference
    exact iff_of_true rfl (hother (fun name arguments heq => hreference name arguments heq)
      hunion hintersection)

namespace Statement

theorem fault?_eq_none_iff_isSound {before now : List String} {statement : Statement} :
    statement.fault? before now = none ↔ statement.IsSound before now := by
  have hmodelled : (∀ decl, statement ≠ .verbatim decl) →
      (statement.fault? before now = none ↔ statement.IsSound before now) := by
    intro h
    rw [fault?.eq_2 _ _ _ h, Option.map_eq_none_iff, List.findSome?_eq_none_iff]
    simp only [TypeNode.defect?_eq_none_iff]
    exact ⟨fun hnodes => ⟨hnodes, fun decl heq => absurd heq (h decl)⟩, fun hsound => hsound.nodes⟩
  cases statement with
  | typeAlias decl => exact hmodelled (by simp)
  | interface decl => exact hmodelled (by simp)
  | verbatim decl =>
    have hwords : (verbatim decl).fault? before now = none ↔
        Verbatim.IsSound before now decl.text := by
      rw [fault?, Option.map_eq_none_iff, List.find?_eq_none]
      simp only [Bool.not_eq_true, isDangling_eq_false_iff, Verbatim.IsSound, List.forall_mem_map]
    rw [hwords]
    refine ⟨fun h => ⟨fun _ hmem => absurd hmem List.not_mem_nil, ?_⟩, fun h => h.words decl rfl⟩
    rintro _ ⟨⟩
    exact h

/-- A statement at fault is reported by its label. -/
theorem exists_unsound_of_fault? {before now : List String} {statement : Statement} {error : Error}
    (h : statement.fault? before now = some error) :
    ∃ defect, error = .unsound statement.label defect := by
  unfold fault? at h
  split at h
  · obtain ⟨word, _, rfl⟩ := Option.map_eq_some_iff.mp h
    exact ⟨_, rfl⟩
  · rename_i hmodelled
    obtain ⟨defect, _, rfl⟩ := Option.map_eq_some_iff.mp h
    refine ⟨defect, ?_⟩
    cases statement with
    | typeAlias decl => rfl
    | interface decl => rfl
    | verbatim decl => exact absurd rfl (hmodelled decl)

end Statement

/-! ## The check of files -/

namespace SourceFile

/-- A file is sound if its names and all of its statements are. -/
theorem isSound_iff {file : SourceFile} {before : List String} :
    file.IsSound before ↔ SoundNames file.modelledNames ∧
      ∀ statement ∈ file.statements, statement.IsSound before file.declaredNames := by
  have hvisit : ∀ node, node ∈ file.visit ↔
      ∃ statement ∈ file.statements, node ∈ statement.types.flatMap TypeNode.visit := by
    intro node
    rw [visit, List.flatMap_assoc, List.mem_flatMap]
  constructor
  · intro h
    refine ⟨h.names, fun statement hmem => ⟨fun node hnode => ?_, ?_⟩⟩
    · exact h.nodes node ((hvisit node).mpr ⟨statement, hmem, hnode⟩)
    · rintro decl rfl
      exact h.words decl hmem
  · rintro ⟨hnames, hstatements⟩
    refine ⟨hnames, fun node hnode => ?_, fun decl hmem => (hstatements _ hmem).words decl rfl⟩
    obtain ⟨statement, hmem, hnode⟩ := (hvisit node).mp hnode
    exact (hstatements statement hmem).nodes node hnode

theorem check_eq_ok_iff_isSound {file : SourceFile} {before : List String} :
    file.check before = .ok () ↔ file.IsSound before := by
  rw [check_eq_ok_iff, isSound_iff]
  refine and_congr nameFault?_nil_eq_none_iff ?_
  exact forall₂_congr fun statement _ => Statement.fault?_eq_none_iff_isSound

/-- What is reported is what is at fault first. -/
theorem firstFault_of_fault? {file : SourceFile} {before : List String} {error : Error}
    (h : file.fault? before = some error) :
    ∃ path defect, error = .unsound path defect ∧ file.FirstFault before path := by
  rw [fault?, Option.orElse_eq_orElse, Option.orElse_eq_or, Option.or_eq_some_iff] at h
  rcases h with hname | ⟨hnames, hstatement⟩
  · obtain ⟨earlier, path, later, defect, hsplit, hearlier, rfl, hfault⟩ :=
      exists_first_of_nameFault? hname
    -- the names above the one at fault are those of the statements above it
    obtain ⟨above, rest, hstatements, habove, hrest⟩ := List.filterMap_eq_append_iff.mp hsplit
    obtain ⟨nameless, statement, back, rfl, hnameless, hpath, _⟩ :=
      List.filterMap_eq_cons_iff.mp hrest
    have hfront : (above ++ nameless).filterMap (·.name?) = earlier := by
      rw [List.filterMap_append, habove, List.filterMap_eq_nil_iff.mpr hnameless, List.append_nil]
    have hstatements : file.statements = (above ++ nameless) ++ statement :: back := by
      rw [hstatements, List.append_assoc]
    refine ⟨path, defect, rfl, .name hstatements ?_ hpath ?_⟩
    · rw [hfront]
      exact nameFault?_nil_eq_none_iff.mp hearlier
    · rw [hfront]
      exact hfault.imp_right fun h => h.resolve_left List.not_mem_nil
  · obtain ⟨front, statement, back, hstatements, hfault, hfront⟩ :=
      List.findSome?_eq_some_iff.mp hstatement
    obtain ⟨defect, rfl⟩ := Statement.exists_unsound_of_fault? hfault
    refine ⟨statement.label, defect, rfl, .statement (nameFault?_nil_eq_none_iff.mp hnames)
      hstatements ?_ ?_ rfl⟩
    · exact fun other hmem => Statement.fault?_eq_none_iff_isSound.mp (hfront other hmem)
    · intro hsound
      rw [Statement.fault?_eq_none_iff_isSound.mpr hsound] at hfault
      cases hfault

/-- The check accepts sound files and no others, and of another file it reports the first name at
fault, or the first statement if all names are as they should be. -/
theorem check_iff_isSound_and_first_fault (file : SourceFile) (before : List String) :
    (file.check before = .ok () ↔ file.IsSound before) ∧
      ∀ error, file.check before = .error error →
        ∃ path defect, error = .unsound path defect ∧ file.FirstFault before path := by
  refine ⟨check_eq_ok_iff_isSound, fun error h => firstFault_of_fault? ?_⟩
  unfold check at h
  split at h
  · rename_i hfault
    rw [hfault, Except.error.inj h]
  · cases h

/-- `type A = B<[]>;`, `enum E { X }` and `interface A extends Gone.Inner {}` -/
def declaredAgain : SourceFile :=
  ⟨[.typeAlias ⟨[], [], "A", .reference "B" [.tuple []]⟩, .verbatim ⟨[], "enum E \x7b X \x7d"⟩,
    .interface ⟨[], [], "A", [.named "Gone.Inner"], []⟩], []⟩

/-- Where two statements are called the same that is reported, though nothing is left of a type
that one of them mentions. -/
theorem check_declaredAgain :
    declaredAgain.check ["Gone"] = .error (.unsound "A" .declaredTwice) ∧
      declaredAgain.FirstFault ["Gone"] "A" := by
  have herror : declaredAgain.check ["Gone"] = .error (.unsound "A" .declaredTwice) := by
    decide +kernel
  obtain ⟨path, defect, heq, hfirst⟩ :=
    (check_iff_isSound_and_first_fault declaredAgain ["Gone"]).2 _ herror
  obtain ⟨rfl, rfl⟩ := Error.unsound.inj heq
  exact ⟨herror, hfirst⟩

end SourceFile

end Declutter
