import Declutter.Proofs.Renaming

/-!
# Trees that need no more parentheses

A tree is normal if every union and intersection has several members, none of which is a union
without parentheses, and no array has a union or an intersection without parentheses for its
element. Each rewriting may lift a type into the place of the one around it and drop parentheses,
so to stay normal is not a matter of one node. `Fits` says what a type must be to stand where
another one stood: normal itself, no union where there was none, and no compound where there was
none. A rewriting whose results fit keeps trees normal: `fits_rewrite`.

The edits of a file can be run in any order and number: `normal_editAll`.
-/

namespace Declutter

namespace TypeNode

/-! ## Normal types -/

/-- What holds of each node of a normal tree. -/
def Normal : TypeNode → Prop
  | .union members | .intersection members =>
    2 ≤ members.length ∧ ∀ member ∈ members, IsNoUnion member
  | .array element => element.isCompound = false
  | _ => True

instance : DecidablePred IsNoUnion
  | .union members => .isFalse fun h => h members rfl
  | .keyword _ | .literal _ | .reference _ _ | .array _ | .tuple _ | .intersection _
  | .parenthesized _ | .typeLiteral _ => .isTrue fun _ => nofun

instance : DecidablePred Normal
  | .union members | .intersection members =>
    inferInstanceAs (Decidable (2 ≤ members.length ∧ ∀ member ∈ members, IsNoUnion member))
  | .array element => inferInstanceAs (Decidable (element.isCompound = false))
  | .keyword _ | .literal _ | .reference _ _ | .tuple _ | .parenthesized _
  | .typeLiteral _ => .isTrue trivial

theorem normal_node_iff (kind : Compound) (members : List TypeNode) :
    Normal (kind.node members) ↔ 2 ≤ members.length ∧ ∀ member ∈ members, IsNoUnion member := by
  cases kind <;> rfl

theorem everywhere_normal_node_iff (kind : Compound) (members : List TypeNode) :
    Everywhere Normal (kind.node members) ↔
      2 ≤ members.length ∧ ∀ member ∈ members, IsNoUnion member ∧ Everywhere Normal member := by
  rw [everywhere_iff, normal_node_iff, Compound.children_node]
  constructor
  · intro h
    exact ⟨h.1.1, fun member hmem => ⟨h.1.2 member hmem, h.2 member hmem⟩⟩
  · intro h
    exact ⟨⟨h.1, fun member hmem => (h.2 member hmem).1⟩, fun member hmem => (h.2 member hmem).2⟩

theorem isNoUnion_of_isCompound_eq_false {node : TypeNode} (h : node.isCompound = false) :
    IsNoUnion node := by
  intro members heq
  rw [heq] at h
  cases h

/-- A compound of members, or the only one of them. -/
theorem everywhere_normal_collapse (kind : Compound) {members : List TypeNode}
    (hne : members ≠ [])
    (h : ∀ member ∈ members, IsNoUnion member ∧ Everywhere Normal member) :
    Everywhere Normal (kind.collapse members) := by
  rcases kind.collapse_cases members with ⟨member, rfl, heq⟩ | ⟨hlen, heq⟩
  · rw [heq]
    exact (h member (List.mem_singleton_self member)).2
  · rw [heq, everywhere_normal_node_iff]
    have := List.length_pos_iff.mpr hne
    exact ⟨by omega, h⟩

/-- A string literal stays, so something does. -/
theorem withoutWideString_ne_nil {members : List TypeNode}
    (h : members.any hasStringLiteral = true) : withoutWideString members ≠ [] := by
  obtain ⟨literal, hmem, hliteral⟩ := List.any_eq_true.mp h
  have hnarrow : literal.isWideString = false := by
    by_contra hwide
    rw [hasStringLiteral_of_isWideString (by simpa using hwide)] at hliteral
    cases hliteral
  apply List.ne_nil_of_mem
  show literal ∈ members.filter (!·.isWideString)
  rw [List.mem_filter, hnarrow]
  exact ⟨hmem, rfl⟩

/-! ## What can stand in the place of a type -/

/-- A normal type that can stand wherever another one stood: it needs no parentheses there that
the other one did not need. -/
structure Fits (before after : TypeNode) : Prop where
  normal : Everywhere Normal after
  noUnion : IsNoUnion before → IsNoUnion after
  simple : before.isCompound = false → after.isCompound = false

theorem Fits.trans {before between after : TypeNode} (h : Fits before between)
    (h' : Fits between after) : Fits before after where
  normal := h'.normal
  noUnion hbefore := h'.noUnion (h.noUnion hbefore)
  simple hbefore := h'.simple (h.simple hbefore)

/-- Parentheses that are derived again go only from around a type that needs none. -/
theorem fits_reparenthesize (old : TypeNode) {new : TypeNode} (h : Everywhere Normal new) :
    Fits (.parenthesized old) (reparenthesize old new) := by
  have hsimple : (reparenthesize old new).isCompound = false := by
    rcases reparenthesize_cases_of_isCompound old new with heq | ⟨heq, hnew⟩
    · rw [heq]; rfl
    · rw [heq]; exact hnew
  constructor
  · exact everywhere_reparenthesize (fun _ => trivial) old h
  · intro _
    exact isNoUnion_of_isCompound_eq_false hsimple
  · intro _
    exact hsimple

/-- A normal node fits in its own place with children that fit in theirs. -/
theorem fits_mapChildren {f : TypeNode → TypeNode} {node : TypeNode} (hnode : Normal node)
    (h : ∀ child ∈ node.children, Fits child (f child)) : Fits node (node.mapChildren f) := by
  by_cases hcompound : node.isCompound = true
  · obtain ⟨kind, members, rfl⟩ := exists_compound hcompound
    rw [Compound.children_node] at h
    rw [normal_node_iff] at hnode
    rw [Compound.mapChildren_node]
    constructor
    · rw [everywhere_normal_node_iff, List.length_map, List.forall_mem_map]
      exact ⟨hnode.1, fun member hmem =>
        ⟨(h member hmem).noUnion (hnode.2 member hmem), (h member hmem).normal⟩⟩
    · intro hnone
      cases kind with
      | union => exact absurd rfl (hnone members)
      | intersection => intro others heq; cases heq
    · intro hnone
      rw [hcompound] at hnone
      cases hnone
  · have hbelow : ∀ child ∈ (node.mapChildren f).children, Everywhere Normal child :=
      everywhere_children_mapChildren fun child hchild => (h child hchild).normal
    cases node with
    | union => exact absurd rfl hcompound
    | intersection => exact absurd rfl hcompound
    | parenthesized inner =>
      exact fits_reparenthesize inner (h inner (by simp [children])).normal
    | array element =>
      have hsimple : (f element).isCompound = false :=
        (h element (by simp [children])).simple hnode
      exact ⟨everywhere_iff.mpr ⟨hsimple, hbelow⟩, fun _ _ => by simp [mapChildren], fun _ => rfl⟩
    | _ => exact ⟨everywhere_iff.mpr ⟨trivial, hbelow⟩, fun _ _ => by simp [mapChildren],
        fun _ => rfl⟩

/-- What a rewriting makes of a normal type fits, if what the rule makes of each node does. -/
theorem fits_rewrite {rule : TypeNode → TypeNode → TypeNode}
    (step : ∀ node, Normal node → (∀ child ∈ node.children, Fits child (child.rewrite rule)) →
      Fits node (rule node (node.mapChildren (rewrite rule)))) {node : TypeNode}
    (h : Everywhere Normal node) : Fits node (node.rewrite rule) := by
  induction node using inductionOn with
  | step node ih =>
    rw [rewrite_eq]
    exact step node h.here fun child hchild => ih child hchild (h.below child hchild)

/-- A rule that does not look at the node as it was. -/
theorem fits_rewrite_of_fits {rule : TypeNode → TypeNode}
    (hrule : ∀ node, Everywhere Normal node → Fits node (rule node)) {node : TypeNode}
    (h : Everywhere Normal node) : Fits node (node.rewrite fun _ new => rule new) := by
  refine fits_rewrite (fun node hnode hchildren => ?_) h
  have hnew := fits_mapChildren hnode hchildren
  exact hnew.trans (hrule _ hnew.normal)

/-! ## The rewritings -/

theorem fits_self {node : TypeNode} (h : Everywhere Normal node) : Fits node node :=
  ⟨h, fun hnone => hnone, fun hsimple => hsimple⟩

theorem fits_mapName (rename : String → String) {node : TypeNode} (h : Everywhere Normal node) :
    Fits node (node.mapName rename) := by
  cases node with
  | reference name arguments =>
    exact ⟨everywhere_iff.mpr ⟨trivial, h.below⟩, fun _ _ => by simp [mapName], fun _ => rfl⟩
  | _ => exact fits_self h

theorem fits_renameReferences (old new : String) {node : TypeNode} (h : Everywhere Normal node) :
    Fits node (node.renameReferences old new) := by
  refine fits_rewrite_of_fits (fun n hn => ?_) h
  rw [renameHead_eq_mapName]
  exact fits_mapName _ hn

theorem fits_mergeUnions {node : TypeNode} (h : Everywhere Normal node) :
    Fits node node.mergeUnions := by
  refine fits_rewrite_of_fits (fun n hn => ?_) h
  cases n with
  | union members =>
    -- an intersection asks of its members what a union does
    constructor
    · exact (everywhere_normal_node_iff .intersection members).mpr
        ((everywhere_normal_node_iff .union members).mp hn)
    · intro _
      exact isNoUnion_unionAsIntersection _
    · intro hsimple
      cases hsimple
  | _ => exact fits_self hn

theorem fits_dropWideString {node : TypeNode} (h : Everywhere Normal node) :
    Fits node node.dropWideString := by
  by_cases hcompound : node.isCompound = true
  · obtain ⟨kind, members, rfl⟩ := exists_compound hcompound
    rw [dropWideString_node]
    by_cases hany : members.any hasStringLiteral = true
    · have hmembers := ((everywhere_normal_node_iff kind members).mp h).2
      have hkept : ∀ member ∈ withoutWideString members,
          IsNoUnion member ∧ Everywhere Normal member :=
        fun member hmem => hmembers member (mem_of_mem_withoutWideString hmem)
      rw [if_pos hany]
      constructor
      · exact everywhere_normal_collapse kind (withoutWideString_ne_nil hany) hkept
      · intro hnone
        -- an intersection becomes one of its members or stays an intersection
        rcases kind.collapse_cases (withoutWideString members) with ⟨member, honly, heq⟩ | ⟨_, heq⟩
        · rw [heq]
          exact (hkept member (by simp [honly])).1
        · rw [heq]
          cases kind with
          | union => exact absurd rfl (hnone members)
          | intersection => intro others h; cases h
      · intro hsimple
        rw [hcompound] at hsimple
        cases hsimple
    · rw [if_neg hany]
      exact fits_self h
  · rw [narrow_of_isCompound_eq_false (by simpa using hcompound)]
    exact fits_self h

theorem fits_dropStringWidening {node : TypeNode} (h : Everywhere Normal node) :
    Fits node node.dropStringWidening :=
  fits_rewrite_of_fits (fun _ => fits_dropWideString) h

theorem fits_dropUnknownRecords {node : TypeNode} (h : Everywhere Normal node) :
    Fits node node.dropUnknownRecords := by
  refine fits_rewrite (fun node hnode hchildren => ?_) h
  have hnew := fits_mapChildren hnode hchildren
  by_cases hunion : ∃ members, node = .union members
  · obtain ⟨members, rfl⟩ := hunion
    -- nothing is asked of what stands in the place of a union but to be normal
    refine ⟨?_, fun hnone => absurd rfl (hnone members), fun hsimple => by cases hsimple⟩
    rw [mapChildren, dropRecords_union]
    split
    · exact hnew.normal
    · rename_i hall
      have hmembers := ((everywhere_normal_node_iff .union _).mp hnew.normal).2
      have hkept : (members.filter (!·.isUnknownRecord)).map (rewrite dropRecords) ≠ [] := by
        intro hnil
        rw [List.map_eq_nil_iff, List.filter_eq_nil_iff] at hnil
        apply hall
        rw [List.all_eq_true]
        intro member hmem
        simpa using hnil member hmem
      refine (fits_dropWideString (everywhere_normal_collapse .union hkept ?_)).normal
      rw [List.forall_mem_map]
      intro member hmem
      exact hmembers _ (List.mem_map_of_mem (List.mem_filter.mp hmem).1)
  · have hne : ∀ members, node ≠ .union members := fun members heq => hunion ⟨members, heq⟩
    rw [dropRecords_of_ne_union hne]
    exact hnew.trans (fits_dropWideString hnew.normal)

theorem fits_dropUnknownIndex {node : TypeNode} (h : Everywhere Normal node) :
    Fits node node.dropUnknownIndex := by
  refine fits_rewrite (fun node hnode hchildren => ?_) h
  have hnew := fits_mapChildren hnode hchildren
  by_cases hshape : ∃ members, node = .typeLiteral members
  · obtain ⟨members, rfl⟩ := hshape
    rw [mapChildren, dropIndex_typeLiteral]
    refine ⟨everywhere_iff.mpr ⟨trivial, ?_⟩, fun _ _ => by simp, fun _ => rfl⟩
    exact everywhere_types_keptShape fun type htype => (hchildren type htype).normal
  · have hne : ∀ members, node ≠ .typeLiteral members := fun members heq => hshape ⟨members, heq⟩
    rw [dropIndex_of_ne_typeLiteral hne]
    exact hnew

end TypeNode

/-! ## Statements -/

namespace Statement

/-- A statement whose types are normal. -/
def Normal (statement : Statement) : Prop :=
  ∀ type ∈ statement.types, TypeNode.Everywhere TypeNode.Normal type

theorem normal_mapTypes {f : TypeNode → TypeNode}
    (hf : ∀ type, TypeNode.Everywhere TypeNode.Normal type →
      TypeNode.Everywhere TypeNode.Normal (f type)) {statement : Statement}
    (h : statement.Normal) : (statement.mapTypes f).Normal := by
  unfold Normal
  rw [types_mapTypes, List.forall_mem_map]
  intro type htype
  exact hf type (h type htype)

theorem normal_dropUnknownIndex {statement : Statement} (h : statement.Normal) :
    statement.dropUnknownIndex.Normal := by
  have hdrop : ∀ type ∈ statement.types,
      TypeNode.Everywhere TypeNode.Normal type.dropUnknownIndex :=
    fun type htype => (TypeNode.fits_dropUnknownIndex (h type htype)).normal
  cases statement with
  | interface decl =>
    unfold Normal dropUnknownIndex types
    simp only [List.mem_append]
    intro type htype
    rcases htype with htype | htype
    · obtain ⟨old, hold, rfl⟩ := List.mem_map.mp htype
      exact hdrop old (List.mem_append_left _ hold)
    · refine TypeNode.everywhere_types_keptShape (fun old hold => ?_) type htype
      exact hdrop old (List.mem_append_right _ hold)
  | typeAlias decl =>
    intro type htype
    obtain rfl : type = decl.type.dropUnknownIndex := List.mem_singleton.mp htype
    exact hdrop decl.type (by simp [types])
  | verbatim => exact h

theorem types_renameAlias? {old new : String} {statement renamed : Statement}
    (h : statement.renameAlias? old new = some renamed) : renamed.types = statement.types := by
  cases statement with
  | typeAlias decl =>
    rw [renameAlias?] at h
    split at h
    · rw [← Option.some.inj h]; rfl
    · cases h
  | _ => cases h

/-- The property that is put in has a string literal for its type. -/
theorem normal_inject? {property : InjectedProperty} {statement injected : Statement}
    (h : statement.Normal) (heq : statement.inject? property = some injected) :
    injected.Normal := by
  cases statement with
  | interface decl =>
    rw [inject?] at heq
    split at heq
    · rw [← Option.some.inj heq]
      split
      · exact h
      · intro type htype
        unfold types at htype
        simp only [List.flatMap_cons, List.mem_append] at htype
        rcases htype with htype | htype | htype
        · exact h type (List.mem_append_left _ htype)
        · obtain rfl : type = .stringLiteral property.value := by
            simpa [InjectedProperty.member, TypeMember.types] using htype
          rw [TypeNode.everywhere_iff]
          exact ⟨trivial, by simp [TypeNode.stringLiteral, TypeNode.children]⟩
        · exact h type (List.mem_append_right _ htype)
    · cases heq
  | _ => cases heq

theorem normal_mergeUnions? {name : String} {statement merged : Statement}
    (h : statement.Normal) (heq : statement.mergeUnions? name = some merged) : merged.Normal := by
  obtain ⟨decl, rfl, _, rfl⟩ := mergeUnions?_eq_some_iff.mp heq
  intro type htype
  obtain rfl : type = decl.type.mergeUnions := by simpa [types] using htype
  exact (TypeNode.fits_mergeUnions (h decl.type (by simp [types]))).normal

end Statement

/-! ## Files -/

/-- What can be done to a file. -/
inductive Edit where
  | renameRoot (new : String) (wanted : Option String)
  | injectProperty (property : InjectedProperty)
  | mergeRootUnions (name : String)
  | dropStringWidening
  | dropUnknownRecords
  | dropUnknownIndex
  deriving DecidableEq, Repr

namespace SourceFile

/-- The file after one edit. Only giving the root a name can fail. -/
def edit (file : SourceFile) : Edit → Except Error SourceFile
  | .renameRoot new wanted => file.renameRoot new wanted
  | .injectProperty property => .ok (file.injectProperty property)
  | .mergeRootUnions name => .ok (file.mergeRootUnions name)
  | .dropStringWidening => .ok file.dropStringWidening
  | .dropUnknownRecords => .ok file.dropUnknownRecords
  | .dropUnknownIndex => .ok file.dropUnknownIndex

/-- The file after some edits, one after the other. -/
def editAll (file : SourceFile) (edits : List Edit) : Except Error SourceFile :=
  edits.foldlM edit file

/-- A file with normal nodes only. -/
def Normal (file : SourceFile) : Prop := ∀ node ∈ file.visit, node.Normal

theorem normal_iff {file : SourceFile} :
    file.Normal ↔ ∀ statement ∈ file.statements, statement.Normal := forall_visit_iff

theorem normal_mapTypes {f : TypeNode → TypeNode}
    (hf : ∀ type, TypeNode.Everywhere TypeNode.Normal type →
      TypeNode.Everywhere TypeNode.Normal (f type)) {file : SourceFile} (h : file.Normal) :
    (file.mapTypes f).Normal := by
  rw [normal_iff] at h ⊢
  show ∀ statement ∈ file.statements.map (·.mapTypes f), statement.Normal
  rw [List.forall_mem_map]
  intro statement hmem
  exact Statement.normal_mapTypes hf (h statement hmem)

theorem normal_updateFirst {f : Statement → Option Statement}
    (hf : ∀ statement new, statement.Normal → f statement = some new → new.Normal)
    {file : SourceFile} (h : file.Normal) :
    SourceFile.Normal { file with statements := updateFirst f file.statements } := by
  rw [normal_iff] at h ⊢
  intro statement hmem
  rcases mem_updateFirst hmem with hmem | ⟨old, hmem, hnew⟩
  · exact h statement hmem
  · exact hf old statement (h old hmem) hnew

theorem normal_renameFrom (old new : String) {file : SourceFile} (h : file.Normal) :
    (file.renameFrom old new).Normal := by
  have hmapped : SourceFile.Normal
      (if old = new then file else file.mapTypes (TypeNode.renameReferences old new)) := by
    split
    · exact h
    · exact normal_mapTypes (fun _ htype => (TypeNode.fits_renameReferences old new htype).normal) h
  unfold renameFrom
  have hrenamed := normal_updateFirst (f := Statement.renameAlias? old new)
    (fun statement renamed hstatement heq => by
      unfold Statement.Normal
      rw [Statement.types_renameAlias? heq]
      exact hstatement) hmapped
  rw [normal_iff] at hrenamed ⊢
  rw [List.forall_mem_map]
  intro statement hmem
  unfold Statement.Normal
  rw [Statement.types_renameWords, Statement.types_pruneModifiers]
  exact hrenamed statement hmem

/-- Each edit keeps a file normal. -/
theorem normal_edit {file result : SourceFile} {edit : Edit} (h : file.Normal)
    (hedit : file.edit edit = .ok result) : result.Normal := by
  cases edit with
  | renameRoot new wanted =>
    obtain ⟨_, old, _, rfl⟩ := renameRoot_eq_ok_iff.mp hedit
    exact normal_renameFrom old new h
  | injectProperty property =>
    rw [← Except.ok.inj hedit]
    exact normal_updateFirst (fun _ _ => Statement.normal_inject?) h
  | mergeRootUnions name =>
    rw [← Except.ok.inj hedit]
    exact normal_updateFirst (fun _ _ => Statement.normal_mergeUnions?) h
  | dropStringWidening =>
    rw [← Except.ok.inj hedit]
    exact normal_mapTypes (fun _ htype => (TypeNode.fits_dropStringWidening htype).normal) h
  | dropUnknownRecords =>
    rw [← Except.ok.inj hedit]
    exact normal_mapTypes (fun _ htype => (TypeNode.fits_dropUnknownRecords htype).normal) h
  | dropUnknownIndex =>
    rw [← Except.ok.inj hedit]
    rw [normal_iff] at h ⊢
    show ∀ statement ∈ file.statements.map Statement.dropUnknownIndex, statement.Normal
    rw [List.forall_mem_map]
    intro statement hmem
    exact Statement.normal_dropUnknownIndex (h statement hmem)

/-- Edits keep a file normal, in any order and number. -/
theorem normal_editAll {file result : SourceFile} {edits : List Edit} (h : file.Normal)
    (hedits : file.editAll edits = .ok result) : result.Normal := by
  unfold editAll at hedits
  induction edits generalizing file with
  | nil =>
    rw [List.foldlM_nil] at hedits
    rw [← Except.ok.inj hedits]
    exact h
  | cons first rest ih =>
    rw [List.foldlM_cons] at hedits
    cases hfirst : file.edit first with
    | error error =>
      rw [hfirst] at hedits
      cases hedits
    | ok between =>
      rw [hfirst] at hedits
      exact ih (normal_edit h hfirst) hedits

/-- `type Root = A & (B | (string | "a"))[];` -/
def nested : SourceFile :=
  ⟨[.typeAlias ⟨[], [.exported], "Root", .intersection [.named "A",
    .array (.parenthesized (.union [.named "B",
      .parenthesized (.union [.keyword .string, .stringLiteral "a"])]))]⟩], []⟩

/-- `type T = A & (B & "a")[];` -/
def flattened : SourceFile :=
  ⟨[.typeAlias ⟨[], [.exported], "T", .intersection [.named "A",
    .array (.parenthesized (.intersection [.named "B", .stringLiteral "a"]))]⟩], []⟩

/-- The parentheses that are left here hold an intersection that was a union. -/
theorem normal_flattened :
    nested.Normal ∧
      nested.editAll [.mergeRootUnions "Root", .dropStringWidening, .renameRoot "T" none] =
        .ok flattened ∧ flattened.Normal :=
  have h : nested.Normal := by unfold Normal; decide
  have hedits : nested.editAll
      [.mergeRootUnions "Root", .dropStringWidening, .renameRoot "T" none] = .ok flattened := by
    decide +kernel
  ⟨h, hedits, normal_editAll h hedits⟩

end SourceFile

end Declutter
