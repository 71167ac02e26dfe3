import Declutter.Proofs.Names
import Declutter.Proofs.Rewording
import Declutter.Proofs.RootedFiles

/-!
# Fresh names for the root

A file that is transformed with one fresh name for its root, and has the root renamed to another
one then, is the file transformed with that other name: `renameRoot_transform`.

Renaming derives parentheses again where something changes in them, and so do the rewritings that
stand between the two renamings. What makes the order not matter is that all of them have left
parentheses only where they are needed or where the root is not referred to. Such a type is
`Renameable`: renaming the root in it swaps two names and nothing else, and swapping names commutes
with every rewriting.
-/

namespace Declutter

namespace TypeNode

/-! ## Renaming and swapping -/

/-- A type without references rooted at a name. -/
def Lacks (root : String) (node : TypeNode) : Prop :=
  ∀ name ∈ node.referenceNames, referenceRoot name ≠ root

theorem Lacks.of_mem_children {root : String} {node child : TypeNode} (h : node.Lacks root)
    (hchild : child ∈ node.children) : child.Lacks root := by
  intro name hname
  apply h
  rw [referenceNames_eq]
  exact List.mem_append_right _ (List.mem_flatMap.mpr ⟨child, hchild, hname⟩)

section

variable {first second : String}

/-- What must hold of a node for renaming `first` to be swapping it with `second`: nothing is called
`second`, and no parentheses are derived again around what needs none. -/
def Renameable (first second : String) : TypeNode → Prop
  | .reference name _ => referenceRoot name ≠ second
  | .parenthesized inner => inner.isCompound = true ∨ inner.Lacks first
  | _ => True

theorem everywhere_renameable_of_lacks {node : TypeNode} (hfirst : node.Lacks first)
    (hsecond : node.Lacks second) : Everywhere (Renameable first second) node := by
  induction node using inductionOn with
  | step node ih =>
    rw [everywhere_iff]
    constructor
    · cases node with
      | reference name arguments =>
        apply hsecond
        rw [referenceNames_eq]
        exact List.mem_append_left _ (List.mem_singleton_self name)
      | parenthesized inner => exact .inr (hfirst.of_mem_children (by simp [children]))
      | _ => trivial
    · intro child hchild
      exact ih child hchild (hfirst.of_mem_children hchild) (hsecond.of_mem_children hchild)

/-- Nothing in a renameable type is called `second`. -/
theorem lacks_of_everywhere_renameable {node : TypeNode}
    (h : Everywhere (Renameable first second) node) : node.Lacks second := by
  intro name hname
  obtain ⟨n, hn, hreference⟩ := List.mem_filterMap.mp hname
  have hnode := h n hn
  cases n with
  | reference other arguments =>
    obtain rfl := Option.some.inj hreference
    exact hnode
  | _ => cases hreference

theorem renameReferences_eq_mapNames {node : TypeNode}
    (h : Everywhere (Renameable first second) node) :
    node.renameReferences first second = node.mapNames (swapRoot first second) := by
  induction node using inductionOn with
  | step node ih =>
    have hchildren : ∀ child ∈ node.children,
        child.renameReferences first second = child.mapNames (swapRoot first second) :=
      fun child hchild => ih child hchild (h.below child hchild)
    rw [renameReferences_eq_mapName, mapChildren_congr hchildren]
    by_cases hparen : ∃ inner, node = .parenthesized inner
    · obtain ⟨inner, rfl⟩ := hparen
      rw [mapChildren, mapNames_parenthesized]
      have hinner : Everywhere (Renameable first second) inner := h.below inner (by simp [children])
      rcases h.here with hcompound | hlacks
      · -- the new contents are a compound again, which needs its parentheses
        have hnew : (inner.mapNames (swapRoot first second)).isCompound = true := by
          rw [isCompound_mapNames, hcompound]
        rcases reparenthesize_cases_of_isCompound inner (inner.mapNames (swapRoot first second)) with
          heq | ⟨_, hsimple⟩
        · rw [heq]
          rfl
        · rw [hnew] at hsimple
          cases hsimple
      · -- neither of the two is in there
        have hself : inner.mapNames (swapRoot first second) = inner := by
          apply mapNames_eq_self
          intro name hname
          exact swapRoot_of_ne (hlacks name hname)
            (lacks_of_everywhere_renameable hinner name hname)
        rw [hself, reparenthesize_self]
        rfl
    · rw [mapNames_eq _ fun inner heq => hparen ⟨inner, heq⟩]
      have hnode := h.here
      cases node with
      | reference name arguments =>
        rw [mapChildren, mapName, mapName, reroot_eq_swapRoot hnode]
      | parenthesized inner => exact absurd ⟨inner, rfl⟩ hparen
      | _ => simp only [mapChildren, mapName]

/-- Renaming to `first` and then swapping it with `second` is renaming to `second`. -/
theorem mapNames_renameReferences {old : String} (hfirst : isIdentifier first = true)
    (hsecond : isIdentifier second = true) (hne : old ≠ first) (hne' : old ≠ second)
    {node : TypeNode} (hlacks : node.Lacks first) (hlacks' : node.Lacks second) :
    (node.renameReferences old first).mapNames (swapRoot first second) =
      node.renameReferences old second := by
  have hrule : ∀ _old new : TypeNode,
      (new.renameHead old first).mapNames (swapRoot first second) =
        (new.mapNames (swapRoot first second)).renameHead old second := by
    intro _ new
    rw [renameHead_eq_mapName, renameHead_eq_mapName]
    cases new with
    | reference name arguments =>
      simp only [mapName, mapNames, swapRoot_reroot hfirst hsecond hne hne']
    | _ => simp only [mapName, mapNames]
  have hself : node.mapNames (swapRoot first second) = node := by
    apply mapNames_eq_self
    intro name hname
    exact swapRoot_of_ne (hlacks name hname) (hlacks' name hname)
  calc (node.renameReferences old first).mapNames (swapRoot first second)
      = (node.mapNames (swapRoot first second)).renameReferences old second :=
        mapNames_rewrite (swapRoot_swapRoot hfirst hsecond) hrule node
    _ = node.renameReferences old second := by rw [hself]

/-! ## What keeps a type renameable -/

theorem everywhere_renameable_mapChildren {f : TypeNode → TypeNode} {node : TypeNode}
    (hnode : Renameable first second node)
    (h : ∀ child ∈ node.children, Everywhere (Renameable first second) (f child)) :
    Everywhere (Renameable first second) (node.mapChildren f) := by
  cases node with
  | parenthesized inner =>
    have hnew : Everywhere (Renameable first second) (f inner) := h inner (by simp [children])
    rw [mapChildren]
    by_cases heq : f inner = inner
    · rw [heq, reparenthesize_self, everywhere_iff]
      refine ⟨hnode, ?_⟩
      simpa [children, heq] using hnew
    · rw [reparenthesize, if_neg heq]
      by_cases hcompound : (f inner).isCompound = true
      · have hparen : (f inner).parenthesize = .parenthesized (f inner) := by
          cases hf : f inner <;> rw [hf] at hcompound <;> first | rfl | cases hcompound
        rw [hparen, everywhere_iff]
        exact ⟨.inl hcompound, by simpa [children] using hnew⟩
      · have hparen : (f inner).parenthesize = f inner := by
          cases hf : f inner <;> rw [hf] at hcompound <;> first | rfl | exact absurd rfl hcompound
        rw [hparen]
        exact hnew
  | reference name arguments =>
    rw [everywhere_iff]
    exact ⟨hnode, everywhere_children_mapChildren h⟩
  | _ =>
    rw [everywhere_iff]
    exact ⟨trivial, everywhere_children_mapChildren h⟩

theorem everywhere_renameable_rewrite {rule : TypeNode → TypeNode → TypeNode}
    (hrule : ∀ old new, Everywhere (Renameable first second) new →
      Everywhere (Renameable first second) (rule old new)) {node : TypeNode}
    (h : Everywhere (Renameable first second) node) :
    Everywhere (Renameable first second) (node.rewrite rule) :=
  everywhere_rewrite_of_everywhere
    (fun _ hnode hchildren => hrule _ _ (everywhere_renameable_mapChildren hnode hchildren)) h

theorem renameable_node (kind : Compound) (members : List TypeNode) :
    Renameable first second (kind.node members) := by
  cases kind <;> trivial

theorem everywhere_renameable_dropWideString {node : TypeNode}
    (h : Everywhere (Renameable first second) node) :
    Everywhere (Renameable first second) node.dropWideString := by
  by_cases hcompound : node.isCompound = true
  · obtain ⟨kind, members, rfl⟩ := exists_compound hcompound
    rw [dropWideString_node]
    split
    · apply everywhere_collapse kind (fun _ => renameable_node kind _)
      intro member hmem
      exact h.below member (by simpa using mem_of_mem_withoutWideString hmem)
    · exact h
  · rw [narrow_of_isCompound_eq_false (by simpa using hcompound)]
    exact h

theorem mem_of_mem_keptMembers {old new : List TypeNode} {member : TypeNode}
    (h : member ∈ keptMembers old new) : member ∈ new := by
  obtain ⟨⟨before, after⟩, hpair, hpick⟩ := List.mem_filterMap.mp h
  simp only at hpick
  split at hpick
  · cases hpick
  · rw [← Option.some.inj hpick]
    exact (List.of_mem_zip hpair).2

theorem everywhere_renameable_dropRecords (old : TypeNode) {new : TypeNode}
    (h : Everywhere (Renameable first second) new) :
    Everywhere (Renameable first second) (dropRecords old new) := by
  unfold dropRecords
  split
  · rename_i oldMembers newMembers
    split
    · exact h
    · apply everywhere_renameable_dropWideString
      apply everywhere_ofUnion (fun _ => renameable_node .union _)
      intro member hmem
      exact h.below member (mem_of_mem_keptMembers hmem)
  · exact everywhere_renameable_dropWideString h

theorem mem_of_mem_keptShape {old new : List TypeMember} {member : TypeMember}
    (h : member ∈ keptShape old new) : member ∈ new := by
  unfold keptShape at h
  simp only at h
  split at h
  · exact h
  · obtain ⟨⟨before, after⟩, hpair, hpick⟩ := List.mem_filterMap.mp h
    simp only at hpick
    split at hpick
    · cases hpick
    · rw [← Option.some.inj hpick]
      exact (List.of_mem_zip hpair).2

theorem everywhere_renameable_dropIndex (old : TypeNode) {new : TypeNode}
    (h : Everywhere (Renameable first second) new) :
    Everywhere (Renameable first second) (dropIndex old new) := by
  unfold dropIndex
  split
  · rename_i oldMembers newMembers
    rw [everywhere_iff]
    refine ⟨trivial, fun type htype => ?_⟩
    obtain ⟨member, hmem, htype⟩ := List.mem_flatMap.mp htype
    exact h.below type (List.mem_flatMap.mpr ⟨member, mem_of_mem_keptShape hmem, htype⟩)
  · exact h

theorem everywhere_renameable_renameReferences {old : String} (hfirst : isIdentifier first = true)
    (hne : first ≠ second) {node : TypeNode} (h : Everywhere (Renameable first second) node) :
    Everywhere (Renameable first second) (node.renameReferences old first) := by
  refine everywhere_renameable_rewrite (fun _ new hnew => ?_) h
  rw [renameHead_eq_mapName]
  cases new with
  | reference name arguments =>
    rw [mapName, everywhere_iff]
    refine ⟨?_, hnew.below⟩
    show referenceRoot (reroot old first name) ≠ second
    unfold reroot
    split
    · rw [referenceRoot_append hfirst]
      exact hne
    · exact hnew.here
  | _ => exact hnew

theorem everywhere_renameable_mergeUnions {node : TypeNode}
    (h : Everywhere (Renameable first second) node) :
    Everywhere (Renameable first second) node.mergeUnions := by
  refine everywhere_renameable_rewrite (fun _ new hnew => ?_) h
  rw [everywhere_iff, children_unionAsIntersection]
  refine ⟨?_, hnew.below⟩
  cases new with
  | union => trivial
  | _ => exact hnew.here

theorem everywhere_renameable_cleanUp {node : TypeNode}
    (h : Everywhere (Renameable first second) node) :
    Everywhere (Renameable first second) node.cleanUp := by
  have hwide : Everywhere (Renameable first second) node.dropStringWidening :=
    everywhere_renameable_rewrite (fun _ _ => everywhere_renameable_dropWideString) h
  have hrecords : Everywhere (Renameable first second) node.dropStringWidening.dropUnknownRecords :=
    everywhere_renameable_rewrite (fun old _ => everywhere_renameable_dropRecords old) hwide
  exact everywhere_renameable_rewrite (fun old _ => everywhere_renameable_dropIndex old) hrecords

end

end TypeNode

/-! ## Statements -/

namespace Statement

theorem types_followed (old new : String) (statement : Statement) :
    (statement.followed old new).types =
      statement.types.map (TypeNode.renameReferences old new) := by
  rw [followed, types_renameWords, types_pruneModifiers, types_mapTypes]

theorem pruneModifiers_mapTypes (f : TypeNode → TypeNode) (statement : Statement) :
    (statement.mapTypes f).pruneModifiers = statement.pruneModifiers.mapTypes f := by
  cases statement <;> rfl

theorem renameWords_mapTypes (f : TypeNode → TypeNode) (old new : String)
    (statement : Statement) :
    (statement.mapTypes f).renameWords old new = (statement.renameWords old new).mapTypes f := by
  cases statement <;> rfl

theorem renameWords_cleanUp (old new : String) (statement : Statement) :
    statement.cleanUp.renameWords old new = (statement.renameWords old new).cleanUp := by
  cases statement <;> rfl

/-- The words of a statement kept as text that can name a type. -/
def words : Statement → List String
  | .verbatim statement => (Verbatim.words statement.text).map (·.2)
  | _ => []

/-- A statement that names nothing `root`: no type of it refers to the name, and no text has it. -/
structure Fresh (statement : Statement) (root : String) : Prop where
  unreferenced : ∀ name ∈ statement.referenceNames, referenceRoot name ≠ root
  unwritten : root ∉ statement.words

theorem Fresh.lacks {statement : Statement} {root : String} (h : statement.Fresh root) :
    ∀ type ∈ statement.types, type.Lacks root :=
  fun type htype name hname => h.unreferenced name (List.mem_flatMap.mpr ⟨type, htype, hname⟩)

theorem renameWords_renameWords {statement : Statement} {first : String}
    (hvalid : isIdentifier first = true) (h : statement.Fresh first) (old second : String) :
    (statement.renameWords old first).renameWords first second =
      statement.renameWords old second := by
  cases statement with
  | verbatim statement =>
    have hwords : ∀ word ∈ Verbatim.words statement.text, word.2 ≠ first :=
      fun word hword heq => h.unwritten (List.mem_map.mpr ⟨word, hword, heq⟩)
    simp only [renameWords, Verbatim.rename_rename statement.text old second hvalid hwords]
  | _ => rfl

/-- What may be done to the types of a statement between renaming and cleaning up: it does not
look at names and leaves them in their parentheses. -/
structure Neutral (edit : TypeNode → TypeNode) (first second : String) : Prop where
  mapNames_eq : ∀ type : TypeNode, (edit type).mapNames (swapRoot first second) =
    edit (type.mapNames (swapRoot first second))
  renameable : ∀ type, TypeNode.Everywhere (TypeNode.Renameable first second) type →
    TypeNode.Everywhere (TypeNode.Renameable first second) (edit type)

section

variable {statement : Statement} {old first second : String} {edit : TypeNode → TypeNode}

/-- A statement that follows the root to its new name, edited and cleaned up. -/
def rebuilt (edit : TypeNode → TypeNode) (old new : String) (statement : Statement) : Statement :=
  ((statement.followed old new).mapTypes edit).cleanUp

theorem rebuilt_self (old new : String) (statement : Statement) :
    statement.rebuilt (fun type => type) old new = (statement.followed old new).cleanUp := by
  rw [rebuilt, mapTypes_eq_self fun _ _ => rfl]

theorem aliasName?_rebuilt (edit : TypeNode → TypeNode) (old new : String) (statement : Statement) :
    (statement.rebuilt edit old new).aliasName? = statement.aliasName? := by
  simp [rebuilt, followed]

/-- Every type of the result is renameable. -/
theorem renameable_of_mem_types_rebuilt (hne : first ≠ second) (hvalid : isIdentifier first = true)
    (hfirst : statement.Fresh first) (hsecond : statement.Fresh second)
    (hedit : Neutral edit first second) :
    ∀ type ∈ (statement.rebuilt edit old first).types,
      TypeNode.Everywhere (TypeNode.Renameable first second) type := by
  intro type htype
  obtain ⟨edited, hedited, rfl⟩ := exists_of_mem_types_cleanUp htype
  rw [types_mapTypes] at hedited
  obtain ⟨renamed, hrenamed, rfl⟩ := List.mem_map.mp hedited
  rw [types_followed] at hrenamed
  obtain ⟨before, hbefore, rfl⟩ := List.mem_map.mp hrenamed
  apply TypeNode.everywhere_renameable_cleanUp
  apply hedit.renameable
  apply TypeNode.everywhere_renameable_renameReferences hvalid hne
  exact TypeNode.everywhere_renameable_of_lacks (hfirst.lacks before hbefore)
    (hsecond.lacks before hbefore)

/-- A statement under other names, rebuilt for `first`, is the statement rebuilt for `second` but
for the words of text. -/
theorem mapTypes_mapNames_followed (hvalid : isIdentifier first = true)
    (hvalid' : isIdentifier second = true) (hne : old ≠ first) (hne' : old ≠ second)
    (hfirst : statement.Fresh first) (hsecond : statement.Fresh second) :
    (statement.followed old first).mapTypes (TypeNode.mapNames (swapRoot first second)) =
      ((statement.mapTypes (TypeNode.renameReferences old second)).pruneModifiers).renameWords
        old first := by
  have htypes : ∀ type ∈ statement.types,
      (type.renameReferences old first).mapNames (swapRoot first second) =
        type.renameReferences old second :=
    fun type htype => TypeNode.mapNames_renameReferences hvalid hvalid' hne hne'
      (hfirst.lacks type htype) (hsecond.lacks type htype)
  rw [followed, ← renameWords_mapTypes, ← pruneModifiers_mapTypes, mapTypes_mapTypes,
    mapTypes_congr htypes]

theorem pruneModifiers_rebuilt :
    (statement.rebuilt edit old first).pruneModifiers = statement.rebuilt edit old first := by
  rw [rebuilt, pruneModifiers_cleanUp, pruneModifiers_mapTypes, followed,
    pruneModifiers_renameWords, pruneModifiers_pruneModifiers]

/-- A statement that has been rebuilt for one fresh name and follows the root to another is the
statement rebuilt for the other. -/
theorem followed_rebuilt (hvalid : isIdentifier first = true)
    (hvalid' : isIdentifier second = true) (hne : old ≠ first) (hne' : old ≠ second)
    (hfirst : statement.Fresh first) (hsecond : statement.Fresh second)
    (hedit : Neutral edit first second) :
    (statement.rebuilt edit old first).followed first second =
      statement.rebuilt edit old second := by
  by_cases heq : first = second
  · -- there is nothing to rename
    subst heq
    rw [followed, mapTypes_eq_self fun type _ => TypeNode.renameReferences_self first type,
      pruneModifiers_rebuilt, renameWords_self]
  · have hswap : (statement.rebuilt edit old first).mapTypes
          (TypeNode.renameReferences first second) =
        (statement.rebuilt edit old first).mapTypes
          (TypeNode.mapNames (swapRoot first second)) :=
      mapTypes_congr fun type htype => TypeNode.renameReferences_eq_mapNames
        (renameable_of_mem_types_rebuilt heq hvalid hfirst hsecond hedit type htype)
    have hedits : ∀ other : Statement,
        (other.mapTypes edit).mapTypes (TypeNode.mapNames (swapRoot first second)) =
          (other.mapTypes (TypeNode.mapNames (swapRoot first second))).mapTypes edit := by
      intro other
      rw [mapTypes_mapTypes, mapTypes_mapTypes]
      exact mapTypes_congr fun type _ => hedit.mapNames_eq type
    have hrebuilt : (statement.rebuilt edit old first).mapTypes
          (TypeNode.mapNames (swapRoot first second)) =
        ((((statement.mapTypes (TypeNode.renameReferences old second)).pruneModifiers).renameWords
          old first).mapTypes edit).cleanUp := by
      rw [rebuilt, ← cleanUp_mapTypes_mapNames (swapRoot_swapRoot hvalid hvalid'), hedits,
        mapTypes_mapNames_followed hvalid hvalid' hne hne' hfirst hsecond]
    -- words of text are the only thing that is still called `first`
    calc (statement.rebuilt edit old first).followed first second
        = ((((((statement.mapTypes (TypeNode.renameReferences old second)).pruneModifiers).renameWords
            old first).mapTypes edit).cleanUp).pruneModifiers).renameWords first second := by
          rw [followed, hswap, hrebuilt]
      _ = ((((statement.renameWords old first).renameWords first second).mapTypes
            (TypeNode.renameReferences old second)).pruneModifiers.mapTypes edit).cleanUp := by
          rw [pruneModifiers_cleanUp, pruneModifiers_mapTypes, pruneModifiers_renameWords,
            pruneModifiers_pruneModifiers, renameWords_cleanUp, renameWords_mapTypes,
            ← pruneModifiers_renameWords, ← pruneModifiers_renameWords, renameWords_mapTypes,
            renameWords_mapTypes]
      _ = statement.rebuilt edit old second := by
          rw [renameWords_renameWords hvalid hfirst, rebuilt, followed, ← pruneModifiers_renameWords,
            renameWords_mapTypes]

end

end Statement

theorem Statement.mergeUnions?_eq_none {name : String} {statement : Statement}
    (h : statement.aliasName? ≠ some name) : statement.mergeUnions? name = none := by
  cases statement with
  | typeAlias decl => rw [mergeUnions?, if_neg fun heq => h (by rw [aliasName?, heq])]
  | _ => rfl

theorem TypeNode.neutral_mergeUnions {first second : String} (hvalid : isIdentifier first = true)
    (hvalid' : isIdentifier second = true) :
    Statement.Neutral TypeNode.mergeUnions first second where
  mapNames_eq := mapNames_mergeUnions (swapRoot_swapRoot hvalid hvalid')
  renameable _ := everywhere_renameable_mergeUnions

theorem TypeNode.neutral_self (first second : String) :
    Statement.Neutral (fun type => type) first second where
  mapNames_eq _ := rfl
  renameable _ h := h

/-! ## Files -/

namespace SourceFile

/-- A name that a file does not have: it declares nothing of that name, refers to nothing below it
and has no such word in a statement kept as text. -/
structure Fresh (file : SourceFile) (root : String) : Prop where
  undeclared : root ∉ file.declaredNames
  unreferenced : ∀ name ∈ file.referenceNames, referenceRoot name ≠ root
  unwritten : ∀ statement ∈ file.statements, root ∉ statement.words

theorem Fresh.statement {file : SourceFile} {root : String} (h : file.Fresh root)
    {statement : Statement} (hmem : statement ∈ file.statements) : statement.Fresh root where
  unreferenced := by
    intro name hname
    apply h.unreferenced
    rw [referenceNames_eq]
    exact List.mem_flatMap.mpr ⟨statement, hmem, hname⟩
  unwritten := h.unwritten statement hmem

theorem Fresh.aliasName?_ne {file : SourceFile} {root : String} (h : file.Fresh root)
    {statement : Statement} (hmem : statement ∈ file.statements) :
    statement.aliasName? ≠ some root := by
  intro hname
  apply h.undeclared
  refine List.mem_filterMap.mpr ⟨statement, hmem, ?_⟩
  cases statement with
  | typeAlias decl => exact hname
  | _ => cases hname

/-- What is done to the root's type between renaming and cleaning up. -/
def rootEdit (options : Options) : TypeNode → TypeNode :=
  if options.mergeRootUnions then TypeNode.mergeUnions else fun type => type

theorem IsRoot.statements_mergeAsked {file : SourceFile} {options : Options}
    {before after : List Statement} {root : TypeAlias}
    (hroot : file.IsRoot options.rootAlias before root after)
    (hfresh : file.Fresh options.rootName) :
    ((file.renameFrom root.name options.rootName).mergeAsked options).statements =
      before.map (·.followed root.name options.rootName) ++
        ((Statement.typeAlias { root with name := options.rootName }).followed root.name
          options.rootName).mapTypes (rootEdit options) ::
        after.map (·.followed root.name options.rootName) := by
  have hstatements := hroot.statements_renameFrom options.rootName
  unfold mergeAsked rootEdit
  split
  · -- no alias in front of the root has its new name
    have hnone : ∀ statement ∈ before.map (·.followed root.name options.rootName),
        statement.mergeUnions? options.rootName = none := by
      rw [List.forall_mem_map]
      intro statement hmem
      apply Statement.mergeUnions?_eq_none
      have hfile : statement ∈ file.statements := by simp [hroot.statements_eq, hmem]
      simpa [Statement.followed] using hfresh.aliasName?_ne hfile
    have hmerged : Statement.mergeUnions? options.rootName
        ((Statement.typeAlias { root with name := options.rootName }).followed root.name
          options.rootName) =
        some (((Statement.typeAlias { root with name := options.rootName }).followed root.name
          options.rootName).mapTypes TypeNode.mergeUnions) := if_pos rfl
    show updateFirst _ (file.renameFrom root.name options.rootName).statements = _
    rw [hstatements, updateFirst_append hnone hmerged]
  · rw [hstatements, Statement.mapTypes_eq_self fun _ _ => rfl]

/-- The edits of the root and the clean-up rebuild each statement. -/
theorem IsRoot.statements_transform {file result : SourceFile} {options : Options}
    {before after : List Statement} {root : TypeAlias}
    (hroot : file.IsRoot options.rootAlias before root after)
    (hinject : options.injectProperty = none) (hfresh : file.Fresh options.rootName)
    (h : file.transform options = .ok result) :
    result.statements =
      before.map (·.rebuilt (fun type => type) root.name options.rootName) ++
        (Statement.typeAlias { root with name := options.rootName }).rebuilt (rootEdit options)
          root.name options.rootName ::
        after.map (·.rebuilt (fun type => type) root.name options.rootName) := by
  obtain ⟨rooted, hrooted, rfl, _⟩ := transform_eq_ok_iff.mp h
  obtain ⟨_, old, hold, rfl⟩ := applyRoot_eq_ok_iff.mp hrooted
  have hname := hroot.name_eq_of_rootName hold
  have hnothing : (file.renameFrom old options.rootName).injectAsked options =
      file.renameFrom old options.rootName := by
    rw [injectAsked, hinject]
  rw [hnothing, statements_cleanUp, ← hname, hroot.statements_mergeAsked hfresh]
  simp only [List.map_append, List.map_cons, List.map_map, Function.comp_def,
    Statement.rebuilt_self]
  rfl

theorem trailingComments_transform {file result : SourceFile} {options : Options}
    (h : file.transform options = .ok result) :
    result.trailingComments = file.trailingComments := by
  obtain ⟨rooted, hrooted, rfl, _⟩ := transform_eq_ok_iff.mp h
  obtain ⟨_, old, _, rfl⟩ := applyRoot_eq_ok_iff.mp hrooted
  rw [cleanUp_eq, ← trailingComments_renameFrom file old options.rootName]
  unfold mergeAsked injectAsked
  split <;> split <;> rfl

section

variable {file first second : SourceFile} {options : Options} {name name' : String}

theorem eq_of_statements_eq (hstatements : first.statements = second.statements)
    (hcomments : first.trailingComments = second.trailingComments) : first = second := by
  cases first
  cases second
  cases hstatements
  cases hcomments
  rfl

/-- The root of a transformed file, which is where it was in the file. -/
def rebuiltRoot (options : Options) (root : TypeAlias) : TypeAlias where
  leadingComments := root.leadingComments
  modifiers := root.modifiers.filter (· = .exported)
  name := options.rootName
  type := (rootEdit options (root.type.renameReferences root.name options.rootName)).cleanUp

/-- The root of a transformed file is where it was. -/
theorem IsRoot.of_transform {result : SourceFile} {before after : List Statement}
    {root : TypeAlias} (hroot : file.IsRoot options.rootAlias before root after)
    (hinject : options.injectProperty = none) (hfresh : file.Fresh options.rootName)
    (h : file.transform options = .ok result) :
    result.IsRoot (some options.rootName)
      (before.map (·.rebuilt (fun type => type) root.name options.rootName))
      (rebuiltRoot options root)
      (after.map (·.rebuilt (fun type => type) root.name options.rootName)) where
  statements_eq := hroot.statements_transform hinject hfresh h
  name_eq := by
    intro name heq
    exact Option.some.inj heq
  isFirst := by
    intro statement hmem name hname
    obtain ⟨old, hold, rfl⟩ := List.mem_map.mp hmem
    refine ⟨options.rootName, rfl, fun heq => ?_⟩
    rw [Statement.aliasName?_rebuilt, heq] at hname
    exact hfresh.aliasName?_ne (by simp [hroot.statements_eq, hold]) hname

theorem IsRoot.rootName_eq {before after : List Statement} {root : TypeAlias}
    (hroot : file.IsRoot (some name) before root after) :
    file.rootName (some name) = .ok name := by
  have hmem : name ∈ file.statements.filterMap (·.aliasName?) := by
    rw [hroot.statements_eq, ← hroot.name_eq name rfl]
    exact List.mem_filterMap.mpr ⟨.typeAlias root, by simp, rfl⟩
  exact if_pos hmem

theorem neutral_rootEdit (options : Options) (hvalid : isIdentifier name = true)
    (hvalid' : isIdentifier name' = true) : Statement.Neutral (rootEdit options) name name' := by
  unfold rootEdit
  split
  · exact TypeNode.neutral_mergeUnions hvalid hvalid'
  · exact TypeNode.neutral_self name name'

/-- Renaming the root of a transformed file rebuilds each statement for the other name. -/
theorem IsRoot.statements_renameFrom_rebuilt {result : SourceFile} {before after : List Statement}
    {root : TypeAlias} (hroot : file.IsRoot options.rootAlias before root after)
    (hresult : result.IsRoot (some name)
      (before.map (·.rebuilt (fun type => type) root.name name))
      (rebuiltRoot { options with rootName := name } root)
      (after.map (·.rebuilt (fun type => type) root.name name)))
    (hvalid : isIdentifier name = true) (hvalid' : isIdentifier name' = true)
    (hname : file.Fresh name) (hname' : file.Fresh name') :
    (result.renameFrom name name').statements =
      before.map (·.rebuilt (fun type => type) root.name name') ++
        (Statement.typeAlias { root with name := name' }).rebuilt (rootEdit options)
          root.name name' ::
        after.map (·.rebuilt (fun type => type) root.name name') := by
  have hmem : ∀ statement, statement ∈ before ∨ statement = .typeAlias root ∨ statement ∈ after →
      statement ∈ file.statements := by
    intro statement h
    rw [hroot.statements_eq]
    simpa using h
  have hrootMem := hmem (.typeAlias root) (.inr (.inl rfl))
  have hne : root.name ≠ name := fun heq => hname.aliasName?_ne hrootMem (congrArg some heq)
  have hne' : root.name ≠ name' := fun heq => hname'.aliasName?_ne hrootMem (congrArg some heq)
  have hothers : ∀ statement ∈ file.statements,
      (statement.rebuilt (fun type => type) root.name name).followed name name' =
        statement.rebuilt (fun type => type) root.name name' :=
    fun statement hstatement => Statement.followed_rebuilt hvalid hvalid' hne hne'
      (hname.statement hstatement) (hname'.statement hstatement) (TypeNode.neutral_self name name')
  -- the name of an alias is none of those that a statement refers to
  have hfresh : (Statement.typeAlias { root with name := name' }).Fresh name :=
    ⟨(hname.statement hrootMem).unreferenced, by simp [Statement.words]⟩
  have hfresh' : (Statement.typeAlias { root with name := name' }).Fresh name' :=
    ⟨(hname'.statement hrootMem).unreferenced, by simp [Statement.words]⟩
  have hself := Statement.followed_rebuilt hvalid hvalid' hne hne' hfresh hfresh'
    (neutral_rootEdit options hvalid hvalid')
  have hstatements := hresult.statements_renameFrom name'
  rw [List.map_map, List.map_map] at hstatements
  refine hstatements.trans ?_
  rw [← hself]
  congr 1
  · exact List.map_congr_left fun statement h => hothers statement (hmem statement (.inl h))
  · congr 1
    exact List.map_congr_left fun statement h => hothers statement (hmem statement (.inr (.inr h)))

/-- The name that the root is given does not matter: from the result for one fresh name, giving the
root another fresh name makes the result for that. -/
theorem renameRoot_transform (options : Options) (hinject : options.injectProperty = none)
    (hname : file.Fresh name) (hname' : file.Fresh name')
    (hfirst : file.transform { options with rootName := name } = .ok first)
    (hsecond : file.transform { options with rootName := name' } = .ok second) :
    first.renameRoot name' (some name) = .ok second := by
  obtain ⟨rooted, hrooted, _, _⟩ := transform_eq_ok_iff.mp hfirst
  obtain ⟨hvalid, old, hold, _⟩ := applyRoot_eq_ok_iff.mp hrooted
  obtain ⟨rooted', hrooted', _, _⟩ := transform_eq_ok_iff.mp hsecond
  obtain ⟨hvalid', _, _, _⟩ := applyRoot_eq_ok_iff.mp hrooted'
  obtain ⟨before, root, after, hroot, rfl⟩ := exists_isRoot hold
  have hroot' : file.IsRoot ({ options with rootName := name' } : Options).rootAlias before root
    after := hroot
  have hrootFirst := hroot.of_transform hinject hname hfirst
  have hstatements : (first.renameFrom name name').statements = second.statements :=
    (hroot.statements_renameFrom_rebuilt hrootFirst hvalid hvalid' hname hname').trans
      (hroot'.statements_transform hinject hname' hsecond).symm
  have hcomments : (first.renameFrom name name').trailingComments = second.trailingComments := by
    rw [trailingComments_renameFrom, trailingComments_transform hfirst,
      trailingComments_transform hsecond]
  exact renameRoot_eq_ok_iff.mpr
    ⟨hvalid', name, hrootFirst.rootName_eq, eq_of_statements_eq hstatements hcomments⟩

end

/-- `type Root = (Root | string)[];` and `declare function read(text: string): Root.Inner;` -/
def recursive : SourceFile :=
  ⟨[.typeAlias ⟨[], [.exported], "Root",
      .array (.parenthesized (.union [.named "Root", .keyword .string]))⟩,
    .verbatim ⟨[], "declare function read(text: string): Root.Inner;"⟩], []⟩

/-- `type T = (T & string)[];` and `declare function read(text: string): T.Inner;` -/
def recursiveT : SourceFile :=
  ⟨[.typeAlias ⟨[], [.exported], "T",
      .array (.parenthesized (.intersection [.named "T", .keyword .string]))⟩,
    .verbatim ⟨[], "declare function read(text: string): T.Inner;"⟩], []⟩

/-- `type Tree = (Tree & string)[];` and `declare function read(text: string): Tree.Inner;` -/
def recursiveTree : SourceFile :=
  ⟨[.typeAlias ⟨[], [.exported], "Tree",
      .array (.parenthesized (.intersection [.named "Tree", .keyword .string]))⟩,
    .verbatim ⟨[], "declare function read(text: string): Tree.Inner;"⟩], []⟩

/-- The root refers to itself here, and so does a statement kept as text. -/
theorem renameRoot_recursive :
    recursive.Fresh "T" ∧ recursive.Fresh "Tree" ∧
      recursive.transform { mergeRootUnions := true, rootName := "T" } = .ok recursiveT ∧
      recursive.transform { mergeRootUnions := true, rootName := "Tree" } = .ok recursiveTree ∧
      recursiveT.renameRoot "Tree" (some "T") = .ok recursiveTree :=
  have hT : recursive.Fresh "T" :=
    ⟨by decide, by decide, by decide⟩
  have hTree : recursive.Fresh "Tree" :=
    ⟨by decide, by decide, by decide⟩
  have hfirst : recursive.transform { mergeRootUnions := true, rootName := "T" } =
      .ok recursiveT := by decide +kernel
  have hsecond : recursive.transform { mergeRootUnions := true, rootName := "Tree" } =
      .ok recursiveTree := by decide +kernel
  ⟨hT, hTree, hfirst, hsecond,
    renameRoot_transform { mergeRootUnions := true } rfl hT hTree hfirst hsecond⟩

end SourceFile

end Declutter
