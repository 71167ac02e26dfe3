import Declutter.Proofs.RootEdits
import Mathlib.Data.List.Forall2

/-!
# Renaming the root

Renaming replaces the first segment of every reference to the root, wherever the reference stands,
and touches no other name. Parentheses whose contents have changed are derived again, so some that
nothing needed may be gone; `TypeNode.Renamed` relates a type to what it becomes up to these.

`renameRoot_renames` puts together what is renamed and what stays: the names met on a walk through
the file, the names it declares, modifiers and comments, and the types.
-/

namespace Declutter

/-! ## Names -/

/-- A name with `new` for its first segment, if that is `old`. -/
def reroot (old new name : String) : String :=
  if referenceRoot name = old then
    new ++ String.ofList (name.toList.dropWhile (· ≠ '.'))
  else name

theorem drop_length_referenceRoot (name : String) :
    name.toList.drop (referenceRoot name).length = name.toList.dropWhile (· ≠ '.') := by
  have hsplit := List.takeWhile_append_dropWhile (p := (· ≠ '.')) (l := name.toList)
  have hlength : (referenceRoot name).length = (name.toList.takeWhile (· ≠ '.')).length := by
    rw [referenceRoot, String.length_ofList]
  calc name.toList.drop (referenceRoot name).length
      = (name.toList.takeWhile (· ≠ '.') ++ name.toList.dropWhile (· ≠ '.')).drop
          (name.toList.takeWhile (· ≠ '.')).length := by rw [hsplit, hlength]
    _ = name.toList.dropWhile (· ≠ '.') := List.drop_left

/-- No word has a dot in it. -/
theorem dot_notMem_of_isIdentifier {name : String} (h : isIdentifier name = true) :
    '.' ∉ name.toList := by
  have hpart : isWordPart '.' = false := by decide
  have hstart : isWordStart '.' = false := by decide
  intro hmem
  rw [isIdentifier] at h
  cases hname : name.toList with
  | nil => rw [hname] at hmem; cases hmem
  | cons c cs =>
    rw [hname, isWord, Bool.and_eq_true, List.all_eq_true] at h
    rw [hname] at hmem
    rcases List.mem_cons.mp hmem with rfl | hmem
    · rw [hstart] at h; cases h.1
    · have := h.2 '.' hmem
      rw [hpart] at this; cases this

theorem takeWhile_dropWhile_ne_dot (cs : List Char) :
    (cs.dropWhile (· ≠ '.')).takeWhile (· ≠ '.') = [] := by
  induction cs with
  | nil => rfl
  | cons c cs ih =>
    by_cases h : c = '.'
    · subst h; rfl
    · rw [List.dropWhile_cons_of_pos (by simpa using h)]
      exact ih

/-- The first segment of a name that has been given one. -/
theorem referenceRoot_append {new : String} (h : isIdentifier new = true) (cs : List Char) :
    referenceRoot (new ++ String.ofList (cs.dropWhile (· ≠ '.'))) = new := by
  have hnew : ∀ c ∈ new.toList, decide (c ≠ '.') = true := by
    intro c hc
    rw [decide_eq_true_eq]
    rintro rfl
    exact dot_notMem_of_isIdentifier h hc
  rw [referenceRoot, String.toList_append, String.toList_ofList,
    List.takeWhile_append_of_pos hnew, takeWhile_dropWhile_ne_dot, List.append_nil,
    String.ofList_toList]

theorem reroot_self (old name : String) : reroot old old name = name := by
  unfold reroot
  split
  · rename_i h
    conv_lhs => rw [← h]
    rw [referenceRoot, ← String.ofList_append, List.takeWhile_append_dropWhile,
      String.ofList_toList]
  · rfl

theorem referenceRoot_reroot_ne {old new : String} (h : isIdentifier new = true)
    (hne : old ≠ new) (name : String) : referenceRoot (reroot old new name) ≠ old := by
  unfold reroot
  split
  · rw [referenceRoot_append h]
    exact hne.symm
  · assumption

/-- A name is renamed once at most. -/
theorem reroot_reroot {old new : String} (h : isIdentifier new = true) (name : String) :
    reroot old new (reroot old new name) = reroot old new name := by
  by_cases heq : old = new
  · subst heq
    rw [reroot_self, reroot_self]
  · exact if_neg (referenceRoot_reroot_ne h heq name)

namespace TypeNode

/-! ## The names in a type -/

/-- The name that a node refers to, if it is a reference. -/
def referenceName? : TypeNode → Option String
  | .reference name _ => some name
  | _ => none

/-- The names that a type refers to, in the order in which its nodes are visited. -/
def referenceNames (node : TypeNode) : List String := node.visit.filterMap referenceName?

/-- A node with the name that it refers to replaced. -/
def mapName (rename : String → String) : TypeNode → TypeNode
  | .reference name arguments => .reference (rename name) arguments
  | node => node

theorem renameHead_eq_mapName (old new : String) (node : TypeNode) :
    node.renameHead old new = node.mapName (reroot old new) := by
  cases node with
  | reference name arguments =>
    rw [renameHead, mapName, reroot]
    split
    · rename_i h
      rw [← h, drop_length_referenceRoot]
    · rfl
  | _ => rfl

theorem mapName_mapName {rename : String → String}
    (h : ∀ name, rename (rename name) = rename name) (node : TypeNode) :
    (node.mapName rename).mapName rename = node.mapName rename := by
  cases node with
  | reference name arguments => simp only [mapName, h]
  | _ => rfl

theorem referenceNames_eq (node : TypeNode) :
    node.referenceNames =
      node.referenceName?.toList ++ node.children.flatMap referenceNames :=
  filterMap_visit referenceName? node

theorem referenceNames_mapName (rename : String → String) (node : TypeNode) :
    (node.mapName rename).referenceNames =
      (node.referenceName?.map rename).toList ++ node.children.flatMap referenceNames := by
  rw [referenceNames_eq]
  cases node <;> rfl

theorem referenceNames_parenthesized (inner : TypeNode) :
    (parenthesized inner).referenceNames = inner.referenceNames := by
  rw [referenceNames_eq]
  simp [referenceName?, children]

/-! ## What renaming does to a type -/

/-- A type and what it becomes when the names in it are replaced and some of the parentheses
around types that are no unions and no intersections are left out. -/
inductive Renamed (rename : String → String) : TypeNode → TypeNode → Prop
  | node {node : TypeNode} (f : TypeNode → TypeNode)
      (hnode : ∀ inner, node ≠ .parenthesized inner)
      (hchildren : ∀ child ∈ node.children, Renamed rename child (f child)) :
      Renamed rename node ((node.mapChildren f).mapName rename)
  | parenthesized {inner new : TypeNode} (h : Renamed rename inner new) :
      Renamed rename (.parenthesized inner) (.parenthesized new)
  | unwrapped {inner new : TypeNode} (h : Renamed rename inner new)
      (hnew : new.isCompound = false) : Renamed rename (.parenthesized inner) new

/-- Parentheses are left out around what is no compound. -/
theorem reparenthesize_cases_of_isCompound (old new : TypeNode) :
    reparenthesize old new = .parenthesized new ∨
      reparenthesize old new = new ∧ new.isCompound = false := by
  unfold reparenthesize
  split
  · exact .inl rfl
  · cases new <;> simp [parenthesize, isCompound]

section

variable {old new : String}

theorem renameReferences_eq_mapName (node : TypeNode) :
    node.renameReferences old new =
      (node.mapChildren (renameReferences old new)).mapName (reroot old new) := by
  rw [renameReferences_eq, renameHead_eq_mapName]

theorem renameReferences_self (name : String) (node : TypeNode) :
    node.renameReferences name name = node := by
  refine rewrite_eq_self fun n _ => ?_
  rw [renameHead_eq_mapName]
  cases n with
  | reference => rw [mapName, reroot_self]
  | _ => rfl

/-- A type whose references are renamed has no name left to replace. -/
theorem mapName_renameReferences (h : isIdentifier new = true) (node : TypeNode) :
    (node.renameReferences old new).mapName (reroot old new) = node.renameReferences old new := by
  rw [renameReferences_eq_mapName, mapName_mapName (reroot_reroot h)]

/-- What renaming makes of parentheses. -/
theorem renameReferences_parenthesized (h : isIdentifier new = true) (inner : TypeNode) :
    (parenthesized inner).renameReferences old new =
        .parenthesized (inner.renameReferences old new) ∨
      (parenthesized inner).renameReferences old new = inner.renameReferences old new ∧
        (inner.renameReferences old new).isCompound = false := by
  rw [renameReferences_eq_mapName, mapChildren]
  rcases reparenthesize_cases_of_isCompound inner (inner.renameReferences old new) with
    heq | ⟨heq, hcompound⟩
  · exact .inl (by rw [heq]; rfl)
  · exact .inr ⟨by rw [heq, mapName_renameReferences h], hcompound⟩

/-- Replacing children keeps the name of a node that is not in parentheses, and its children in
their places. -/
theorem referenceNames_mapName_mapChildren (rename : String → String) {f : TypeNode → TypeNode}
    {node : TypeNode} (hnode : ∀ inner, node ≠ .parenthesized inner) :
    ((node.mapChildren f).mapName rename).referenceNames =
      (node.referenceName?.map rename).toList ++
        node.children.flatMap fun child => (f child).referenceNames := by
  rw [referenceNames_mapName]
  cases node with
  | parenthesized inner => exact absurd rfl (hnode inner)
  | tuple elements =>
    simp [mapChildren, children, referenceName?, List.flatMap_map]
  | typeLiteral members =>
    simp [mapChildren, children, referenceName?, List.flatMap_map, List.flatMap_assoc,
      types_mapTypes]
  | _ => simp [mapChildren, children, referenceName?, List.flatMap_map]

/-- Renaming replaces the names of a type one by one. -/
theorem Renamed.referenceNames {rename : String → String} {node renamed : TypeNode}
    (h : Renamed rename node renamed) :
    renamed.referenceNames = node.referenceNames.map rename := by
  induction h with
  | @node node f hnode hchildren ih =>
    rw [referenceNames_mapName_mapChildren rename hnode, referenceNames_eq, List.map_append,
      List.map_flatMap]
    congr 1
    · cases node.referenceName? <;> rfl
    · exact List.flatMap_congr fun child hchild => ih child hchild
  | parenthesized h ih => rw [referenceNames_parenthesized, referenceNames_parenthesized, ih]
  | unwrapped h hnew ih => rw [referenceNames_parenthesized, ih]

theorem renamed_renameReferences (h : isIdentifier new = true) (node : TypeNode) :
    Renamed (reroot old new) node (node.renameReferences old new) := by
  induction node using inductionOn with
  | step node ih =>
    by_cases hparen : ∃ inner, node = .parenthesized inner
    · obtain ⟨inner, rfl⟩ := hparen
      have hinner := ih inner (by simp [children])
      obtain heq | ⟨heq, hcompound⟩ :
          (parenthesized inner).renameReferences old new =
            .parenthesized (inner.renameReferences old new) ∨ _ :=
        renameReferences_parenthesized h inner
      · rw [heq]; exact .parenthesized hinner
      · rw [heq]; exact .unwrapped hinner hcompound
    · rw [renameReferences_eq_mapName]
      exact .node _ (fun inner heq => hparen ⟨inner, heq⟩) ih

end

end TypeNode

/-! ## Statements -/

namespace Statement

/-- The names that the types of a statement refer to, in the order of a walk through them. -/
def referenceNames (statement : Statement) : List String :=
  statement.types.flatMap TypeNode.referenceNames

/-- A statement and what it becomes when the names in its types are replaced: its comments stay,
and of its modifiers `export`. -/
inductive Renamed (rename : String → String) : Statement → Statement → Prop
  | typeAlias {before after : TypeAlias}
      (hcomments : after.leadingComments = before.leadingComments)
      (hmodifiers : after.modifiers = before.modifiers.filter (· = .exported))
      (htype : before.type.Renamed rename after.type) :
      Renamed rename (.typeAlias before) (.typeAlias after)
  | interface {before after : Interface} (f : TypeNode → TypeNode)
      (hcomments : after.leadingComments = before.leadingComments)
      (hmodifiers : after.modifiers = before.modifiers.filter (· = .exported))
      (hheritage : after.heritage = before.heritage.map f)
      (hmembers : after.members = before.members.map (·.mapTypes f))
      (htypes : ∀ type ∈ (interface before).types, type.Renamed rename (f type)) :
      Renamed rename (.interface before) (.interface after)
  | verbatim {before after : Verbatim}
      (hcomments : after.leadingComments = before.leadingComments) :
      Renamed rename (.verbatim before) (.verbatim after)

theorem Renamed.referenceNames {rename : String → String} {before after : Statement}
    (h : Renamed rename before after) :
    after.referenceNames = before.referenceNames.map rename := by
  cases h with
  | typeAlias _ _ htype =>
    simp only [Statement.referenceNames, types, List.flatMap_cons, List.flatMap_nil,
      List.append_nil]
    exact htype.referenceNames
  | @interface before after f _ _ hheritage hmembers htypes =>
    have hafter : (Statement.interface after).types = (Statement.interface before).types.map f := by
      simp only [types, hheritage, hmembers, List.map_append, List.flatMap_map, List.map_flatMap,
        TypeNode.types_mapTypes]
    rw [Statement.referenceNames, hafter, List.flatMap_map, Statement.referenceNames,
      List.map_flatMap]
    exact List.flatMap_congr fun type htype => (htypes type htype).referenceNames
  | verbatim => rfl

/-- A statement with its references renamed, its modifiers pruned and its words replaced. -/
def followed (old new : String) (statement : Statement) : Statement :=
  ((statement.mapTypes (TypeNode.renameReferences old new)).pruneModifiers).renameWords old new

theorem renamed_followed {old new : String} (h : isIdentifier new = true)
    (statement : Statement) : Renamed (reroot old new) statement (statement.followed old new) := by
  cases statement with
  | typeAlias decl => exact .typeAlias rfl rfl (TypeNode.renamed_renameReferences h decl.type)
  | interface decl =>
    exact .interface _ rfl rfl rfl rfl fun type _ => TypeNode.renamed_renameReferences h type
  | verbatim => exact .verbatim rfl

/-- The root's own name is none of the names in its type. -/
theorem renamed_followed_root {old new : String} (h : isIdentifier new = true)
    (root : TypeAlias) :
    Renamed (reroot old new) (.typeAlias root)
      ((typeAlias { root with name := new }).followed old new) :=
  .typeAlias rfl rfl (TypeNode.renamed_renameReferences h root.type)

@[simp] theorem name?_followed (old new : String) (statement : Statement) :
    (statement.followed old new).name? = statement.name? := by
  cases statement <;> rfl

end Statement

/-! ## Files -/

theorem updateFirst_append {α : Type} {f : α → Option α} {as : List α} {a b : α}
    (has : ∀ other ∈ as, f other = none) (ha : f a = some b) (bs : List α) :
    updateFirst f (as ++ a :: bs) = as ++ b :: bs := by
  induction as with
  | nil => rw [List.nil_append, updateFirst_cons_some ha, List.nil_append]
  | cons other as ih =>
    rw [List.cons_append, updateFirst_cons_none (has other List.mem_cons_self),
      ih fun c hc => has c (List.mem_cons_of_mem other hc), List.cons_append]

/-- Lists whose elements are related piece by piece make up related lists. -/
theorem flatMap_of_forall₂ {α β : Type} {R : α → α → Prop} {f : α → List β} {g : β → β}
    (h : ∀ a b, R a b → f b = (f a).map g) {as bs : List α} (hR : List.Forall₂ R as bs) :
    bs.flatMap f = (as.flatMap f).map g := by
  induction hR with
  | nil => rfl
  | cons hab _ ih => rw [List.flatMap_cons, List.flatMap_cons, List.map_append, h _ _ hab, ih]

namespace SourceFile

/-- The names that a file refers to, in the order of a walk through its types. -/
def referenceNames (file : SourceFile) : List String :=
  file.visit.filterMap TypeNode.referenceName?

theorem referenceNames_eq (file : SourceFile) :
    file.referenceNames = file.statements.flatMap Statement.referenceNames := by
  simp only [referenceNames, visit, List.filterMap_flatMap, List.flatMap_assoc]
  rfl

/-- The alias that is the root of a file, between the statements in front of it and those behind
it: the first one of the wanted name, or the first one at all. -/
structure IsRoot (file : SourceFile) (wanted : Option String) (before : List Statement)
    (root : TypeAlias) (after : List Statement) : Prop where
  statements_eq : file.statements = before ++ .typeAlias root :: after
  name_eq : ∀ name, wanted = some name → root.name = name
  isFirst : ∀ statement ∈ before, ∀ name, statement.aliasName? = some name →
    ∃ other, wanted = some other ∧ name ≠ other

/-- Whether a statement can be the root: an alias, of the wanted name if one is wanted. -/
def isWanted (wanted : Option String) (statement : Statement) : Bool :=
  statement.aliasName?.any fun name => wanted.all (name = ·)

/-- Where a root is named, a statement can be it. -/
theorem exists_isWanted {file : SourceFile} {wanted : Option String} {old : String}
    (h : file.rootName wanted = .ok old) :
    ∃ statement ∈ file.statements, isWanted wanted statement = true := by
  unfold rootName at h
  cases wanted with
  | some other =>
    simp only at h
    split at h
    · rename_i hmem
      obtain ⟨statement, hstatement, hname⟩ := List.mem_filterMap.mp hmem
      exact ⟨statement, hstatement, by simp [isWanted, hname]⟩
    · cases h
  | none =>
    simp only at h
    split at h
    · rename_i name names hnames
      have hmem : name ∈ file.statements.filterMap (·.aliasName?) := by
        rw [hnames]; exact List.mem_cons_self
      obtain ⟨statement, hstatement, hname⟩ := List.mem_filterMap.mp hmem
      exact ⟨statement, hstatement, by simp [isWanted, hname]⟩
    · cases h

/-- The name that is chosen for the root is that of the root. -/
theorem IsRoot.name_eq_of_rootName {file : SourceFile} {wanted : Option String} {old : String}
    {before after : List Statement} {root : TypeAlias} (hroot : file.IsRoot wanted before root after)
    (h : file.rootName wanted = .ok old) : root.name = old := by
  unfold rootName at h
  cases wanted with
  | some other =>
    simp only at h
    split at h
    · rw [hroot.name_eq other rfl]
      exact Except.ok.inj h
    · cases h
  | none =>
    -- no alias stands in front of the root, or it would be the root
    have hnone : before.filterMap (·.aliasName?) = [] := by
      rw [List.filterMap_eq_nil_iff]
      intro other hmem
      rw [Option.eq_none_iff_forall_ne_some]
      intro name hname
      obtain ⟨_, hwanted, _⟩ := hroot.isFirst other hmem name hname
      cases hwanted
    rw [hroot.statements_eq, List.filterMap_append, hnone, List.nil_append] at h
    exact Except.ok.inj h

theorem exists_isRoot {file : SourceFile} {wanted : Option String} {old : String}
    (h : file.rootName wanted = .ok old) :
    ∃ before root after, file.IsRoot wanted before root after ∧ root.name = old := by
  -- the root is the first statement that can be it
  obtain ⟨statement, hfind⟩ :=
    Option.isSome_iff_exists.mp (List.find?_isSome.mpr (exists_isWanted h))
  obtain ⟨hstatement, before, after, hstatements, hbefore⟩ :=
    List.find?_eq_some_iff_append.mp hfind
  obtain ⟨root, rfl⟩ : ∃ root, statement = .typeAlias root := by
    cases statement with
    | typeAlias root => exact ⟨root, rfl⟩
    | _ => simp [isWanted, Statement.aliasName?] at hstatement
  have hroot : file.IsRoot wanted before root after :=
    { statements_eq := hstatements
      name_eq := by
        rintro name rfl
        simpa [isWanted, Statement.aliasName?] using hstatement
      isFirst := by
        intro other hmem name hname
        have hother := hbefore other hmem
        cases wanted with
        | some wanted => exact ⟨wanted, rfl, by simpa [isWanted, hname] using hother⟩
        | none => simp [isWanted, hname] at hother }
  exact ⟨before, root, after, hroot, hroot.name_eq_of_rootName h⟩

/-- In front of the root no alias has its name. -/
theorem IsRoot.aliasName?_ne {file : SourceFile} {wanted : Option String}
    {before after : List Statement} {root : TypeAlias} (h : file.IsRoot wanted before root after) :
    ∀ statement ∈ before, statement.aliasName? ≠ some root.name := by
  intro statement hmem hname
  obtain ⟨other, hwanted, hne⟩ := h.isFirst statement hmem root.name hname
  exact hne (h.name_eq other hwanted)

/-- Renaming is renaming each statement, and the root itself. -/
theorem IsRoot.statements_renameFrom {file : SourceFile} {wanted : Option String}
    {before after : List Statement} {root : TypeAlias} (h : file.IsRoot wanted before root after)
    (new : String) :
    (file.renameFrom root.name new).statements =
      before.map (·.followed root.name new) ++
        (Statement.typeAlias { root with name := new }).followed root.name new ::
          after.map (·.followed root.name new) := by
  have hmapped : (if root.name = new then file
      else file.mapTypes (TypeNode.renameReferences root.name new)).statements =
      file.statements.map (·.mapTypes (TypeNode.renameReferences root.name new)) := by
    split
    · rename_i heq
      symm
      refine TypeNode.map_eq_self fun statement _ => ?_
      have hself : TypeNode.renameReferences root.name new = fun node => node := by
        funext node
        rw [← heq, TypeNode.renameReferences_self]
      rw [hself]
      cases statement <;> simp [Statement.mapTypes, TypeNode.mapTypes_id]
    · rfl
  have hnone : ∀ statement ∈ before.map
      (·.mapTypes (TypeNode.renameReferences root.name new)),
      statement.renameAlias? root.name new = none := by
    rw [List.forall_mem_map]
    intro statement hmem
    refine Statement.renameAlias?_eq_none ?_
    rw [Statement.aliasName?_mapTypes]
    exact h.aliasName?_ne statement hmem
  rw [renameFrom, hmapped, h.statements_eq, List.map_append, List.map_cons,
    updateFirst_append hnone (by rw [Statement.mapTypes, Statement.renameAlias?, if_pos rfl]),
    List.map_append, List.map_cons, List.map_map, List.map_map]
  rfl

theorem trailingComments_renameFrom (file : SourceFile) (old new : String) :
    (file.renameFrom old new).trailingComments = file.trailingComments := by
  unfold renameFrom
  split <;> rfl

/-- Renaming the root replaces the first segment of every reference to it, in the order of a walk,
and no other; the root alone gets another name; and of the statements nothing else changes but
modifiers other than `export`, words of text, and parentheses that nothing needs. -/
theorem renameRoot_renames {file result : SourceFile} {new : String} {wanted : Option String}
    (h : file.renameRoot new wanted = .ok result) :
    ∃ before root after, file.IsRoot wanted before root after ∧
      result.referenceNames = file.referenceNames.map (reroot root.name new) ∧
      (root.name ≠ new → ∀ name ∈ result.referenceNames, referenceRoot name ≠ root.name) ∧
      result.statements.map (·.name?) =
        before.map (·.name?) ++ some new :: after.map (·.name?) ∧
      List.Forall₂ (Statement.Renamed (reroot root.name new)) file.statements
        result.statements ∧
      result.trailingComments = file.trailingComments := by
  obtain ⟨hvalid, old, hold, rfl⟩ := renameRoot_eq_ok_iff.mp h
  obtain ⟨before, root, after, hroot, rfl⟩ := exists_isRoot hold
  have hstatements := hroot.statements_renameFrom new
  have hrenamed : List.Forall₂ (Statement.Renamed (reroot root.name new)) file.statements
      (file.renameFrom root.name new).statements := by
    have hfollowed : ∀ statements : List Statement,
        List.Forall₂ (Statement.Renamed (reroot root.name new)) statements
          (statements.map (·.followed root.name new)) := by
      intro statements
      rw [List.forall₂_map_right_iff, List.forall₂_same]
      exact fun statement _ => Statement.renamed_followed hvalid statement
    rw [hstatements, hroot.statements_eq]
    exact List.rel_append (hfollowed before)
      (.cons (Statement.renamed_followed_root hvalid root) (hfollowed after))
  have hnames : (file.renameFrom root.name new).referenceNames =
      file.referenceNames.map (reroot root.name new) := by
    rw [referenceNames_eq, referenceNames_eq]
    exact flatMap_of_forall₂ (fun _ _ hstatement => hstatement.referenceNames) hrenamed
  refine ⟨before, root, after, hroot, hnames, fun hne name hname => ?_, ?_, hrenamed, ?_⟩
  · rw [hnames] at hname
    obtain ⟨name, _, rfl⟩ := List.mem_map.mp hname
    exact referenceRoot_reroot_ne hvalid hne name
  · rw [hstatements]
    simp only [List.map_append, List.map_cons, List.map_map, Function.comp_def,
      Statement.name?_followed]
    rfl
  · unfold renameFrom
    split <;> rfl

/-- `declare type Root = (Root) | Root.Inner<(string | Roots)[]>;` and
`export interface N extends Root { x: [Root?]; }` -/
def rootedTwice : SourceFile :=
  ⟨[.typeAlias ⟨[], [.declared], "Root", .union [.parenthesized (.named "Root"),
      .reference "Root.Inner" [.array (.parenthesized (.union [.keyword .string,
        .named "Roots"]))]]⟩,
    .interface ⟨[], [.exported], "N", [.named "Root"],
      [.property ⟨[], false, "x", false, .tuple [⟨.named "Root", true, false⟩]⟩]⟩], []⟩

/-- `type T = T | T.Inner<(string | Roots)[]>;` and `export interface N extends T { x: [T?]; }` -/
def rerooted : SourceFile :=
  ⟨[.typeAlias ⟨[], [], "T", .union [.named "T",
      .reference "T.Inner" [.array (.parenthesized (.union [.keyword .string,
        .named "Roots"]))]]⟩,
    .interface ⟨[], [.exported], "N", [.named "T"],
      [.property ⟨[], false, "x", false, .tuple [⟨.named "T", true, false⟩]⟩]⟩], []⟩

/-- References stand in every kind of place here, and one pair of parentheses goes. -/
theorem renameRoot_rootedTwice :
    rootedTwice.renameRoot "T" none = .ok rerooted ∧
      ∃ before root after, rootedTwice.IsRoot none before root after ∧
        rerooted.referenceNames = rootedTwice.referenceNames.map (reroot root.name "T") ∧
        (root.name ≠ "T" → ∀ name ∈ rerooted.referenceNames, referenceRoot name ≠ root.name) ∧
        rerooted.statements.map (·.name?) =
          before.map (·.name?) ++ some "T" :: after.map (·.name?) ∧
        List.Forall₂ (Statement.Renamed (reroot root.name "T")) rootedTwice.statements
          rerooted.statements ∧
        rerooted.trailingComments = rootedTwice.trailingComments :=
  have h : rootedTwice.renameRoot "T" none = .ok rerooted := by decide +kernel
  ⟨h, renameRoot_renames h⟩

end SourceFile

end Declutter
