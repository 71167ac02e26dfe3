import Declutter.Proofs.Renaming
import Mathlib.Data.List.TakeWhile
import Mathlib.Logic.Equiv.Basic

/-!
# Names do not matter to the rewritings

`mapNames` replaces the names that a type refers to and nothing else: unlike `renameReferences` it
leaves parentheses where they are. A rewriting whose rule does not look at names does the same to a
type under other names, as long as different types stay different: `mapNames_rewrite`.

Of the names only the first segments are of interest. `mapRoot` replaces them, and swapping two of
them can be undone, so it keeps different types different.
-/

namespace Declutter

/-! ## First segments -/

/-- A name with another first segment. -/
def mapRoot (f : String → String) (name : String) : String :=
  f (referenceRoot name) ++ String.ofList (name.toList.dropWhile (· ≠ '.'))

theorem referenceRoot_append_rest (name : String) :
    referenceRoot name ++ String.ofList (name.toList.dropWhile (· ≠ '.')) = name := by
  rw [referenceRoot, ← String.ofList_append, List.takeWhile_append_dropWhile, String.ofList_toList]

theorem mapRoot_eq_self {f : String → String} {name : String}
    (h : f (referenceRoot name) = referenceRoot name) : mapRoot f name = name := by
  rw [mapRoot, h, referenceRoot_append_rest]

theorem mapRoot_congr {f g : String → String} {name : String}
    (h : f (referenceRoot name) = g (referenceRoot name)) : mapRoot f name = mapRoot g name := by
  rw [mapRoot, mapRoot, h]

theorem reroot_eq_mapRoot (old new name : String) :
    reroot old new name = mapRoot (Function.update id old new) name := by
  unfold reroot
  split
  · rename_i h
    rw [mapRoot, h, Function.update_self]
  · rename_i h
    exact (mapRoot_eq_self (Function.update_of_ne h _ _)).symm

theorem dot_notMem_referenceRoot (name : String) : '.' ∉ (referenceRoot name).toList := by
  rw [referenceRoot, String.toList_ofList]
  intro hmem
  simpa using List.mem_takeWhile_imp hmem

/-- A text without dots in front of the rest of a name is the first segment. -/
theorem takeWhile_append_rest {new : String} (h : '.' ∉ new.toList) (cs : List Char) :
    (new.toList ++ cs.dropWhile (· ≠ '.')).takeWhile (· ≠ '.') = new.toList := by
  have hnew : ∀ c ∈ new.toList, decide (c ≠ '.') = true := by
    intro c hc
    rw [decide_eq_true_eq]
    intro heq
    rw [heq] at hc
    exact h hc
  rw [List.takeWhile_append_of_pos hnew, takeWhile_dropWhile_ne_dot, List.append_nil]

theorem toList_mapRoot (f : String → String) (name : String) :
    (mapRoot f name).toList = (f (referenceRoot name)).toList ++ name.toList.dropWhile (· ≠ '.') := by
  rw [mapRoot, String.toList_append, String.toList_ofList]

theorem referenceRoot_mapRoot {f : String → String} {name : String}
    (h : '.' ∉ (f (referenceRoot name)).toList) :
    referenceRoot (mapRoot f name) = f (referenceRoot name) := by
  rw [referenceRoot, toList_mapRoot, takeWhile_append_rest h, String.ofList_toList]

/-- What stands behind the first segment stays. -/
theorem dropWhile_mapRoot {f : String → String} {name : String}
    (h : '.' ∉ (f (referenceRoot name)).toList) :
    (mapRoot f name).toList.dropWhile (· ≠ '.') = name.toList.dropWhile (· ≠ '.') := by
  have hsplit := List.takeWhile_append_dropWhile (p := (· ≠ '.')) (l := (mapRoot f name).toList)
  rw [toList_mapRoot, takeWhile_append_rest h] at hsplit
  rw [toList_mapRoot]
  exact List.append_cancel_left hsplit

theorem mapRoot_mapRoot {f g : String → String} {name : String}
    (h : '.' ∉ (f (referenceRoot name)).toList) :
    mapRoot g (mapRoot f name) = mapRoot (fun root => g (f root)) name := by
  rw [mapRoot, referenceRoot_mapRoot h, dropWhile_mapRoot h, mapRoot]

section Swap

variable {first second : String}

/-- A name with `second` for its first segment instead of `first`, and the other way round. -/
def swapRoot (first second : String) : String → String := mapRoot (Equiv.swap first second)

theorem dot_notMem_swap (hfirst : isIdentifier first = true) (hsecond : isIdentifier second = true)
    (name : String) : '.' ∉ (Equiv.swap first second (referenceRoot name)).toList := by
  rw [Equiv.swap_apply_def]
  split
  · exact dot_notMem_of_isIdentifier hsecond
  · split
    · exact dot_notMem_of_isIdentifier hfirst
    · exact dot_notMem_referenceRoot name

theorem swapRoot_swapRoot (hfirst : isIdentifier first = true)
    (hsecond : isIdentifier second = true) (name : String) :
    swapRoot first second (swapRoot first second name) = name := by
  unfold swapRoot
  rw [mapRoot_mapRoot (dot_notMem_swap hfirst hsecond name)]
  exact mapRoot_eq_self (Equiv.swap_apply_self first second _)

theorem swapRoot_of_ne {name : String} (hfirst : referenceRoot name ≠ first)
    (hsecond : referenceRoot name ≠ second) : swapRoot first second name = name :=
  mapRoot_eq_self (Equiv.swap_apply_of_ne_of_ne hfirst hsecond)

/-- Where nothing is called `second`, renaming is swapping. -/
theorem reroot_eq_swapRoot {name : String} (h : referenceRoot name ≠ second) :
    reroot first second name = swapRoot first second name := by
  rw [reroot_eq_mapRoot]
  apply mapRoot_congr
  by_cases hfirst : referenceRoot name = first
  · rw [hfirst, Function.update_self, Equiv.swap_apply_left]
  · rw [Function.update_of_ne hfirst, Equiv.swap_apply_of_ne_of_ne hfirst h]
    rfl

/-- Renaming to `first` and swapping is swapping and renaming to `second`. -/
theorem swapRoot_reroot (hfirst : isIdentifier first = true) (hsecond : isIdentifier second = true)
    {old : String} (hne : old ≠ first) (hne' : old ≠ second) (name : String) :
    swapRoot first second (reroot old first name) =
      reroot old second (swapRoot first second name) := by
  have hreroot : '.' ∉ (Function.update id old first (referenceRoot name)).toList := by
    by_cases hold : referenceRoot name = old
    · rw [hold, Function.update_self]
      exact dot_notMem_of_isIdentifier hfirst
    · rw [Function.update_of_ne hold]
      exact dot_notMem_referenceRoot name
  unfold swapRoot
  rw [reroot_eq_mapRoot, reroot_eq_mapRoot, mapRoot_mapRoot hreroot,
    mapRoot_mapRoot (dot_notMem_swap hfirst hsecond name)]
  apply mapRoot_congr
  by_cases hold : referenceRoot name = old
  · rw [hold, Function.update_self, Equiv.swap_apply_left,
      Equiv.swap_apply_of_ne_of_ne hne hne', Function.update_self]
  · -- a swap leaves `old` alone, so it makes it of nothing else
    have hswap : Equiv.swap first second (referenceRoot name) ≠ old := by
      rw [← Equiv.swap_apply_of_ne_of_ne hne hne']
      exact fun heq => hold ((Equiv.swap first second).injective heq)
    rw [Function.update_of_ne hold, Function.update_of_ne hswap]
    rfl

end Swap

/-! ## Replacing the names of a type -/

namespace TypeNode

mutual

/-- A type with each name that it refers to replaced. -/
def mapNames (rename : String → String) : TypeNode → TypeNode
  | .keyword word => .keyword word
  | .literal value => .literal value
  | .reference name arguments => .reference (rename name) (mapNamesList rename arguments)
  | .array element => .array (element.mapNames rename)
  | .tuple elements => .tuple (mapNamesElements rename elements)
  | .union members => .union (mapNamesList rename members)
  | .intersection members => .intersection (mapNamesList rename members)
  | .parenthesized inner => .parenthesized (inner.mapNames rename)
  | .typeLiteral members => .typeLiteral (mapNamesMembers rename members)

def mapNamesList (rename : String → String) : List TypeNode → List TypeNode
  | [] => []
  | node :: nodes => node.mapNames rename :: mapNamesList rename nodes

def mapNamesElements (rename : String → String) : List TupleElement → List TupleElement
  | [] => []
  | ⟨type, optional, rest⟩ :: elements =>
    ⟨type.mapNames rename, optional, rest⟩ :: mapNamesElements rename elements

def mapNamesMembers (rename : String → String) : List TypeMember → List TypeMember
  | [] => []
  | .property ⟨comments, readonly, name, optional, type⟩ :: members =>
    .property ⟨comments, readonly, name, optional, type.mapNames rename⟩ ::
      mapNamesMembers rename members
  | .index ⟨comments, readonly, parameter, key, value⟩ :: members =>
    .index ⟨comments, readonly, parameter, key.mapNames rename, value.mapNames rename⟩ ::
      mapNamesMembers rename members

end

section

variable (rename : String → String)

theorem mapNamesList_eq_map (nodes : List TypeNode) :
    mapNamesList rename nodes = nodes.map (mapNames rename) := by
  induction nodes with
  | nil => rfl
  | cons node nodes ih => rw [mapNamesList, ih, List.map_cons]

theorem mapNamesElements_eq_map (elements : List TupleElement) :
    mapNamesElements rename elements =
      elements.map fun e => ⟨e.type.mapNames rename, e.optional, e.rest⟩ := by
  induction elements with
  | nil => rfl
  | cons element elements ih =>
    obtain ⟨type, optional, rest⟩ := element
    rw [mapNamesElements, ih, List.map_cons]

theorem mapNamesMembers_eq_map (members : List TypeMember) :
    mapNamesMembers rename members = members.map (·.mapTypes (mapNames rename)) := by
  induction members with
  | nil => rfl
  | cons member members ih =>
    obtain ⟨_, _, _, _, _⟩ | ⟨_, _, _, _, _⟩ := member
    · rw [mapNamesMembers, ih, List.map_cons, TypeMember.mapTypes]
    · rw [mapNamesMembers, ih, List.map_cons, TypeMember.mapTypes]

@[simp] theorem mapNames_parenthesized (inner : TypeNode) :
    (parenthesized inner).mapNames rename = .parenthesized (inner.mapNames rename) := by
  rw [mapNames]

@[simp] theorem mapNames_typeLiteral (members : List TypeMember) :
    (typeLiteral members).mapNames rename =
      .typeLiteral (members.map (·.mapTypes (mapNames rename))) := by
  rw [mapNames, mapNamesMembers_eq_map]

@[simp] theorem mapNames_node (kind : Compound) (members : List TypeNode) :
    (kind.node members).mapNames rename = kind.node (members.map (mapNames rename)) := by
  cases kind <;> rw [Compound.node, mapNames, mapNamesList_eq_map] <;> rfl

/-- Apart from parentheses, the names below a node are replaced like all of its children. -/
theorem mapNames_eq {node : TypeNode} (h : ∀ inner, node ≠ .parenthesized inner) :
    node.mapNames rename = (node.mapChildren (mapNames rename)).mapName rename := by
  cases node with
  | parenthesized inner => exact absurd rfl (h inner)
  | _ => simp [mapNames, mapChildren, mapName, mapNamesList_eq_map, mapNamesElements_eq_map,
      mapNamesMembers_eq_map]

@[simp] theorem isCompound_mapNames (node : TypeNode) :
    (node.mapNames rename).isCompound = node.isCompound := by
  cases node <;> rw [mapNames] <;> rfl

@[simp] theorem isKeyword_mapNames (word : Keyword) (node : TypeNode) :
    (node.mapNames rename).isKeyword word = node.isKeyword word := by
  cases node <;> rw [mapNames] <;> rfl

end

theorem mapName_eq_self {rename : String → String} {node : TypeNode}
    (h : ∀ name, node.referenceName? = some name → rename name = name) :
    node.mapName rename = node := by
  cases node with
  | reference name arguments => rw [mapName, h name rfl]
  | _ => rfl

/-- A type stays as it is if its names do. -/
theorem mapNames_eq_self {rename : String → String} {node : TypeNode}
    (h : ∀ name ∈ node.referenceNames, rename name = name) : node.mapNames rename = node := by
  induction node using inductionOn with
  | step node ih =>
    rw [referenceNames_eq] at h
    have hchildren : ∀ child ∈ node.children, child.mapNames rename = child := by
      intro child hchild
      apply ih child hchild
      intro name hname
      exact h name (List.mem_append_right _ (List.mem_flatMap.mpr ⟨child, hchild, hname⟩))
    by_cases hparen : ∃ inner, node = .parenthesized inner
    · obtain ⟨inner, rfl⟩ := hparen
      rw [mapNames_parenthesized, hchildren inner (by simp [children])]
    · rw [mapNames_eq rename fun inner heq => hparen ⟨inner, heq⟩, mapChildren_eq_self hchildren]
      apply mapName_eq_self
      intro name hname
      exact h name (List.mem_append_left _ (by simp [hname]))

mutual

theorem mapNames_mapNames (f g : String → String) : ∀ node : TypeNode,
    (node.mapNames f).mapNames g = node.mapNames fun name => g (f name)
  | .keyword _ => by simp only [mapNames]
  | .literal _ => by simp only [mapNames]
  | .reference _ arguments => by simp only [mapNames, mapNamesList_mapNamesList f g arguments]
  | .array element => by simp only [mapNames, mapNames_mapNames f g element]
  | .tuple elements => by simp only [mapNames, mapNamesElements_mapNamesElements f g elements]
  | .union members => by simp only [mapNames, mapNamesList_mapNamesList f g members]
  | .intersection members => by simp only [mapNames, mapNamesList_mapNamesList f g members]
  | .parenthesized inner => by simp only [mapNames, mapNames_mapNames f g inner]
  | .typeLiteral members => by simp only [mapNames, mapNamesMembers_mapNamesMembers f g members]

theorem mapNamesList_mapNamesList (f g : String → String) : ∀ nodes : List TypeNode,
    mapNamesList g (mapNamesList f nodes) = mapNamesList (fun name => g (f name)) nodes
  | [] => rfl
  | node :: nodes => by
    simp only [mapNamesList, mapNames_mapNames f g node, mapNamesList_mapNamesList f g nodes]

theorem mapNamesElements_mapNamesElements (f g : String → String) :
    ∀ elements : List TupleElement, mapNamesElements g (mapNamesElements f elements) =
      mapNamesElements (fun name => g (f name)) elements
  | [] => rfl
  | ⟨type, _, _⟩ :: elements => by
    simp only [mapNamesElements, mapNames_mapNames f g type,
      mapNamesElements_mapNamesElements f g elements]

theorem mapNamesMembers_mapNamesMembers (f g : String → String) :
    ∀ members : List TypeMember, mapNamesMembers g (mapNamesMembers f members) =
      mapNamesMembers (fun name => g (f name)) members
  | [] => rfl
  | .property ⟨_, _, _, _, type⟩ :: members => by
    simp only [mapNamesMembers, mapNames_mapNames f g type,
      mapNamesMembers_mapNamesMembers f g members]
  | .index ⟨_, _, _, key, value⟩ :: members => by
    simp only [mapNamesMembers, mapNames_mapNames f g key, mapNames_mapNames f g value,
      mapNamesMembers_mapNamesMembers f g members]

end

/-! ## What does not depend on names -/

/-- What is picked from a list does not change with the elements, if what drops them does not. -/
theorem filterMap_zip_map_map {α : Type} {drops : α → Bool} {f : α → α}
    (h : ∀ a, drops (f a) = drops a) (old new : List α) :
    ((old.map f).zip (new.map f)).filterMap
        (fun (before, after) => if drops before then none else some after) =
      ((old.zip new).filterMap
        (fun (before, after) => if drops before then none else some after)).map f := by
  rw [List.zip_map, List.filterMap_map, List.map_filterMap]
  apply List.filterMap_congr
  intro pair _
  simp only [Function.comp_apply, Prod.map, h]
  split <;> rfl

section

variable (rename : String → String)

@[simp] theorem hasStringLiteral_mapNames (node : TypeNode) :
    (node.mapNames rename).hasStringLiteral = node.hasStringLiteral := by
  induction node using inductionOn with
  | step node ih =>
    by_cases hcompound : node.isCompound = true
    · obtain ⟨kind, members, rfl⟩ := exists_compound hcompound
      rw [mapNames_node, hasStringLiteral_node, hasStringLiteral_node]
      exact any_map_congr (by simpa using ih)
    · cases node with
      | parenthesized inner =>
        rw [mapNames_parenthesized, hasStringLiteral_parenthesized,
          hasStringLiteral_parenthesized]
        exact ih inner (by simp [children])
      | union => exact absurd rfl hcompound
      | intersection => exact absurd rfl hcompound
      | _ => simp [mapNames, hasStringLiteral]

@[simp] theorem isWideString_mapNames (node : TypeNode) :
    (node.mapNames rename).isWideString = node.isWideString := by
  induction node using inductionOn with
  | step node ih =>
    cases node with
    | parenthesized inner =>
      rw [mapNames_parenthesized, isWideString_parenthesized, isWideString_parenthesized]
      exact ih inner (by simp [children])
    | _ => simp [mapNames, isWideString, isKeyword]

@[simp] theorem isUnknownStringIndex_mapNames (member : TypeMember) :
    (member.mapTypes (mapNames rename)).isUnknownStringIndex = member.isUnknownStringIndex :=
  isUnknownStringIndex_mapTypes fun type _ word => isKeyword_mapNames rename word type

@[simp] theorem isUnknownRecord_mapNames (node : TypeNode) :
    (node.mapNames rename).isUnknownRecord = node.isUnknownRecord := by
  cases node with
  | typeLiteral members =>
    rw [mapNames_typeLiteral]
    rcases members with _ | ⟨first, _ | ⟨second, rest⟩⟩
    · rfl
    · exact isUnknownStringIndex_mapNames rename first
    · rfl
  | _ => rw [mapNames] <;> rfl

theorem mapNames_collapse (kind : Compound) (members : List TypeNode) :
    (kind.collapse members).mapNames rename = kind.collapse (members.map (mapNames rename)) := by
  rcases kind.collapse_cases members with ⟨member, rfl, heq⟩ | ⟨hlen, heq⟩
  · rw [heq]
    cases kind <;> rfl
  · rw [heq, mapNames_node, kind.collapse_of_length_ne_one (by rwa [List.length_map])]

theorem mapNames_parenthesize (node : TypeNode) :
    node.parenthesize.mapNames rename = (node.mapNames rename).parenthesize := by
  cases node <;> simp [parenthesize, mapNames, mapNamesMembers_eq_map]

/-! ## Rules that do not look at names -/

theorem mapNames_unionAsIntersection (node : TypeNode) :
    node.unionAsIntersection.mapNames rename = (node.mapNames rename).unionAsIntersection := by
  cases node <;> simp [unionAsIntersection, mapNames, mapNamesMembers_eq_map]

theorem withoutWideString_map_mapNames (members : List TypeNode) :
    withoutWideString (members.map (mapNames rename)) =
      (withoutWideString members).map (mapNames rename) := by
  rw [withoutWideString, withoutWideString, List.filter_map]
  simp only [Function.comp_def, isWideString_mapNames]

theorem mapNames_dropWideString (node : TypeNode) :
    node.dropWideString.mapNames rename = (node.mapNames rename).dropWideString := by
  by_cases hcompound : node.isCompound = true
  · obtain ⟨kind, members, rfl⟩ := exists_compound hcompound
    rw [mapNames_node, dropWideString_node, dropWideString_node,
      any_map_congr fun member _ => hasStringLiteral_mapNames rename member]
    split
    · rw [mapNames_collapse, withoutWideString_map_mapNames]
    · rw [mapNames_node]
  · have hsimple : node.isCompound = false := by simpa using hcompound
    have hsimple' : (node.mapNames rename).isCompound = false := by simpa using hcompound
    rw [narrow_of_isCompound_eq_false hsimple, narrow_of_isCompound_eq_false hsimple']

theorem keptMembers_map_mapNames (old new : List TypeNode) :
    keptMembers (old.map (mapNames rename)) (new.map (mapNames rename)) =
      (keptMembers old new).map (mapNames rename) :=
  filterMap_zip_map_map (isUnknownRecord_mapNames rename) old new

/-- A union without its unknown records, under other names. -/
theorem mapNames_dropRecords_union (old new : List TypeNode) :
    (dropRecords (.union old) (.union new)).mapNames rename =
      dropRecords (.union (old.map (mapNames rename))) (.union (new.map (mapNames rename))) := by
  unfold dropRecords
  simp only [keptMembers_map_mapNames]
  cases keptMembers old new with
  | nil => exact mapNames_node rename .union new
  | cons first rest =>
    rw [List.map_cons]
    simp only
    rw [mapNames_dropWideString]
    exact congrArg dropWideString (mapNames_collapse rename .union (first :: rest))

theorem mapNames_dropRecords (old new : TypeNode) :
    (dropRecords old new).mapNames rename =
      dropRecords (old.mapNames rename) (new.mapNames rename) := by
  cases old with
  | union old =>
    cases new with
    | union new =>
      rw [mapNames_dropRecords_union]
      simp only [mapNames, mapNamesList_eq_map]
    | _ => simp only [mapNames, dropRecords, mapNames_dropWideString]
  | _ => simp only [mapNames, dropRecords, mapNames_dropWideString]

theorem keptShape_map_mapNames (old new : List TypeMember) :
    keptShape (old.map (·.mapTypes (mapNames rename))) (new.map (·.mapTypes (mapNames rename))) =
      (keptShape old new).map (·.mapTypes (mapNames rename)) := by
  unfold keptShape
  simp only [filterMap_zip_map_map (isUnknownStringIndex_mapNames rename), List.isEmpty_map]
  split <;> rfl

theorem mapNames_dropIndex (old new : TypeNode) :
    (dropIndex old new).mapNames rename =
      dropIndex (old.mapNames rename) (new.mapNames rename) := by
  cases old with
  | typeLiteral old =>
    cases new with
    | typeLiteral new =>
      rw [mapNames_typeLiteral, mapNames_typeLiteral, dropIndex_typeLiteral, dropIndex_typeLiteral,
        mapNames_typeLiteral, keptShape_map_mapNames]
    | _ => simp only [mapNames, dropIndex]
  | _ => simp only [mapNames, dropIndex]

end

/-! ## Rewriting under other names -/

section

variable {rename : String → String} (hrename : ∀ name, rename (rename name) = name)
include hrename

/-- Names that can be taken back keep different types different. -/
theorem mapNames_injective : Function.Injective (mapNames rename) := by
  intro first second heq
  have hback : ∀ node : TypeNode, (node.mapNames rename).mapNames rename = node := by
    intro node
    rw [mapNames_mapNames]
    exact mapNames_eq_self fun name _ => hrename name
  rw [← hback first, heq, hback second]

theorem mapNames_reparenthesize (old new : TypeNode) :
    (reparenthesize old new).mapNames rename =
      reparenthesize (old.mapNames rename) (new.mapNames rename) := by
  unfold reparenthesize
  by_cases heq : new = old
  · rw [if_pos heq, if_pos (congrArg _ heq), mapNames_parenthesized]
  · rw [if_neg heq, if_neg fun h => heq (mapNames_injective hrename h), mapNames_parenthesize]

/-- Children replaced alike under other names. -/
theorem mapNames_mapChildren {f g : TypeNode → TypeNode} {node : TypeNode}
    (h : ∀ child ∈ node.children, (f child).mapNames rename = g (child.mapNames rename)) :
    (node.mapChildren f).mapNames rename = (node.mapNames rename).mapChildren g := by
  cases node with
  | keyword word => simp only [mapNames, mapChildren]
  | literal value => simp only [mapNames, mapChildren]
  | reference name arguments =>
    simp only [mapNames, mapChildren, mapNamesList_eq_map, List.map_map]
    congr 1
    exact List.map_congr_left h
  | array element => simp only [mapNames, mapChildren, h element (by simp [children])]
  | tuple elements =>
    simp only [mapNames, mapChildren, mapNamesElements_eq_map, List.map_map]
    congr 1
    apply List.map_congr_left
    intro element hmem
    have helement := h element.type (List.mem_map_of_mem hmem)
    simp only [Function.comp_apply, helement]
  | union members =>
    simp only [mapNames, mapChildren, mapNamesList_eq_map, List.map_map]
    congr 1
    exact List.map_congr_left h
  | intersection members =>
    simp only [mapNames, mapChildren, mapNamesList_eq_map, List.map_map]
    congr 1
    exact List.map_congr_left h
  | parenthesized inner =>
    rw [mapChildren, mapNames_parenthesized, mapChildren, mapNames_reparenthesize hrename,
      h inner (by simp [children])]
  | typeLiteral members =>
    simp only [mapNames, mapChildren, mapNamesMembers_eq_map, List.map_map]
    congr 1
    apply List.map_congr_left
    intro member hmem
    simp only [Function.comp_apply, TypeNode.mapTypes_mapTypes]
    apply mapTypes_congr
    intro type htype
    exact h type (List.mem_flatMap.mpr ⟨member, hmem, htype⟩)

/-- Rewritings whose rules do the same under other names do the same under other names. -/
theorem mapNames_rewrite {rule rule' : TypeNode → TypeNode → TypeNode}
    (hrule : ∀ old new, (rule old new).mapNames rename =
      rule' (old.mapNames rename) (new.mapNames rename)) (node : TypeNode) :
    (node.rewrite rule).mapNames rename = (node.mapNames rename).rewrite rule' := by
  induction node using inductionOn with
  | step node ih => rw [rewrite_eq, rewrite_eq, hrule, mapNames_mapChildren hrename ih]

theorem mapNames_mergeUnions (node : TypeNode) :
    node.mergeUnions.mapNames rename = (node.mapNames rename).mergeUnions :=
  mapNames_rewrite hrename (fun _ new => mapNames_unionAsIntersection rename new) node

theorem mapNames_dropStringWidening (node : TypeNode) :
    node.dropStringWidening.mapNames rename = (node.mapNames rename).dropStringWidening :=
  mapNames_rewrite hrename (fun _ new => mapNames_dropWideString rename new) node

theorem mapNames_dropUnknownRecords (node : TypeNode) :
    node.dropUnknownRecords.mapNames rename = (node.mapNames rename).dropUnknownRecords :=
  mapNames_rewrite hrename (mapNames_dropRecords rename) node

theorem mapNames_dropUnknownIndex (node : TypeNode) :
    node.dropUnknownIndex.mapNames rename = (node.mapNames rename).dropUnknownIndex :=
  mapNames_rewrite hrename (mapNames_dropIndex rename) node

end

end TypeNode

/-! ## Statements -/

namespace Statement

/-- A statement under other names is cleaned up like the statement. -/
theorem cleanUp_mapTypes_mapNames {rename : String → String}
    (hrename : ∀ name, rename (rename name) = name) (statement : Statement) :
    (statement.mapTypes (TypeNode.mapNames rename)).cleanUp =
      statement.cleanUp.mapTypes (TypeNode.mapNames rename) := by
  have hindex : ∀ other : Statement,
      (other.mapTypes (TypeNode.mapNames rename)).dropUnknownIndex =
        other.dropUnknownIndex.mapTypes (TypeNode.mapNames rename) := by
    intro other
    cases other with
    | typeAlias decl =>
      simp only [mapTypes, dropUnknownIndex, TypeNode.mapNames_dropUnknownIndex hrename]
    | interface decl =>
      simp only [mapTypes, dropUnknownIndex, ← TypeNode.keptShape_map_mapNames, List.map_map,
        Function.comp_def, TypeNode.mapTypes_mapTypes,
        TypeNode.mapNames_dropUnknownIndex hrename]
    | verbatim => rfl
  unfold cleanUp
  simp only [mapTypes_mapTypes, ← TypeNode.mapNames_dropStringWidening hrename,
    ← TypeNode.mapNames_dropUnknownRecords hrename]
  rw [← hindex, mapTypes_mapTypes]

end Statement

end Declutter
