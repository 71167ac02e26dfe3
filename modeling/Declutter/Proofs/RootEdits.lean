import Declutter.Proofs.CleanUp
import Declutter.Proofs.VerbatimText
import Mathlib.Data.List.Basic

/-!
# The edits of the root, statement by statement

An edit of the root changes the first statement that it applies to. `updateFirst_updateFirst` says
when a second edit finds nothing to do, and the lemmas on `renameAlias?`, `inject?` and
`mergeUnions?` say which statements they apply to and what these become.

Cleaning up does not take an edit back: an interface keeps the property that it was given, and a
type without unions gets none.
-/

namespace Declutter

/-! ## Updating the first of a list -/

section UpdateFirst

variable {α : Type} {f g : α → Option α}

theorem updateFirst_cons_some {a b : α} (h : f a = some b) (as : List α) :
    updateFirst f (a :: as) = b :: as := by
  rw [updateFirst, h]

theorem updateFirst_cons_none {a : α} (h : f a = none) (as : List α) :
    updateFirst f (a :: as) = a :: updateFirst f as := by
  rw [updateFirst, h]

theorem updateFirst_eq_self {as : List α} (h : ∀ a ∈ as, ∀ b, f a = some b → b = a) :
    updateFirst f as = as := by
  induction as with
  | nil => rfl
  | cons a as ih =>
    cases hfa : f a with
    | some b => rw [updateFirst_cons_some hfa, h a List.mem_cons_self b hfa]
    | none =>
      rw [updateFirst_cons_none hfa, ih fun b hmem => h b (List.mem_cons_of_mem _ hmem)]

/-- An update that is done with what it has made is done with the list. -/
theorem updateFirst_updateFirst (h : ∀ a b, f a = some b → f b = some b) (as : List α) :
    updateFirst f (updateFirst f as) = updateFirst f as := by
  induction as with
  | nil => rfl
  | cons a as ih =>
    cases hfa : f a with
    | some b => rw [updateFirst_cons_some hfa, updateFirst_cons_some (h a b hfa)]
    | none => rw [updateFirst_cons_none hfa, updateFirst_cons_none hfa, ih]

/-- An update that is done stays done if the elements change only in ways that do not matter to
it. -/
theorem updateFirst_map_eq_self {change : α → α} {as : List α}
    (hnone : ∀ a, f a = none → f (change a) = none)
    (hsome : ∀ a, f a = some a → f (change a) = some (change a))
    (h : updateFirst f as = as) : updateFirst f (as.map change) = as.map change := by
  induction as with
  | nil => rfl
  | cons a as ih =>
    rw [List.map_cons]
    cases hfa : f a with
    | some b =>
      rw [updateFirst_cons_some hfa, List.cons.injEq] at h
      rw [h.1] at hfa
      rw [updateFirst_cons_some (hsome a hfa)]
    | none =>
      rw [updateFirst_cons_none hfa, List.cons.injEq] at h
      rw [updateFirst_cons_none (hnone a hfa), ih h.2]

/-- An update that is done stays done if another one changes what it leaves alone. -/
theorem updateFirst_updateFirst_of_disjoint {as : List α}
    (hdisjoint : ∀ a b, g a = some b → f a = none ∧ f b = none) (h : updateFirst f as = as) :
    updateFirst f (updateFirst g as) = updateFirst g as := by
  induction as with
  | nil => rfl
  | cons a as ih =>
    -- the two updates stop at different elements; the cases are which of them stops first
    cases hga : g a with
    | some b =>
      obtain ⟨hfa, hfb⟩ := hdisjoint a b hga
      rw [updateFirst_cons_none hfa, List.cons.injEq] at h
      rw [updateFirst_cons_some hga, updateFirst_cons_none hfb, h.2]
    | none =>
      rw [updateFirst_cons_none hga]
      cases hfa : f a with
      | some b =>
        rw [updateFirst_cons_some hfa, List.cons.injEq] at h
        rw [updateFirst_cons_some hfa, h.1]
      | none =>
        rw [updateFirst_cons_none hfa, List.cons.injEq] at h
        rw [updateFirst_cons_none hfa, ih h.2]

theorem mem_updateFirst {as : List α} {b : α}
    (h : b ∈ updateFirst f as) : b ∈ as ∨ ∃ a ∈ as, f a = some b := by
  induction as with
  | nil => cases h
  | cons a as ih =>
    cases hfa : f a with
    | some c =>
      rw [updateFirst_cons_some hfa, List.mem_cons] at h
      rcases h with rfl | h
      · exact .inr ⟨a, List.mem_cons_self, hfa⟩
      · exact .inl (List.mem_cons_of_mem a h)
    | none =>
      rw [updateFirst_cons_none hfa, List.mem_cons] at h
      rcases h with rfl | h
      · exact .inl List.mem_cons_self
      · rcases ih h with h | ⟨c, hmem, hc⟩
        · exact .inl (List.mem_cons_of_mem a h)
        · exact .inr ⟨c, List.mem_cons_of_mem a hmem, hc⟩

/-- An update that neither makes a property hold nor makes it fail. -/
theorem forall_mem_updateFirst_iff {p : α → Prop} (h : ∀ a b, f a = some b → (p b ↔ p a))
    (as : List α) : (∀ a ∈ updateFirst f as, p a) ↔ ∀ a ∈ as, p a := by
  induction as with
  | nil => rfl
  | cons a as ih =>
    cases hfa : f a with
    | some b =>
      rw [updateFirst_cons_some hfa, List.forall_mem_cons, List.forall_mem_cons, h a b hfa]
    | none => rw [updateFirst_cons_none hfa, List.forall_mem_cons, List.forall_mem_cons, ih]

/-- What an update does not touch stays the same. -/
theorem map_updateFirst {β : Type} {view : α → β}
    (h : ∀ a b, f a = some b → view b = view a) (as : List α) :
    (updateFirst f as).map view = as.map view := by
  induction as with
  | nil => rfl
  | cons a as ih =>
    cases hfa : f a with
    | some b => rw [updateFirst_cons_some hfa, List.map_cons, List.map_cons, h a b hfa]
    | none => rw [updateFirst_cons_none hfa, List.map_cons, List.map_cons, ih]

end UpdateFirst

/-! ## Types without unions -/

namespace TypeNode

def IsNoUnion (node : TypeNode) : Prop := ∀ members, node ≠ .union members

theorem isNoUnion_unionAsIntersection (node : TypeNode) : IsNoUnion node.unionAsIntersection := by
  intro members
  cases node <;> simp [unionAsIntersection]

theorem children_unionAsIntersection (node : TypeNode) :
    node.unionAsIntersection.children = node.children := by
  cases node <;> rfl

/-- Merging leaves no union at any depth. -/
theorem everywhere_isNoUnion_mergeUnions (node : TypeNode) :
    Everywhere IsNoUnion node.mergeUnions := by
  refine everywhere_rewrite (fun node h => ?_) node
  rw [everywhere_iff, children_unionAsIntersection]
  exact ⟨isNoUnion_unionAsIntersection _, everywhere_children_mapChildren h⟩

theorem mergeUnions_eq_self {node : TypeNode} (h : Everywhere IsNoUnion node) :
    node.mergeUnions = node := by
  refine rewrite_eq_self fun n hn => ?_
  cases n with
  | union members => exact absurd rfl (h _ hn members)
  | _ => rfl

theorem everywhere_isNoUnion_of_mergeUnions_eq_self {node : TypeNode}
    (h : node.mergeUnions = node) : Everywhere IsNoUnion node := by
  rw [← h]
  exact everywhere_isNoUnion_mergeUnions node

theorem everywhere_isNoUnion_dropWideString {node : TypeNode} (h : Everywhere IsNoUnion node) :
    Everywhere IsNoUnion node.dropWideString := by
  by_cases hcompound : node.isCompound = true
  · obtain ⟨kind, members, rfl⟩ := exists_compound hcompound
    rw [dropWideString_node]
    split
    · refine everywhere_collapse kind (fun _ => ?_) fun member hmem => ?_
      · cases kind with
        | union => exact absurd rfl (h.here members)
        | intersection => intro others heq; cases heq
      · exact h.below member (by simpa using mem_of_mem_withoutWideString hmem)
    · exact h
  · rw [narrow_of_isCompound_eq_false (by simpa using hcompound)]
    exact h

/-- Without unions, children replaced by types without unions make no union. -/
theorem everywhere_isNoUnion_mapChildren {f : TypeNode → TypeNode} {node : TypeNode}
    (hnode : IsNoUnion node) (h : ∀ child ∈ node.children, Everywhere IsNoUnion (f child)) :
    Everywhere IsNoUnion (node.mapChildren f) :=
  everywhere_mapChildren_of_ne_union (fun _ hn => hn) hnode h

/-- Cleaning up makes no union where there is none. -/
theorem everywhere_isNoUnion_cleanUp {node : TypeNode} (h : Everywhere IsNoUnion node) :
    Everywhere IsNoUnion node.cleanUp := by
  have hwide : Everywhere IsNoUnion node.dropStringWidening :=
    everywhere_rewrite_of_everywhere (fun n hn hchildren =>
      everywhere_isNoUnion_dropWideString (everywhere_isNoUnion_mapChildren hn hchildren)) h
  -- without unions, dropping records is dropping `string` once more
  have hrecords : Everywhere IsNoUnion node.dropStringWidening.dropUnknownRecords := by
    refine everywhere_rewrite_of_everywhere (fun n hn hchildren => ?_) hwide
    rw [dropRecords_of_ne_union hn]
    exact everywhere_isNoUnion_dropWideString (everywhere_isNoUnion_mapChildren hn hchildren)
  refine everywhere_dropUnknownIndex (fun n hn members heq => ?_) (fun kind members hn => ?_) hrecords
  · rw [heq] at hn; cases hn
  · cases kind with
    | union => exact absurd rfl (hn members)
    | intersection => intro others heq; cases heq

end TypeNode

/-! ## What the edits do to a statement -/

namespace Statement

@[simp] theorem aliasName?_mapTypes (f : TypeNode → TypeNode) (statement : Statement) :
    (statement.mapTypes f).aliasName? = statement.aliasName? := by
  cases statement <;> rfl

@[simp] theorem aliasName?_pruneModifiers (statement : Statement) :
    statement.pruneModifiers.aliasName? = statement.aliasName? := by
  cases statement <;> rfl

@[simp] theorem aliasName?_renameWords (old new : String) (statement : Statement) :
    (statement.renameWords old new).aliasName? = statement.aliasName? := by
  cases statement <;> rfl

@[simp] theorem aliasName?_cleanUp (statement : Statement) :
    statement.cleanUp.aliasName? = statement.aliasName? := by
  cases statement <;> rfl

theorem types_pruneModifiers (statement : Statement) :
    statement.pruneModifiers.types = statement.types := by
  cases statement <;> rfl

theorem types_renameWords (old new : String) (statement : Statement) :
    (statement.renameWords old new).types = statement.types := by
  cases statement <;> rfl

theorem renameWords_self (word : String) (statement : Statement) :
    statement.renameWords word word = statement := by
  cases statement with
  | verbatim statement => rw [renameWords, Verbatim.rename_self]
  | _ => rfl

theorem pruneModifiers_pruneModifiers (statement : Statement) :
    statement.pruneModifiers.pruneModifiers = statement.pruneModifiers := by
  cases statement with
  | verbatim => rfl
  | _ => simp only [pruneModifiers, List.filter_filter, Bool.and_self]

theorem pruneModifiers_renameWords (old new : String) (statement : Statement) :
    (statement.renameWords old new).pruneModifiers = statement.pruneModifiers.renameWords old new := by
  cases statement <;> rfl

theorem pruneModifiers_cleanUp (statement : Statement) :
    statement.cleanUp.pruneModifiers = statement.pruneModifiers.cleanUp := by
  cases statement with
  | interface decl =>
    rw [pruneModifiers, cleanUp_interface, cleanUp_interface, pruneModifiers]
  | _ => rfl

theorem renameAlias?_self {name : String} {statement renamed : Statement}
    (h : statement.renameAlias? name name = some renamed) : renamed = statement := by
  cases statement with
  | typeAlias decl =>
    rw [renameAlias?, Option.ite_none_right_eq_some] at h
    obtain ⟨rfl, h⟩ := h
    exact (Option.some.inj h).symm
  | _ => cases h

theorem renameAlias?_eq_none {old new : String} {statement : Statement}
    (h : statement.aliasName? ≠ some old) : statement.renameAlias? old new = none := by
  cases statement with
  | typeAlias decl => rw [renameAlias?, if_neg fun heq => h (by rw [aliasName?, heq])]
  | _ => rfl

theorem renameAlias?_of_aliasName? {old : String} (new : String) {statement : Statement}
    (h : statement.aliasName? = some old) :
    ∃ renamed, statement.renameAlias? old new = some renamed ∧ renamed.aliasName? = some new := by
  cases statement with
  | typeAlias decl =>
    rw [aliasName?, Option.some.injEq] at h
    exact ⟨_, by rw [renameAlias?, if_pos h], rfl⟩
  | _ => cases h

/-! ### Injecting -/

theorem inject?_eq_some_iff {property : InjectedProperty} {statement injected : Statement} :
    statement.inject? property = some injected ↔
      ∃ decl, statement = .interface decl ∧ decl.name = property.interface ∧
        injected = .interface (if decl.declares property.name then decl
          else { decl with members := property.member :: decl.members }) := by
  cases statement with
  | interface decl =>
    rw [inject?, Option.ite_none_right_eq_some]
    constructor
    · rintro ⟨hname, h⟩
      exact ⟨decl, rfl, hname, (Option.some.inj h).symm⟩
    · rintro ⟨_, heq, hname, rfl⟩
      cases heq
      exact ⟨hname, rfl⟩
  | typeAlias =>
    refine iff_of_false (by simp [inject?]) ?_
    rintro ⟨_, heq, _⟩
    cases heq
  | verbatim =>
    refine iff_of_false (by simp [inject?]) ?_
    rintro ⟨_, heq, _⟩
    cases heq

theorem declares_iff {decl : Interface} {name : String} :
    decl.declares name = true ↔ name ∈ decl.members.filterMap (·.propertyName?) := by
  rw [Interface.declares, List.any_eq_true, List.mem_filterMap]
  simp only [decide_eq_true_eq]

/-- An interface has the property once it has been injected. -/
theorem inject?_injected {property : InjectedProperty} {statement injected : Statement}
    (h : statement.inject? property = some injected) :
    injected.inject? property = some injected := by
  obtain ⟨decl, rfl, hname, rfl⟩ := inject?_eq_some_iff.mp h
  by_cases hdeclares : decl.declares property.name = true
  · rw [if_pos hdeclares]
    exact inject?_eq_some_iff.mpr ⟨decl, rfl, hname, by rw [if_pos hdeclares]⟩
  · rw [if_neg hdeclares]
    refine inject?_eq_some_iff.mpr ⟨_, rfl, hname, ?_⟩
    rw [if_pos]
    rw [declares_iff]
    exact List.mem_filterMap.mpr ⟨property.member, List.mem_cons_self, rfl⟩

/-- An interface stays as it is only if it has the property. -/
theorem declares_of_inject?_self {property : InjectedProperty} {decl : Interface}
    (h : (interface decl).inject? property = some (.interface decl)) :
    decl.name = property.interface ∧ decl.declares property.name = true := by
  obtain ⟨_, heq, hname, hself⟩ := inject?_eq_some_iff.mp h
  cases heq
  refine ⟨hname, ?_⟩
  cases hdeclares : decl.declares property.name with
  | true => rfl
  | false =>
    rw [hdeclares, if_neg (by simp), interface.injEq] at hself
    have := congrArg (fun decl => decl.members.length) hself
    simp at this

/-- Cleaning up an interface keeps the names of its properties. -/
theorem propertyNames_keptShape_map {f : TypeNode → TypeNode} (members : List TypeMember) :
    (keptShape members (members.map (·.mapTypes f))).filterMap (·.propertyName?) =
      members.filterMap (·.propertyName?) := by
  have hname : ∀ member : TypeMember, (member.mapTypes f).propertyName? = member.propertyName? := by
    intro member
    cases member <;> rfl
  rw [keptShape_map]
  split
  · simp only [List.filterMap_map, Function.comp_def, hname]
  · rw [List.filterMap_map, List.filterMap_filter]
    apply List.filterMap_congr
    intro member _
    rw [Function.comp_apply, hname]
    cases member with
    | property => rfl
    | index => simp [TypeMember.propertyName?]

theorem declares_cleanUp {decl cleaned : Interface}
    (h : (interface decl).cleanUp = .interface cleaned) (name : String) :
    cleaned.declares name = decl.declares name := by
  rw [cleanUp_interface, interface.injEq] at h
  rw [Bool.eq_iff_iff, declares_iff, declares_iff, ← h]
  have hnames : (rewrittenMembers decl.members).filterMap (·.propertyName?) =
      decl.members.filterMap (·.propertyName?) := by
    rw [rewrittenMembers, List.filterMap_map]
    apply List.filterMap_congr
    intro member _
    cases member <;> rfl
  rw [propertyNames_keptShape_map, hnames]

/-! ### Merging -/

theorem mergeUnions?_eq_some_iff {name : String} {statement merged : Statement} :
    statement.mergeUnions? name = some merged ↔
      ∃ decl, statement = .typeAlias decl ∧ decl.name = name ∧
        merged = .typeAlias { decl with type := decl.type.mergeUnions } := by
  cases statement with
  | typeAlias decl =>
    rw [mergeUnions?, Option.ite_none_right_eq_some]
    constructor
    · rintro ⟨hname, h⟩
      exact ⟨decl, rfl, hname, (Option.some.inj h).symm⟩
    · rintro ⟨_, heq, hname, rfl⟩
      cases heq
      exact ⟨hname, rfl⟩
  | interface =>
    refine iff_of_false (by simp [mergeUnions?]) ?_
    rintro ⟨_, heq, _⟩
    cases heq
  | verbatim =>
    refine iff_of_false (by simp [mergeUnions?]) ?_
    rintro ⟨_, heq, _⟩
    cases heq

/-- A merged alias has nothing more to merge. -/
theorem mergeUnions?_merged {name : String} {statement merged : Statement}
    (h : statement.mergeUnions? name = some merged) : merged.mergeUnions? name = some merged := by
  obtain ⟨decl, rfl, hname, rfl⟩ := mergeUnions?_eq_some_iff.mp h
  refine mergeUnions?_eq_some_iff.mpr ⟨_, rfl, hname, ?_⟩
  rw [TypeNode.mergeUnions_eq_self (TypeNode.everywhere_isNoUnion_mergeUnions decl.type)]

/-! ### Cleaning up -/

theorem inject?_cleanUp_none {property : InjectedProperty} {statement : Statement}
    (h : statement.inject? property = none) : statement.cleanUp.inject? property = none := by
  cases statement with
  | interface decl =>
    rw [inject?] at h
    rw [cleanUp_interface, inject?]
    split at h
    · cases h
    · rename_i hname
      exact if_neg hname
  | _ => rfl

theorem inject?_cleanUp_self {property : InjectedProperty} {statement : Statement}
    (h : statement.inject? property = some statement) :
    statement.cleanUp.inject? property = some statement.cleanUp := by
  obtain ⟨decl, rfl, _, _⟩ := inject?_eq_some_iff.mp h
  obtain ⟨hname, hdeclares⟩ := declares_of_inject?_self h
  have hcleaned := declares_cleanUp (cleanUp_interface decl) property.name
  rw [hdeclares] at hcleaned
  refine inject?_eq_some_iff.mpr ⟨_, cleanUp_interface decl, hname, ?_⟩
  rw [if_pos hcleaned, cleanUp_interface]

theorem mergeUnions?_cleanUp_none {name : String} {statement : Statement}
    (h : statement.mergeUnions? name = none) : statement.cleanUp.mergeUnions? name = none := by
  cases statement with
  | typeAlias decl =>
    rw [mergeUnions?] at h
    rw [cleanUp_typeAlias, mergeUnions?]
    split at h
    · cases h
    · rename_i hname
      exact if_neg hname
  | _ => rfl

theorem mergeUnions?_cleanUp_self {name : String} {statement : Statement}
    (h : statement.mergeUnions? name = some statement) :
    statement.cleanUp.mergeUnions? name = some statement.cleanUp := by
  obtain ⟨decl, rfl, hname, hself⟩ := mergeUnions?_eq_some_iff.mp h
  rw [typeAlias.injEq] at hself
  have hmerged : decl.type.mergeUnions = decl.type := (congrArg TypeAlias.type hself).symm
  have hclean := TypeNode.everywhere_isNoUnion_cleanUp
    (TypeNode.everywhere_isNoUnion_of_mergeUnions_eq_self hmerged)
  refine mergeUnions?_eq_some_iff.mpr ⟨_, cleanUp_typeAlias decl, hname, ?_⟩
  rw [TypeNode.mergeUnions_eq_self hclean, cleanUp_typeAlias]

end Statement

namespace SourceFile

theorem renameRoot_eq_ok_iff {file result : SourceFile} {new : String} {wanted : Option String} :
    file.renameRoot new wanted = .ok result ↔ isIdentifier new = true ∧
      ∃ old, file.rootName wanted = .ok old ∧ file.renameFrom old new = result := by
  rw [renameRoot]
  by_cases hvalid : isIdentifier new = true
  · rw [if_pos hvalid]
    cases hold : file.rootName wanted with
    | error =>
      constructor
      · intro h; cases h
      · rintro ⟨_, _, h, _⟩; cases h
    | ok old =>
      constructor
      · intro h
        exact ⟨hvalid, old, rfl, Except.ok.inj h⟩
      · rintro ⟨_, _, h, rfl⟩
        obtain rfl := Except.ok.inj h
        rfl
  · rw [if_neg hvalid]
    constructor
    · intro h; cases h
    · rintro ⟨h, _⟩; exact absurd h hvalid

end SourceFile

end Declutter
