import Declutter.Proofs.Clashes

/-!
# What an injected property does besides

A property is injected before the clean-up, and an unknown index signature goes where it has
company. So an interface that holds nothing else loses it to the property: `injectAlone` puts the
property in front and leaves the unknown index signatures out.

`transform_inject` says that this is all that an injected property does: everything else in the
result of the pipeline is what it is without it, and nothing more is refused. The result is the one
that injecting behind the pipeline gives if the interface, as the pipeline leaves it, has no
unknown index signature, and otherwise it is not.
-/

namespace Declutter

/-! ## Two updates of a list -/

section UpdateFirst

variable {α : Type} {f g : α → Option α}

/-- Updates that apply to different elements can be made in either order. -/
theorem updateFirst_comm (hf : ∀ a b, f a = some b → g a = none ∧ g b = none)
    (hg : ∀ a b, g a = some b → f a = none ∧ f b = none) (as : List α) :
    updateFirst f (updateFirst g as) = updateFirst g (updateFirst f as) := by
  induction as with
  | nil => rfl
  | cons a as ih =>
    cases hfa : f a with
    | some b =>
      obtain ⟨hga, hgb⟩ := hf a b hfa
      rw [updateFirst_cons_none hga, updateFirst_cons_some hfa, updateFirst_cons_some hfa,
        updateFirst_cons_none hgb]
    | none =>
      cases hga : g a with
      | some b =>
        rw [updateFirst_cons_some hga, updateFirst_cons_none hfa, updateFirst_cons_none (hg a b hga).2,
          updateFirst_cons_some hga]
      | none =>
        rw [updateFirst_cons_none hga, updateFirst_cons_none hfa, updateFirst_cons_none hfa,
          updateFirst_cons_none hga, ih]

/-- An update in front of a change is another one behind it. -/
theorem map_updateFirst_eq {change : α → α} (h : ∀ a, g (change a) = (f a).map change)
    (as : List α) : (updateFirst f as).map change = updateFirst g (as.map change) := by
  induction as with
  | nil => rfl
  | cons a as ih =>
    cases hfa : f a with
    | some b =>
      have hga : g (change a) = some (change b) := by rw [h, hfa, Option.map_some]
      rw [updateFirst_cons_some hfa, List.map_cons, List.map_cons, updateFirst_cons_some hga]
    | none =>
      have hga : g (change a) = none := by rw [h, hfa, Option.map_none]
      rw [updateFirst_cons_none hfa, List.map_cons, List.map_cons, updateFirst_cons_none hga, ih]

/-- Two updates of the same elements agree if they agree on the first one that they apply to. -/
theorem updateFirst_eq_updateFirst_iff {as : List α} (h : ∀ a, (f a).isSome = (g a).isSome) :
    updateFirst f as = updateFirst g as ↔ ∀ a ∈ as.find? fun a => (f a).isSome, f a = g a := by
  induction as with
  | nil => simp [updateFirst]
  | cons a as ih =>
    have hsome := h a
    cases hfa : f a with
    | some b =>
      rw [hfa, Option.isSome_some] at hsome
      obtain ⟨c, hga⟩ := Option.isSome_iff_exists.mp hsome.symm
      rw [updateFirst_cons_some hfa, updateFirst_cons_some hga, List.cons.injEq,
        List.find?_cons_of_pos (by rw [hfa]; rfl)]
      simp [hfa, hga]
    | none =>
      rw [hfa, Option.isSome_none] at hsome
      have hga : g a = none := by
        rw [← Option.not_isSome_iff_eq_none, ← hsome]
        simp
      rw [updateFirst_cons_none hfa, updateFirst_cons_none hga, List.cons.injEq,
        List.find?_cons_of_neg (by rw [hfa]; simp), ih]
      simp

end UpdateFirst

/-! ## Shapes -/

/-- A property has company in front of the members of any shape. -/
theorem keptShape_property (f : TypeMember → TypeMember) (signature : PropertySignature)
    (members : List TypeMember) :
    keptShape (.property signature :: members) ((TypeMember.property signature :: members).map f) =
      f (.property signature) :: (members.filter (!·.isUnknownStringIndex)).map f := by
  rw [keptShape_map, if_neg (by simp [TypeMember.isUnknownStringIndex]),
    List.filter_cons_of_pos (by simp [TypeMember.isUnknownStringIndex]), List.map_cons]

/-- What is left of a shape, but for unknown index signatures, is what no unknown index signature
was. -/
theorem filter_keptShape_map {f : TypeMember → TypeMember} {members : List TypeMember}
    (h : ∀ member ∈ members, (f member).isUnknownStringIndex = member.isUnknownStringIndex) :
    (keptShape members (members.map f)).filter (!·.isUnknownStringIndex) =
      (members.filter (!·.isUnknownStringIndex)).map f := by
  have hmap (kept : List TypeMember) (hkept : ∀ member ∈ kept, member ∈ members) :
      (kept.map f).filter (!·.isUnknownStringIndex) =
        (kept.filter (!·.isUnknownStringIndex)).map f := by
    rw [List.filter_map]
    congr 1
    refine List.filter_congr fun member hmem => ?_
    rw [Function.comp_apply, h member (hkept member hmem)]
  rw [keptShape_map]
  split
  · exact hmap members fun _ hmem => hmem
  · rw [hmap _ fun _ hmem => List.mem_of_mem_filter hmem, List.filter_filter]
    simp only [Bool.and_self]

/-! ## Statements -/

namespace Statement

/-- The interface a property is meant for, with the property in front of what is no unknown index
signature, unless it has a property of that name. -/
def injectAlone? (property : InjectedProperty) : Statement → Option Statement
  | .interface i =>
    if i.name = property.interface then
      some (.interface <| if i.declares property.name then i
        else { i with
          members := property.member :: i.members.filter (!·.isUnknownStringIndex) })
    else none
  | _ => none

theorem isSome_injectAlone? (property : InjectedProperty) (statement : Statement) :
    (statement.injectAlone? property).isSome = (statement.inject? property).isSome := by
  cases statement with
  | interface decl =>
    rw [injectAlone?, inject?]
    split <;> rfl
  | _ => rfl

/-- Injecting in front of the clean-up is injecting behind it, where no unknown index signature is
left in company. -/
theorem injectAlone?_cleanUp (property : InjectedProperty) (statement : Statement) :
    statement.cleanUp.injectAlone? property = (statement.inject? property).map cleanUp := by
  cases statement with
  | interface decl =>
    have hdeclares := declares_cleanUp (cleanUp_interface decl) property.name
    rw [inject?]
    by_cases hname : decl.name = property.interface
    · rw [if_pos hname, cleanUp_interface, injectAlone?, if_pos hname, hdeclares, Option.map_some]
      by_cases hdeclared : decl.declares property.name = true
      · rw [if_pos hdeclared, if_pos hdeclared, cleanUp_interface]
      · have hrewritten : rewrittenMembers (property.member :: decl.members) =
            property.member :: rewrittenMembers decl.members := rfl
        rw [if_neg hdeclared, if_neg hdeclared, cleanUp_interface, hrewritten]
        rw [filter_keptShape_map fun member _ =>
          TypeNode.isUnknownStringIndex_dropUnknownIndex member]
        rw [InjectedProperty.member, keptShape_property]
        rfl
    · rw [if_neg hname, cleanUp_interface, injectAlone?, if_neg hname, Option.map_none]
  | _ => rfl

/-- Only an interface is given a property. -/
theorem injectAlone?_eq_some {property : InjectedProperty} {statement injected : Statement}
    (h : statement.injectAlone? property = some injected) :
    ∃ decl given, statement = .interface decl ∧ injected = .interface given ∧
      given.name = decl.name ∧ ∀ type ∈ injected.types,
        type ∈ statement.types ∨ type = .stringLiteral property.value := by
  cases statement with
  | interface decl =>
    rw [injectAlone?, Option.ite_none_right_eq_some] at h
    obtain ⟨-, h⟩ := h
    cases h
    refine ⟨decl, _, rfl, rfl, ?_, ?_⟩
    · split <;> rfl
    · intro type htype
      split at htype
      · exact .inl htype
      · rcases List.mem_append.mp htype with hheritage | hmember
        · exact .inl (List.mem_append_left _ hheritage)
        · obtain ⟨member, hmem, htype⟩ := List.mem_flatMap.mp hmember
          rcases List.mem_cons.mp hmem with rfl | hmem
          · exact .inr (List.mem_singleton.mp htype)
          · exact .inl (List.mem_append_right _
              (List.mem_flatMap.mpr ⟨member, List.mem_of_mem_filter hmem, htype⟩))
  | _ => cases h

/-- A property that is injected is no fault, and a member that is left out takes none in. -/
theorem fault?_injectAlone? {before now : List String} {property : InjectedProperty}
    {statement injected : Statement} (h : statement.injectAlone? property = some injected)
    (hfault : statement.fault? before now = none) : injected.fault? before now = none := by
  obtain ⟨decl, given, rfl, rfl, -, htypes⟩ := injectAlone?_eq_some h
  rw [fault?_eq_none_iff (by simp)] at hfault ⊢
  intro type htype
  rcases htypes type htype with hold | rfl
  · exact hfault type hold
  · intro node hnode
    obtain rfl := List.mem_singleton.mp hnode
    rfl

/-- In a shape that has nothing to lose, a property takes the place of members exactly if there are
unknown index signatures. -/
theorem injectAlone?_eq_inject?_iff {property : InjectedProperty} {statement : Statement}
    (hgiven : (statement.inject? property).isSome = true) (hbody : StrippedShape statement.body) :
    statement.injectAlone? property = statement.inject? property ↔
      ∀ member ∈ statement.body, member.isUnknownStringIndex = false := by
  obtain ⟨injected, hinjected⟩ := Option.isSome_iff_exists.mp hgiven
  obtain ⟨decl, rfl, hname, rfl⟩ := inject?_eq_some_iff.mp hinjected
  rw [hinjected, injectAlone?, if_pos hname, Option.some.injEq, interface.injEq]
  by_cases hdeclared : decl.declares property.name = true
  · -- next to the property that is declared there is no unknown index signature
    rw [if_pos hdeclared, if_pos hdeclared]
    refine iff_of_true rfl ((strippedShape_iff.mp hbody).resolve_left fun hall => ?_)
    obtain ⟨member, hmem, hproperty⟩ := List.any_eq_true.mp hdeclared
    have hindex := List.all_eq_true.mp hall member hmem
    cases member with
    | property => cases hindex
    | index => simp [TypeMember.propertyName?] at hproperty
  · rw [if_neg hdeclared, if_neg hdeclared, Interface.mk.injEq]
    simp [body, List.filter_eq_self]

end Statement

/-! ## Files -/

namespace SourceFile

/-- A file whose first interface of a name has a property in front of what is no unknown index
signature, unless it has one of that name. -/
def injectAlone (file : SourceFile) (property : InjectedProperty) : SourceFile :=
  { file with statements := updateFirst (Statement.injectAlone? property) file.statements }

/-- The interface that a property is meant for. -/
def receiver? (file : SourceFile) (property : InjectedProperty) : Option Statement :=
  file.statements.find? fun statement => (statement.inject? property).isSome

theorem cleanUp_injectProperty (file : SourceFile) (property : InjectedProperty) :
    (file.injectProperty property).cleanUp = file.cleanUp.injectAlone property := by
  rw [cleanUp_eq, cleanUp_eq, injectProperty, injectAlone,
    map_updateFirst_eq (Statement.injectAlone?_cleanUp property)]

theorem mergeAsked_injectProperty (file : SourceFile) (options : Options)
    (property : InjectedProperty) :
    (file.injectProperty property).mergeAsked options =
      (file.mergeAsked options).injectProperty property := by
  unfold mergeAsked
  split
  · have hmerge (statement merged : Statement)
        (h : statement.mergeUnions? options.rootName = some merged) :
        statement.inject? property = none ∧ merged.inject? property = none := by
      obtain ⟨decl, rfl, -, rfl⟩ := Statement.mergeUnions?_eq_some_iff.mp h
      exact ⟨rfl, rfl⟩
    have hinject (statement injected : Statement) (h : statement.inject? property = some injected) :
        statement.mergeUnions? options.rootName = none ∧
          injected.mergeUnions? options.rootName = none := by
      obtain ⟨decl, rfl, -, rfl⟩ := Statement.inject?_eq_some_iff.mp h
      exact ⟨rfl, rfl⟩
    simp only [mergeRootUnions, injectProperty, updateFirst_comm hmerge hinject]
  · rfl

/-- A file that has been accepted is accepted with a property injected. -/
theorem check_injectAlone {file : SourceFile} {before : List String}
    (property : InjectedProperty) (h : file.check before = .ok ()) :
    (file.injectAlone property).check before = .ok () := by
  have hnames : (file.injectAlone property).statements.map (·.name?) =
      file.statements.map (·.name?) := by
    refine map_updateFirst (fun statement injected hinjected => ?_) file.statements
    obtain ⟨decl, given, rfl, rfl, hname, -⟩ := Statement.injectAlone?_eq_some hinjected
    exact congrArg some hname
  have hdeclared : (file.injectAlone property).statements.map (·.declaredName?) =
      file.statements.map (·.declaredName?) := by
    refine map_updateFirst (fun statement injected hinjected => ?_) file.statements
    obtain ⟨decl, given, rfl, rfl, hname, -⟩ := Statement.injectAlone?_eq_some hinjected
    exact congrArg some hname
  rw [check_eq_ok_iff] at h
  rw [check_eq_ok_iff_of_names hnames hdeclared]
  refine ⟨h.1, fun statement hmem => ?_⟩
  rcases mem_updateFirst hmem with hmem | ⟨old, hmem, hinjected⟩
  · exact h.2 statement hmem
  · exact Statement.fault?_injectAlone? hinjected (h.2 old hmem)

/-- Where a file has been cleaned up, a property takes the place of members exactly if the interface
that it is meant for has unknown index signatures. -/
theorem injectAlone_cleanUp_eq_iff (file : SourceFile) (property : InjectedProperty) :
    file.cleanUp.injectAlone property = file.cleanUp.injectProperty property ↔
      ∀ statement ∈ file.cleanUp.receiver? property, ∀ member ∈ statement.body,
        member.isUnknownStringIndex = false := by
  have hiff : file.cleanUp.injectAlone property = file.cleanUp.injectProperty property ↔
      ∀ statement ∈ file.cleanUp.receiver? property,
        statement.injectAlone? property = statement.inject? property := by
    have hsome (statement : Statement) : (statement.inject? property).isSome =
        (statement.injectAlone? property).isSome := (statement.isSome_injectAlone? property).symm
    rw [injectAlone, injectProperty, SourceFile.mk.injEq, and_iff_left rfl, eq_comm,
      updateFirst_eq_updateFirst_iff hsome]
    exact forall₂_congr fun statement _ => eq_comm
  rw [hiff]
  refine forall₂_congr fun statement hreceiver => ?_
  have hmem := List.mem_of_find?_eq_some hreceiver
  rw [statements_cleanUp] at hmem
  obtain ⟨old, -, rfl⟩ := List.mem_map.mp hmem
  have hgiven := List.find?_some hreceiver
  exact Statement.injectAlone?_eq_inject?_iff hgiven (Statement.strippedShape_body_cleanUp old)

/-- An injected property is all that is new in the result of the pipeline, and of what is there
without it only unknown index signatures can be missing, in the interface that has the property now.
So the result is that of injecting behind the pipeline exactly if that interface has none. -/
theorem transform_injectProperty {file result : SourceFile} {options : Options}
    (property : InjectedProperty) (hnone : options.injectProperty = none)
    (h : file.transform options = .ok result) :
    file.transform { options with injectProperty := some property } =
        .ok (result.injectAlone property) ∧
      (result.injectAlone property = result.injectProperty property ↔
        ∀ statement ∈ result.receiver? property, ∀ member ∈ statement.body,
          member.isUnknownStringIndex = false) := by
  obtain ⟨rooted, happly, rfl, hcheck⟩ := transform_eq_ok_iff.mp h
  obtain ⟨hvalid, old, hold, hrooted⟩ := applyRoot_eq_ok_iff.mp happly
  refine ⟨?_, injectAlone_cleanUp_eq_iff rooted property⟩
  have hinjected : file.applyRoot { options with injectProperty := some property } =
      .ok (rooted.injectProperty property) := by
    refine applyRoot_eq_ok_iff.mpr ⟨hvalid, old, hold, ?_⟩
    rw [← hrooted, show (file.renameFrom old options.rootName).injectAsked options =
      file.renameFrom old options.rootName by rw [injectAsked, hnone]]
    exact mergeAsked_injectProperty _ options property
  exact transform_eq_ok_iff.mpr ⟨_, hinjected, cleanUp_injectProperty rooted property,
    check_injectAlone property hcheck⟩

/-- `type name = N;` and `interface N { [k: string]: unknown; }` -/
def openOnly (name : String) : SourceFile :=
  ⟨[.typeAlias ⟨[], [], name, .named "N"⟩,
    .interface ⟨[], [], "N", [], [.index ⟨[], false, "k", .keyword .string, .keyword .unknown⟩]⟩],
    []⟩

/-- An interface that is open to any member is closed by the property that it is given. -/
theorem transform_injectProperty_openOnly :
    ({} : Options).injectProperty = none ∧
      (openOnly "A").transform {} = .ok (openOnly "Tsconfig") ∧
      (openOnly "A").transform askForKind =
        .ok ((openOnly "Tsconfig").injectAlone ⟨"N", "kind", "n"⟩) ∧
      ((openOnly "Tsconfig").injectAlone ⟨"N", "kind", "n"⟩ =
          (openOnly "Tsconfig").injectProperty ⟨"N", "kind", "n"⟩ ↔
        ∀ statement ∈ (openOnly "Tsconfig").receiver? ⟨"N", "kind", "n"⟩,
          ∀ member ∈ statement.body, member.isUnknownStringIndex = false) :=
  have h : (openOnly "A").transform {} = .ok (openOnly "Tsconfig") := rfl
  ⟨rfl, h, transform_injectProperty ⟨"N", "kind", "n"⟩ rfl h⟩

/-- To inject behind the pipeline would leave such an interface open. -/
theorem exists_transform_ne_injectProperty :
    ∃ (file result : SourceFile) (options : Options) (property : InjectedProperty),
      options.injectProperty = none ∧ file.transform options = .ok result ∧
        file.transform { options with injectProperty := some property } ≠
          .ok (result.injectProperty property) :=
  ⟨openOnly "A", openOnly "Tsconfig", {}, ⟨"N", "kind", "n"⟩, rfl, rfl, nofun⟩

end SourceFile

end Declutter
