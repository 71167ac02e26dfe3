import Declutter.Proofs.CleanUp
import Mathlib.Data.List.Forall2

/-!
# What is left of shapes

The shapes of a file are its interface bodies and its type literals. `dropUnknownIndex` takes
members out of them and never a whole shape: what it drops is an unknown index signature, and no
shape stands in one. So the shapes before and after correspond one to one, in the order of a walk,
and each new shape is what is left of the old one: `shapes_dropUnknownIndex`.
-/

namespace Declutter

/-! ## Listing the shapes -/

namespace TypeNode

/-- The members of a node, if it is a type literal. -/
def shape? : TypeNode → Option (List TypeMember)
  | .typeLiteral members => some members
  | _ => none

/-- The type literals of a type, in the order in which its nodes are visited. -/
def shapes (node : TypeNode) : List (List TypeMember) := node.visit.filterMap shape?

theorem shapes_eq (node : TypeNode) :
    node.shapes = node.shape?.toList ++ node.children.flatMap shapes := filterMap_visit shape? node

theorem mem_shapes_iff {node : TypeNode} {shape : List TypeMember} :
    shape ∈ node.shapes ↔ TypeNode.typeLiteral shape ∈ node.visit := by
  unfold shapes
  rw [List.mem_filterMap]
  constructor
  · intro h
    obtain ⟨n, hn, hshape⟩ := h
    cases n with
    | typeLiteral members =>
      rw [shape?, Option.some.injEq] at hshape
      rwa [← hshape]
    | _ => cases hshape
  · intro h
    exact ⟨_, h, rfl⟩

/-- Below a type literal stand the type literals of its members' types. -/
theorem shapes_typeLiteral (members : List TypeMember) :
    (typeLiteral members).shapes = members :: members.flatMap (·.types.flatMap shapes) := by
  rw [shapes_eq, children, List.flatMap_assoc]
  rfl

@[simp] theorem shapes_parenthesized (inner : TypeNode) :
    (parenthesized inner).shapes = inner.shapes := by
  rw [shapes_eq]
  simp [shape?, children]

@[simp] theorem shapes_reparenthesize (old new : TypeNode) :
    (reparenthesize old new).shapes = new.shapes := by
  rcases reparenthesize_cases old new with heq | heq <;> simp [heq]

/-- The type literals of a node that is none itself are those of its children. -/
theorem shapes_of_ne_typeLiteral {node : TypeNode} (h : ∀ members, node ≠ .typeLiteral members) :
    node.shapes = node.children.flatMap shapes := by
  rw [shapes_eq]
  cases node with
  | typeLiteral members => exact absurd rfl (h members)
  | _ => rfl

theorem shapes_mapChildren {f : TypeNode → TypeNode} {node : TypeNode}
    (h : ∀ members, node ≠ .typeLiteral members) :
    (node.mapChildren f).shapes = node.children.flatMap fun child => (f child).shapes := by
  cases node with
  | typeLiteral members => exact absurd rfl (h members)
  | parenthesized inner =>
    rw [mapChildren, shapes_reparenthesize]
    simp [children]
  | _ =>
    rw [shapes_of_ne_typeLiteral (by simp [mapChildren])]
    simp [mapChildren, children, List.flatMap_map]

end TypeNode

namespace Statement

/-- The interface body, if the statement is an interface, and the type literals of a statement. -/
def shapes : Statement → List (List TypeMember)
  | .interface decl =>
    decl.members :: (interface decl).types.flatMap TypeNode.shapes
  | statement => statement.types.flatMap TypeNode.shapes

end Statement

/-- The interface bodies and the type literals of a file, in file order. -/
def SourceFile.shapes (file : SourceFile) : List (List TypeMember) :=
  file.statements.flatMap (·.shapes)

/-! ## Stripped shapes -/

/-- Among the nodes of a type, only its shapes can fail to be stripped. -/
theorem TypeNode.everywhere_stripped_iff {node : TypeNode} :
    Everywhere Stripped node ↔ ∀ shape ∈ node.shapes, StrippedShape shape := by
  constructor
  · intro h shape hshape
    rw [← stripped_typeLiteral_iff]
    exact h _ (mem_shapes_iff.mp hshape)
  · intro h n hn
    by_cases hshape : ∃ members, n = .typeLiteral members
    · obtain ⟨members, rfl⟩ := hshape
      rw [stripped_typeLiteral_iff]
      exact h members (mem_shapes_iff.mpr hn)
    · exact stripped_of_ne_typeLiteral fun members heq => hshape ⟨members, heq⟩

/-- The shapes of a statement are its body and the shapes of its types. -/
theorem Statement.forall_mem_shapes_iff {statement : Statement} :
    (∀ shape ∈ statement.shapes, StrippedShape shape) ↔ StrippedShape statement.body ∧
      ∀ type ∈ statement.types, TypeNode.Everywhere TypeNode.Stripped type := by
  have htypes : (∀ shape ∈ statement.types.flatMap TypeNode.shapes, StrippedShape shape) ↔
      ∀ type ∈ statement.types, TypeNode.Everywhere TypeNode.Stripped type := by
    simp only [TypeNode.everywhere_stripped_iff, List.mem_flatMap]
    constructor
    · intro h type htype shape hshape
      exact h shape ⟨type, htype, hshape⟩
    · rintro h shape ⟨type, htype, hshape⟩
      exact h type htype shape hshape
  -- only an interface has a body; that of any other statement is empty
  have hnil : StrippedShape [] := strippedShape_iff.mpr (.inl rfl)
  cases statement with
  | interface decl => rw [← htypes, shapes, List.forall_mem_cons, body]
  | typeAlias => exact htypes.trans (and_iff_right hnil).symm
  | verbatim => exact htypes.trans (and_iff_right hnil).symm

/-- The shapes of a file are the bodies of its statements and the shapes of its types. -/
theorem SourceFile.forall_mem_shapes_iff {file : SourceFile} :
    (∀ shape ∈ file.shapes, StrippedShape shape) ↔
      ∀ statement ∈ file.statements, StrippedShape statement.body ∧
        ∀ type ∈ statement.types, TypeNode.Everywhere TypeNode.Stripped type := by
  simp only [← Statement.forall_mem_shapes_iff, shapes, List.mem_flatMap]
  constructor
  · intro h statement hmem shape hshape
    exact h shape ⟨statement, hmem, hshape⟩
  · rintro h shape ⟨statement, hmem, hshape⟩
    exact h statement hmem shape hshape

/-! ## What is left of a shape -/

/-- What a shape becomes when it loses unknown index signatures: some of its members stay, in
their order and with the types in them rewritten. No other member is lost, and not all are. -/
structure Thinned (before after : List TypeMember) : Prop where
  exists_stay : ∃ stay : List TypeMember, stay.Sublist before ∧
    stay.filter (!·.isUnknownStringIndex) = before.filter (!·.isUnknownStringIndex) ∧
    after = stay.map (·.mapTypes TypeNode.dropUnknownIndex)
  nonempty : before ≠ [] → after ≠ []

/-- The members that stay of a shape. -/
def staying (members : List TypeMember) : List TypeMember :=
  if members.all (·.isUnknownStringIndex) then members
  else members.filter (!·.isUnknownStringIndex)

theorem keptShape_map_eq_map_staying (f : TypeMember → TypeMember) (members : List TypeMember) :
    keptShape members (members.map f) = (staying members).map f := by
  rw [keptShape_map]
  unfold staying
  split <;> rfl

theorem staying_ne_nil {members : List TypeMember} (h : members ≠ []) : staying members ≠ [] := by
  unfold staying
  split
  · exact h
  · rename_i hall
    intro hnil
    rw [List.filter_eq_nil_iff] at hnil
    apply hall
    rw [List.all_eq_true]
    intro member hmem
    simpa using hnil member hmem

theorem thinned_keptShape (members : List TypeMember) :
    Thinned members (keptShape members (members.map (·.mapTypes TypeNode.dropUnknownIndex))) := by
  rw [keptShape_map_eq_map_staying]
  constructor
  · refine ⟨staying members, ?_, ?_, rfl⟩
    · unfold staying
      split
      · exact List.Sublist.refl _
      · exact List.filter_sublist
    · unfold staying
      split
      · rfl
      · simp only [List.filter_filter, Bool.and_self]
  · intro hne hnil
    exact staying_ne_nil hne (List.map_eq_nil_iff.mp hnil)

/-- Where unknown index signatures have nothing, what the members that stay have is all there is. -/
theorem flatMap_staying {α : Type} {g : TypeMember → List α}
    (h : ∀ member, member.isUnknownStringIndex = true → g member = [])
    (members : List TypeMember) : (staying members).flatMap g = members.flatMap g := by
  have hfilter : (members.filter (!·.isUnknownStringIndex)).flatMap g = members.flatMap g := by
    induction members with
    | nil => rfl
    | cons member members ih =>
      rw [List.filter_cons, List.flatMap_cons, ← ih]
      by_cases hindex : member.isUnknownStringIndex = true
      · rw [if_neg (by simp [hindex]), h member hindex, List.nil_append]
      · rw [if_pos (by simp [hindex]), List.flatMap_cons]
  unfold staying
  split
  · rfl
  · exact hfilter

theorem forall₂_flatMap {α β : Type} {R : β → β → Prop} {f g : α → List β} {as : List α}
    (h : ∀ a ∈ as, List.Forall₂ R (f a) (g a)) :
    List.Forall₂ R (as.flatMap f) (as.flatMap g) := by
  induction as with
  | nil => exact .nil
  | cons a as ih =>
    rw [List.flatMap_cons, List.flatMap_cons]
    apply List.rel_append
    · exact h a List.mem_cons_self
    · exact ih fun other hmem => h other (List.mem_cons_of_mem a hmem)

/-- The shapes below a thinned shape are those below the old one, each thinned. -/
theorem forall₂_shapes_keptShape {members : List TypeMember}
    (h : ∀ type ∈ members.flatMap (·.types),
      List.Forall₂ Thinned type.shapes type.dropUnknownIndex.shapes) :
    List.Forall₂ Thinned (members.flatMap (·.types.flatMap TypeNode.shapes))
      ((keptShape members (members.map (·.mapTypes TypeNode.dropUnknownIndex))).flatMap
        (·.types.flatMap TypeNode.shapes)) := by
  rw [keptShape_map_eq_map_staying, List.flatMap_map]
  simp only [TypeNode.types_mapTypes, List.flatMap_map]
  -- no shape stands in an unknown index signature, before or after
  rw [flatMap_staying]
  · apply forall₂_flatMap
    intro member hmem
    apply forall₂_flatMap
    intro type htype
    exact h type (List.mem_flatMap.mpr ⟨member, hmem, htype⟩)
  · intro member hindex
    rw [TypeNode.types_of_isUnknownStringIndex hindex]
    rfl

/-- Dropping unknown index signatures thins each shape of a type and loses none. -/
theorem TypeNode.shapes_dropUnknownIndex (node : TypeNode) :
    List.Forall₂ Thinned node.shapes node.dropUnknownIndex.shapes := by
  induction node using inductionOn with
  | step node ih =>
    by_cases hshape : ∃ members, node = .typeLiteral members
    · obtain ⟨members, rfl⟩ := hshape
      rw [dropUnknownIndex_typeLiteral, shapes_typeLiteral, shapes_typeLiteral]
      apply List.Forall₂.cons
      · exact thinned_keptShape members
      · exact forall₂_shapes_keptShape ih
    · have hne : ∀ members, node ≠ .typeLiteral members := fun members h => hshape ⟨members, h⟩
      rw [dropUnknownIndex_of_ne_typeLiteral hne, shapes_mapChildren hne,
        shapes_of_ne_typeLiteral hne]
      exact forall₂_flatMap ih

theorem Statement.shapes_dropUnknownIndex (statement : Statement) :
    List.Forall₂ Thinned statement.shapes statement.dropUnknownIndex.shapes := by
  cases statement with
  | typeAlias decl =>
    show List.Forall₂ Thinned ([decl.type].flatMap TypeNode.shapes)
      ([decl.type.dropUnknownIndex].flatMap TypeNode.shapes)
    rw [List.flatMap_singleton, List.flatMap_singleton]
    exact decl.type.shapes_dropUnknownIndex
  | interface decl =>
    unfold dropUnknownIndex shapes types
    simp only [List.flatMap_append, List.flatMap_assoc, List.flatMap_map]
    apply List.Forall₂.cons
    · exact thinned_keptShape decl.members
    · apply List.rel_append
      · exact forall₂_flatMap fun type _ => type.shapes_dropUnknownIndex
      · exact forall₂_shapes_keptShape fun type _ => type.shapes_dropUnknownIndex
  | verbatim => exact .nil

/-! ## Files -/

namespace SourceFile

/-- Dropping unknown index signatures thins each shape of a file and loses none. -/
theorem shapes_dropUnknownIndex (file : SourceFile) :
    List.Forall₂ Thinned file.shapes file.dropUnknownIndex.shapes := by
  unfold shapes dropUnknownIndex
  rw [List.flatMap_map]
  exact forall₂_flatMap fun statement _ => statement.shapes_dropUnknownIndex

/-- The shapes of a transformed file have nothing more to lose. -/
theorem strippedShape_of_transform {file result : SourceFile} {options : Options}
    (h : file.transform options = .ok result) : ∀ shape ∈ result.shapes, StrippedShape shape := by
  obtain ⟨rooted, _, rfl, _⟩ := transform_eq_ok_iff.mp h
  rw [forall_mem_shapes_iff]
  intro statement hmem
  constructor
  · rw [statements_cleanUp] at hmem
    obtain ⟨old, _, rfl⟩ := List.mem_map.mp hmem
    exact old.strippedShape_body_cleanUp
  · intro type htype
    exact (clean_of_mem_cleanUp hmem htype).stripped

/-- A shape with several members, in a transformed file, has no unknown index signature or has
nothing else; and dropping unknown index signatures empties no shape of any file: of every shape,
some members stay in their order, all others than unknown index signatures among them. -/
theorem shapes_thinned (file : SourceFile) :
    (∀ options result, file.transform options = .ok result → ∀ shape ∈ result.shapes,
      1 < shape.length → (∀ member ∈ shape, member.isUnknownStringIndex = false) ∨
        ∀ member ∈ shape, member.isUnknownStringIndex = true) ∧
    List.Forall₂ Thinned file.shapes file.dropUnknownIndex.shapes := by
  constructor
  · intro options result h shape hshape _
    rcases strippedShape_iff.mp (strippedShape_of_transform h shape hshape) with hall | hnone
    · exact .inr (List.all_eq_true.mp hall)
    · exact .inl hnone
  · exact file.shapes_dropUnknownIndex

/-- `interface N { [k: string]: unknown | { [j: string]: unknown }; x: { [k: string]: unknown };
y: any }` and `type Root = N;` -/
def unknownLate : SourceFile :=
  ⟨[.interface ⟨[], [.exported], "N", [],
      [.index ⟨[], false, "k", .keyword .string, .union [.keyword .unknown,
        .typeLiteral [.index ⟨[], false, "j", .keyword .string, .keyword .unknown⟩]]⟩,
      .property ⟨[], false, "x", false,
        .typeLiteral [.index ⟨[], false, "k", .keyword .string, .keyword .unknown⟩]⟩,
      .property ⟨[], false, "y", false, .keyword .any⟩]⟩,
    .typeAlias ⟨[], [.exported], "Root", .named "N"⟩], []⟩

/-- `interface N { x: { [k: string]: unknown }; y: any }` and `type Tsconfig = N;` -/
def unknownGone : SourceFile :=
  ⟨[.interface ⟨[], [.exported], "N", [],
      [.property ⟨[], false, "x", false,
        .typeLiteral [.index ⟨[], false, "k", .keyword .string, .keyword .unknown⟩]⟩,
      .property ⟨[], false, "y", false, .keyword .any⟩]⟩,
    .typeAlias ⟨[], [.exported], "Tsconfig", .named "N"⟩], []⟩

/-- The index signature of the interface here is unknown only once the record in it is gone. -/
theorem shapes_unknownLate :
    unknownLate.transform {} = .ok unknownGone ∧
      (∀ shape ∈ unknownGone.shapes, 1 < shape.length →
        (∀ member ∈ shape, member.isUnknownStringIndex = false) ∨
          ∀ member ∈ shape, member.isUnknownStringIndex = true) ∧
      List.Forall₂ Thinned unknownLate.shapes unknownLate.dropUnknownIndex.shapes :=
  have h : unknownLate.transform {} = .ok unknownGone := rfl
  ⟨h, (shapes_thinned unknownLate).1 {} unknownGone h, (shapes_thinned unknownLate).2⟩

end SourceFile

end Declutter
