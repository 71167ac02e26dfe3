import Declutter.Proofs.CleanUp
import Mathlib.Data.List.Basic

/-!
# What cleaning up keeps

The trace of a type is what a reader would miss: the properties of its shapes, its literals, the
names it refers to, arrays, tuple positions and the words of the language. The words `string` and
`unknown` are not part of it, nor are index signatures, parentheses and the way in which members
are combined; these are what the rewritings may take away.

Dropping something whose trace is empty keeps the trace, and so does replacing the children of a
node by types of the same trace. `trace_rewrite` makes one induction of these two. The three
rewritings follow, and from types the fact is carried to statements and files:
`outline_and_trace_cleanUp`.
-/

namespace Declutter

/-! ## Traces -/

/-- A piece of a type that no rewriting may lose. -/
inductive Mark where
  | property (leadingComments : List String) (readonly : Bool) (name : String) (optional : Bool)
  | literal (value : Literal)
  | reference (name : String)
  | array
  | element (optional rest : Bool)
  | keyword (word : Keyword)
  deriving DecidableEq, Repr

namespace TypeNode

mutual

/-- The marks of a type, in document order. -/
def trace : TypeNode → List Mark
  | .keyword word => if word = .string ∨ word = .unknown then [] else [.keyword word]
  | .literal value => [.literal value]
  | .reference name arguments => .reference name :: traceList arguments
  | .array element => element.trace ++ [.array]
  | .tuple elements => traceElements elements
  | .union members | .intersection members => traceList members
  | .parenthesized inner => inner.trace
  | .typeLiteral members => traceMembers members

def traceList : List TypeNode → List Mark
  | [] => []
  | node :: nodes => node.trace ++ traceList nodes

def traceElements : List TupleElement → List Mark
  | [] => []
  | ⟨type, optional, rest⟩ :: elements =>
    .element optional rest :: (type.trace ++ traceElements elements)

def traceMembers : List TypeMember → List Mark
  | [] => []
  | .property ⟨comments, readonly, name, optional, type⟩ :: members =>
    .property comments readonly name optional :: (type.trace ++ traceMembers members)
  | .index ⟨_, _, _, key, value⟩ :: members =>
    key.trace ++ (value.trace ++ traceMembers members)

end

theorem traceList_eq (nodes : List TypeNode) : traceList nodes = nodes.flatMap trace := by
  induction nodes with
  | nil => rfl
  | cons node nodes ih =>
    show node.trace ++ traceList nodes = _
    rw [ih, List.flatMap_cons]

/-- A tuple position and the trace of its type. -/
def elementTrace (element : TupleElement) : List Mark :=
  .element element.optional element.rest :: element.type.trace

theorem traceElements_eq (elements : List TupleElement) :
    traceElements elements = elements.flatMap elementTrace := by
  induction elements with
  | nil => rfl
  | cons element elements ih =>
    obtain ⟨_, _, _⟩ := element
    rw [List.flatMap_cons, ← ih]
    rfl

end TypeNode

/-- The marks of a member, in document order. -/
def TypeMember.trace : TypeMember → List Mark
  | .property p => .property p.leadingComments p.readonly p.name p.optional :: p.type.trace
  | .index i => i.key.trace ++ i.value.trace

namespace TypeNode

theorem traceMembers_eq (members : List TypeMember) :
    traceMembers members = members.flatMap TypeMember.trace := by
  induction members with
  | nil => rfl
  | cons member members ih =>
    rw [List.flatMap_cons, ← ih]
    obtain ⟨_, _, _, _, _⟩ | ⟨_, _, _, _, _⟩ := member
    · rfl
    · exact (List.append_assoc _ _ _).symm

@[simp] theorem trace_reference (name : String) (arguments : List TypeNode) :
    (reference name arguments).trace = .reference name :: arguments.flatMap trace :=
  congrArg (Mark.reference name :: ·) (traceList_eq arguments)

@[simp] theorem trace_tuple (elements : List TupleElement) :
    (tuple elements).trace = elements.flatMap elementTrace := traceElements_eq elements

@[simp] theorem trace_node (kind : Compound) (members : List TypeNode) :
    (kind.node members).trace = members.flatMap trace := by
  cases kind <;> exact traceList_eq members

@[simp] theorem trace_parenthesized (inner : TypeNode) :
    (parenthesized inner).trace = inner.trace := rfl

@[simp] theorem trace_typeLiteral (members : List TypeMember) :
    (typeLiteral members).trace = members.flatMap TypeMember.trace := traceMembers_eq members

@[simp] theorem trace_collapse (kind : Compound) (members : List TypeNode) :
    (kind.collapse members).trace = members.flatMap trace := by
  rcases kind.collapse_cases members with ⟨member, rfl, heq⟩ | ⟨_, heq⟩
  · rw [heq, List.flatMap_cons, List.flatMap_nil, List.append_nil]
  · rw [heq, trace_node]

@[simp] theorem trace_reparenthesize (old new : TypeNode) :
    (reparenthesize old new).trace = new.trace := by
  rcases reparenthesize_cases old new with heq | heq <;> simp [heq]

end TypeNode

/-! ## Lists of pieces -/

/-- Dropping elements that contribute nothing changes nothing. -/
theorem flatMap_filter_eq {α β : Type} {f : α → List β} {p : α → Bool} {as : List α}
    (h : ∀ a ∈ as, p a = false → f a = []) : (as.filter p).flatMap f = as.flatMap f := by
  induction as with
  | nil => rfl
  | cons a as ih =>
    have hrest := ih fun b hb => h b (List.mem_cons_of_mem _ hb)
    by_cases ha : p a = true
    · rw [List.filter_cons_of_pos ha, List.flatMap_cons, List.flatMap_cons, hrest]
    · rw [List.filter_cons_of_neg ha, List.flatMap_cons, hrest,
        h a List.mem_cons_self (Bool.eq_false_iff.mpr ha), List.nil_append]

theorem flatMap_map_congr {α β : Type} {f : α → α} {g : α → List β} {as : List α}
    (h : ∀ a ∈ as, g (f a) = g a) : (as.map f).flatMap g = as.flatMap g := by
  rw [List.flatMap_map]
  exact List.flatMap_congr h

/-! ## What has no trace -/

namespace TypeNode

theorem trace_of_isWideString {node : TypeNode} (h : node.isWideString = true) :
    node.trace = [] := by
  induction node using inductionOn with
  | step node ih =>
    cases node with
    | parenthesized inner =>
      rw [isWideString_parenthesized] at h
      rw [trace_parenthesized]
      exact ih inner (by simp [children]) h
    | keyword word =>
      have hword : word = .string := by simpa [isWideString, isKeyword] using h
      rw [hword, trace, if_pos (.inl rfl)]
    | _ => simp [isWideString, isKeyword] at h

end TypeNode

theorem TypeMember.trace_of_isUnknownStringIndex {member : TypeMember}
    (h : member.isUnknownStringIndex = true) : member.trace = [] := by
  have htypes := TypeNode.types_of_isUnknownStringIndex h
  cases member with
  | property => simp [TypeMember.isUnknownStringIndex] at h
  | index signature =>
    rw [TypeMember.types, List.cons.injEq, List.cons.injEq] at htypes
    rw [TypeMember.trace, htypes.1, htypes.2.1]
    simp [TypeNode.trace]

namespace TypeNode

theorem trace_of_isUnknownRecord {node : TypeNode} (h : node.isUnknownRecord = true) :
    node.trace = [] := by
  obtain ⟨member, rfl, hindex⟩ := eq_typeLiteral_of_isUnknownRecord h
  rw [trace_typeLiteral, List.flatMap_cons, TypeMember.trace_of_isUnknownStringIndex hindex]
  rfl

/-! ## Rewriting -/

theorem trace_mapTypes {f : TypeNode → TypeNode} {member : TypeMember}
    (h : ∀ type ∈ member.types, (f type).trace = type.trace) :
    (member.mapTypes f).trace = member.trace := by
  cases member with
  | property p =>
    have htype := h p.type (by simp [TypeMember.types])
    simp only [TypeMember.mapTypes, TypeMember.trace, htype]
  | index i =>
    have hkey := h i.key (by simp [TypeMember.types])
    have hvalue := h i.value (by simp [TypeMember.types])
    simp only [TypeMember.mapTypes, TypeMember.trace, hkey, hvalue]

/-- Replacing children by some of the same trace. -/
theorem trace_mapChildren {f : TypeNode → TypeNode} {node : TypeNode}
    (h : ∀ child ∈ node.children, (f child).trace = child.trace) :
    (node.mapChildren f).trace = node.trace := by
  by_cases hcompound : node.isCompound = true
  · obtain ⟨kind, members, rfl⟩ := exists_compound hcompound
    rw [Compound.mapChildren_node, trace_node, trace_node]
    exact flatMap_map_congr (by simpa using h)
  · cases node with
    | keyword => rfl
    | literal => rfl
    | reference name arguments =>
      have harguments : ∀ a ∈ arguments, (f a).trace = a.trace := h
      rw [mapChildren, trace_reference, trace_reference, flatMap_map_congr harguments]
    | array element => rw [mapChildren, trace, trace, h element (by simp [children])]
    | tuple elements =>
      rw [mapChildren, trace_tuple, trace_tuple]
      refine flatMap_map_congr fun element hmem => ?_
      rw [elementTrace, elementTrace, h element.type (List.mem_map_of_mem hmem)]
    | union => simp [isCompound] at hcompound
    | intersection => simp [isCompound] at hcompound
    | parenthesized inner =>
      rw [mapChildren, trace_reparenthesize, trace_parenthesized]
      exact h inner (by simp [children])
    | typeLiteral members =>
      rw [mapChildren, trace_typeLiteral, trace_typeLiteral]
      refine flatMap_map_congr fun member hmem => trace_mapTypes fun type htype => ?_
      exact h type (List.mem_flatMap.mpr ⟨member, hmem, htype⟩)

/-- A rule keeps the trace of every type if it keeps that of a node whose children are done. -/
theorem trace_rewrite {rule : TypeNode → TypeNode → TypeNode}
    (hrule : ∀ node f, (∀ child ∈ node.children, (f child).trace = child.trace) →
      (rule node (node.mapChildren f)).trace = (node.mapChildren f).trace) (node : TypeNode) :
    (node.rewrite rule).trace = node.trace := by
  induction node using inductionOn with
  | step node ih => rw [rewrite_eq, hrule node _ ih, trace_mapChildren ih]

theorem trace_dropWideString (node : TypeNode) : node.dropWideString.trace = node.trace := by
  by_cases hcompound : node.isCompound = true
  · obtain ⟨kind, members, rfl⟩ := exists_compound hcompound
    rw [dropWideString_node]
    split
    · rw [trace_collapse, trace_node]
      refine flatMap_filter_eq fun member _ hwide => trace_of_isWideString ?_
      simpa using hwide
    · rfl
  · cases node with
    | union => simp [isCompound] at hcompound
    | intersection => simp [isCompound] at hcompound
    | _ => rfl

theorem trace_dropStringWidening (node : TypeNode) :
    node.dropStringWidening.trace = node.trace :=
  trace_rewrite (fun _ _ _ => trace_dropWideString _) node

theorem trace_dropUnknownRecords (node : TypeNode) :
    node.dropUnknownRecords.trace = node.trace := by
  refine trace_rewrite (fun node f h => ?_) node
  by_cases hunion : ∃ members, node = .union members
  · obtain ⟨members, rfl⟩ := hunion
    rw [mapChildren, dropRecords_union]
    split
    · rfl
    · -- a dropped member had no trace before it was rewritten, and has none since
      rw [trace_dropWideString, show ofUnion = Compound.union.collapse from rfl, trace_collapse,
        show union = Compound.union.node from rfl, trace_node, List.flatMap_map, List.flatMap_map]
      refine flatMap_filter_eq fun member hmem hrecord => ?_
      rw [h member hmem]
      exact trace_of_isUnknownRecord (by simpa using hrecord)
  · rw [dropRecords_of_ne_union fun members heq => hunion ⟨members, heq⟩]
    exact trace_dropWideString _

/-- What is left of a shape has the trace of the shape, if each rewritten member has its own. -/
theorem trace_keptShape {f : TypeMember → TypeMember} {members : List TypeMember}
    (h : ∀ member ∈ members, (f member).trace = member.trace) :
    (keptShape members (members.map f)).flatMap TypeMember.trace =
      members.flatMap TypeMember.trace := by
  rw [keptShape_map]
  split
  · exact flatMap_map_congr h
  · rw [flatMap_map_congr fun member hmem => h member (List.mem_filter.mp hmem).1]
    refine flatMap_filter_eq fun member _ hindex => ?_
    exact TypeMember.trace_of_isUnknownStringIndex (by simpa using hindex)

theorem trace_dropUnknownIndex (node : TypeNode) : node.dropUnknownIndex.trace = node.trace := by
  refine trace_rewrite (fun node f h => ?_) node
  by_cases hshape : ∃ members, node = .typeLiteral members
  · obtain ⟨members, rfl⟩ := hshape
    have hmember : ∀ member ∈ members, (member.mapTypes f).trace = member.trace :=
      fun member hmem => trace_mapTypes fun type htype =>
        h type (List.mem_flatMap.mpr ⟨member, hmem, htype⟩)
    rw [mapChildren, dropIndex_typeLiteral, trace_typeLiteral, trace_typeLiteral,
      trace_keptShape hmember, flatMap_map_congr hmember]
  · rw [dropIndex_of_ne_typeLiteral fun members heq => hshape ⟨members, heq⟩]

theorem trace_cleanUp (node : TypeNode) : node.cleanUp.trace = node.trace := by
  rw [cleanUp, trace_dropUnknownIndex, trace_dropUnknownRecords, trace_dropStringWidening]

end TypeNode

/-! ## Statements and files -/

/-- A statement apart from its types. -/
inductive Outline where
  | typeAlias (leadingComments : List String) (modifiers : List Modifier) (name : String)
  | interface (leadingComments : List String) (modifiers : List Modifier) (name : String)
    (heritageLength : Nat)
  | verbatim (leadingComments : List String) (text : String)
  deriving DecidableEq, Repr

namespace Statement

def outline : Statement → Outline
  | .typeAlias a => .typeAlias a.leadingComments a.modifiers a.name
  | .interface i => .interface i.leadingComments i.modifiers i.name i.heritage.length
  | .verbatim v => .verbatim v.leadingComments v.text

/-- The marks of a statement, in document order. -/
def trace : Statement → List Mark
  | .typeAlias a => a.type.trace
  | .interface i => i.heritage.flatMap TypeNode.trace ++ i.members.flatMap TypeMember.trace
  | .verbatim _ => []

theorem outline_cleanUp (statement : Statement) : statement.cleanUp.outline = statement.outline := by
  cases statement with
  | interface decl => rw [cleanUp_interface, outline, outline, List.length_map]
  | _ => rfl

theorem trace_cleanUp (statement : Statement) : statement.cleanUp.trace = statement.trace := by
  cases statement with
  | typeAlias decl => exact TypeNode.trace_cleanUp decl.type
  | interface decl =>
    -- a body has its types rewritten by two rewritings, and is thinned out by the third
    have hrewritten : ∀ member : TypeMember,
        (member.mapTypes fun type => type.dropStringWidening.dropUnknownRecords).trace =
          member.trace := fun member => TypeNode.trace_mapTypes fun type _ => by
      rw [TypeNode.trace_dropUnknownRecords, TypeNode.trace_dropStringWidening]
    have hindex : ∀ member : TypeMember,
        (member.mapTypes TypeNode.dropUnknownIndex).trace = member.trace := fun member =>
      TypeNode.trace_mapTypes fun type _ => TypeNode.trace_dropUnknownIndex type
    rw [cleanUp_interface, trace, trace,
      flatMap_map_congr fun type _ => TypeNode.trace_cleanUp type,
      TypeNode.trace_keptShape fun member _ => hindex member, rewrittenMembers,
      flatMap_map_congr fun member _ => hrewritten member]
  | verbatim => rfl

end Statement

namespace SourceFile

/-- The marks of a file, in document order. -/
def trace (file : SourceFile) : List Mark := file.statements.flatMap Statement.trace

/-- Cleaning up keeps the statements in their order, the comments behind them, and the trace. -/
theorem outline_and_trace_cleanUp (file : SourceFile) :
    file.cleanUp.statements.map Statement.outline = file.statements.map Statement.outline ∧
      file.cleanUp.trailingComments = file.trailingComments ∧
      file.cleanUp.trace = file.trace := by
  rw [cleanUp_eq]
  refine ⟨?_, rfl, ?_⟩
  · rw [List.map_map]
    exact List.map_congr_left fun statement _ => Statement.outline_cleanUp statement
  · exact flatMap_map_congr fun statement _ => Statement.trace_cleanUp statement

end SourceFile

end Declutter
