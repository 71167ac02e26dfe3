import Declutter.Proofs.Parsing.Calls
import Declutter.Proofs.Parsing.Reach

/-!
# Where the members inside of types lie

Every member that is nested in a type lies in front of the end of the type: the braces around it
are passed by before the type has been read. `TypeSyntax.Within place` says that no member of a
type goes beyond a place. Each production that reads types gives one that stays within what has
been passed by, if the grammar's entry for types does; a member itself stays within what has been
seen, since its own first lexeme need not have been passed by.
-/

set_option synthInstance.maxSize 1000000

namespace Declutter.Syntax

/-! ## Types within a place -/

/-- Neither end of a stretch is behind a place. -/
def Span.Within (place : Nat) (span : Span) : Prop := span.start ≤ place ∧ span.stop ≤ place

/-- A type none of whose members, however deep, goes beyond a place. -/
inductive TypeSyntax.Within (place : Nat) : TypeSyntax → Prop
  | keyword {span : Span} {text : Keyword} : Within place (.keyword span text)
  | string {span : Span} {value : String} : Within place (.string span value)
  | number {span : Span} : Within place (.number span)
  | boolean {span : Span} {value : Bool} : Within place (.boolean span value)
  | reference {span : Span} {name : List String} {arguments : List TypeSyntax}
      (harguments : ∀ type ∈ arguments, Within place type) :
      Within place (.reference span name arguments)
  | array {span : Span} {element : TypeSyntax} (helement : Within place element) :
      Within place (.array span element)
  | tuple {span : Span} {elements : List TupleElementSyntax}
      (helements : ∀ element ∈ elements, Within place element.type) :
      Within place (.tuple span elements)
  | union {span : Span} {members : List TypeSyntax}
      (hmembers : ∀ type ∈ members, Within place type) : Within place (.union span members)
  | intersection {span : Span} {members : List TypeSyntax}
      (hmembers : ∀ type ∈ members, Within place type) : Within place (.intersection span members)
  | parenthesized {span : Span} {inner : TypeSyntax} (hinner : Within place inner) :
      Within place (.parenthesized span inner)
  | literal {span : Span} {members : List MemberSyntax}
      (hspans : ∀ member ∈ members, member.span.Within place)
      (htypes : ∀ member ∈ members, ∀ type ∈ member.types, Within place type) :
      Within place (.literal span members)
  | unmodelled {span : Span} {form : Unmodelled} : Within place (.unmodelled span form)

/-- A member that with its types does not go beyond a place. -/
structure MemberSyntax.Within (place : Nat) (member : MemberSyntax) : Prop where
  span : member.span.Within place
  types : ∀ type ∈ member.types, type.Within place

variable {m n : Nat}

theorem Span.Within.mono {span : Span} (h : span.Within m) (hle : m ≤ n) : span.Within n :=
  ⟨Nat.le_trans h.1 hle, Nat.le_trans h.2 hle⟩

theorem TypeSyntax.Within.mono {type : TypeSyntax} (h : type.Within m) (hle : m ≤ n) :
    type.Within n := by
  induction h with
  | keyword => exact .keyword
  | string => exact .string
  | number => exact .number
  | boolean => exact .boolean
  | reference _ ih => exact .reference ih
  | array _ ih => exact .array ih
  | tuple _ ih => exact .tuple ih
  | union _ ih => exact .union ih
  | intersection _ ih => exact .intersection ih
  | parenthesized _ ih => exact .parenthesized ih
  | literal hspans _ ih => exact .literal (fun member hmem => (hspans member hmem).mono hle) ih
  | unmodelled => exact .unmodelled

theorem MemberSyntax.Within.mono {member : MemberSyntax} (h : member.Within m) (hle : m ≤ n) :
    member.Within n :=
  ⟨h.span.mono hle, fun type hmem => (h.types type hmem).mono hle⟩

/-- A type that stays within what has been passed by. -/
def TypeSyntax.Passed (v : Extent) (type : TypeSyntax) : Prop := type.Within v.passed

/-- A member that stays within what has been seen. -/
def MemberSyntax.Seen (v : Extent) (member : MemberSyntax) : Prop := member.Within v.seen

theorem TypeSyntax.lasts_passed : Lasts TypeSyntax.Passed :=
  fun _ _ _ hle h => TypeSyntax.Within.mono h hle.passed

theorem MemberSyntax.lasts_seen : Lasts MemberSyntax.Seen :=
  fun _ _ _ hle h => MemberSyntax.Within.mono h hle.seen

namespace Grammar

open Declutter.Syntax.Parser

/-- A grammar whose entry for types reads only types that stay within what has been passed by. -/
class Placed (g : Grammar) : Prop where
  sound (w : Extent) : Sound (State.Past w) g
  type (w : Extent) : Reaches w TypeSyntax.Passed g.type

attribute [instance] Placed.sound

variable {w : Extent} {g : Grammar} [hg : Placed g]

/-! ## Annotations and arguments -/

theorem reaches_annotation? :
    Reaches w (fun v type => ∀ t ∈ type, t.Passed v) g.annotation? := by
  unfold annotation? annotation
  exact .skip fun _ => .ite (fun _ => (reaches_inType (.skip fun _ => hg.type w)).some)
    fun _ => .none

/-- The arguments are read in the same way, be their first sign one of its own or what is left of a
shift operator. -/
theorem reaches_typeArguments :
    Reaches w (fun v types => ∀ type ∈ types, type.Passed v) g.typeArguments := by
  unfold typeArguments
  have hlist : Reaches w (fun v types => ∀ type ∈ types, type.Passed v)
      (commaList (at? ">") g.type) := reaches_commaList TypeSyntax.lasts_passed hg.type
  have hexpected : Reaches w (fun v types => ∀ type ∈ types, type.Passed v)
      (expect "<" >>= fun _ => commaList (at? ">") g.type) := .skip fun _ => hlist
  refine .bind (reaches_inType (reaches_forgettingBrackets (reaches_found ?_ hexpected)))
    fun types v _ htypes => .skip fun _ => .skip fun _ => .pure htypes
  intro state lexeme hstate hcurrent hspells
  have hcut := Invariant.cut hstate hcurrent hspells
  refine hlist _ ?_
  dsimp only
  rw [hcurrent]
  exact hcut

omit hg in
theorem reaches_unmodelledFrom {start : Nat} {form : Unmodelled} :
    Reaches w TypeSyntax.Passed (unmodelledFrom start form) := by
  unfold unmodelledFrom
  exact .skip fun _ => .pure .unmodelled

theorem reaches_functionType {start : Nat} :
    Reaches w TypeSyntax.Passed (g.functionType start) := by
  unfold functionType
  exact .skip fun _ => .skip fun _ => .skip fun _ => .skip fun _ => reaches_unmodelledFrom

/-! ## References and keywords -/

theorem reaches_typeReference {start : Nat} :
    Reaches w TypeSyntax.Passed (g.typeReference start) := by
  unfold typeReference
  refine .skip fun hasModifier => .skip fun name => .skip fun _ => .skip fun _ => ?_
  extract_lets behindArguments
  have hbehindArguments : ∀ types v, (∀ type ∈ types, type.Passed v) →
      Reaches v TypeSyntax.Passed (behindArguments types) := by
    intro types v htypes
    exact .ite (fun _ => .skip fun _ => .skip fun _ => .pure (.reference htypes))
      fun _ => .skip fun _ => .pure (.reference htypes)
  refine .ite (fun _ => reaches_typeArguments.bind fun types v _ => hbehindArguments types v)
    fun _ => ?_
  exact hbehindArguments [] w (List.forall_mem_nil _)

theorem reaches_namedType {start : Nat} {text : String} :
    Reaches w TypeSyntax.Passed (g.namedType start text) := by
  unfold namedType
  refine .skip fun _ => .ite (fun _ => ?_) fun _ => .skip fun isQualified => ?_
  · refine .skip fun _ => .skip fun _ => .skip fun _ => ?_
    exact .ite (fun _ => .skip fun _ => reaches_unmodelledFrom) fun _ => reaches_unmodelledFrom
  · refine .ite (fun _ => ?_) fun _ => reaches_typeReference
    split
    · exact .skip fun _ => .skip fun _ => .pure .keyword
    · exact .ite (fun _ => .skip fun _ => reaches_unmodelledFrom) fun _ => reaches_typeReference

theorem reaches_mappedType {start : Nat} :
    Reaches w TypeSyntax.Passed (g.mappedType start) := by
  unfold mappedType
  repeat' first
    | with_reducible exact reaches_unmodelledFrom
    | refine .ite (fun _ => ?_) fun _ => ?_
    | refine .skip fun _ => ?_

/-! ## Tuples -/

/-- An element whose type stays within what has been passed by. -/
def TupleElementSyntax.Passed (v : Extent) (element : TupleElementSyntax) : Prop :=
  element.type.Passed v

omit hg in
theorem lasts_elementPassed : Lasts TupleElementSyntax.Passed :=
  fun v w element hle h => TypeSyntax.lasts_passed v w element.type hle h

theorem reaches_tupleElement : Reaches w TupleElementSyntax.Passed g.tupleElement := by
  unfold tupleElement
  refine .skip fun start => .skip fun label => .skip fun isRest => .ite (fun _ => ?_) fun _ => ?_
  · exact .bind (hg.type w) fun type v _ htype => .skip fun _ => .pure htype
  · exact .bind (hg.type w) fun type v _ htype => .skip fun _ => .skip fun _ => .pure htype

theorem reaches_tupleType {start : Nat} :
    Reaches w TypeSyntax.Passed (g.tupleType start) := by
  unfold tupleType
  refine .skip fun _ => .bind (reaches_commaList lasts_elementPassed fun _ => reaches_tupleElement)
    fun elements v _ helements => .skip fun _ => .ite (fun _ => .skip fun _ => .skip fun _ =>
      .pure ?_) fun _ => .skip fun _ => .pure ?_
  all_goals exact .tuple helements

/-! ## Members -/

omit hg in
/-- A member from a place that had been seen, with types that have been passed by. -/
theorem seen_of_spans {start : Nat} {member : MemberSyntax} (hspan : Spans w start member.span)
    (hstart : start ≤ w.seen) (htypes : ∀ type ∈ member.types, type.Passed w) : member.Seen w :=
  ⟨⟨hspan.begins hstart, hspan.ends hstart⟩, fun type hmem => (htypes type hmem).mono hspan.sound⟩

theorem reaches_indexMember? {start : Nat} {readonly : Bool} (hstart : start ≤ w.seen) :
    Reaches w (fun v member => ∀ m ∈ member, m.Seen v) (g.indexMember? start readonly) := by
  unfold indexMember?
  refine .skip fun isIndex => .ite (fun _ => ?_) fun _ => .none
  refine .skip fun _ => .skip fun place => .skip fun parameter => .skip fun isList => ?_
  refine .ite (fun _ => .skip fun _ => ?_) fun _ => .skip fun _ => ?_
  all_goals
    refine .bind (reaches_inType (hg.type w)) fun key v hv hkey => .skip fun _ =>
      .bind reaches_annotation? fun value u hu hvalue => .skip fun _ =>
        .bind reaches_spanFrom fun span x hx hspan => .pure ?_
    rintro _ ⟨⟩
    have hkeyPassed := TypeSyntax.lasts_passed v x key (hu.trans hx) hkey
    have hvaluePassed : ∀ type ∈ value.toList, type.Passed x := fun type hmem =>
      TypeSyntax.lasts_passed u x type hx (hvalue type (Option.mem_toList.mp hmem))
    exact seen_of_spans hspan (Nat.le_trans hstart (hv.trans (hu.trans hx)).seen)
      (List.forall_mem_cons.mpr ⟨hkeyPassed, hvaluePassed⟩)

omit hg in
/-- What has no types is a member from a place that had been seen, whichever stretch it lies in. -/
theorem reaches_bareMember {start : Nat} {make : Span → MemberSyntax} (hstart : start ≤ w.seen)
    (hspan : ∀ span, (make span).span = span) (htypes : ∀ span, (make span).types = []) :
    Reaches w MemberSyntax.Seen (do return make (← spanFrom start)) := by
  refine .bind reaches_spanFrom fun span v hv hspans => .pure ?_
  have hspansMember : Spans v start (make span).span := by rwa [hspan]
  refine seen_of_spans hspansMember (Nat.le_trans hstart hv.seen) ?_
  rw [htypes]
  exact List.forall_mem_nil _

theorem reaches_accessorMember? :
    Reaches w (fun v member => ∀ m ∈ member, m.Seen v) g.accessorMember? := by
  unfold accessorMember?
  refine reaches_attempt ?_
  refine .bind reaches_position fun start v _ hstart => ?_
  repeat' first
    | exact (reaches_bareMember hstart (fun _ => rfl) fun _ => rfl).some
    | refine .ite (fun _ => ?_) fun _ => ?_
    | refine .skip fun _ => ?_

theorem reaches_namedMember {start : Nat} {readonly : Bool} (hstart : start ≤ w.seen) :
    Reaches w MemberSyntax.Seen (g.namedMember start readonly) := by
  unfold namedMember
  refine .skip fun key => .skip fun isOptional => .skip fun _ => .ite (fun _ => ?_) fun _ => ?_
  · exact .skip fun _ => reaches_bareMember hstart (fun _ => rfl) fun _ => rfl
  · refine .bind reaches_annotation? fun type v hv htype => .skip fun _ =>
      .bind reaches_spanFrom fun span u hu hspan => .pure ?_
    refine seen_of_spans hspan (Nat.le_trans hstart (hv.trans hu).seen) fun t hmem => ?_
    exact TypeSyntax.lasts_passed v u t hu (htype t (Option.mem_toList.mp hmem))

theorem reaches_member : Reaches w MemberSyntax.Seen g.member := by
  unfold member
  refine .bind reaches_position fun start v _ hstart => .skip fun isSignature =>
    .ite (fun _ => ?_) fun _ => ?_
  · exact .skip fun _ => reaches_bareMember hstart (fun _ => rfl) fun _ => rfl
  refine .skip fun isConstruct => .ite (fun _ => ?_) fun _ => .skip fun modifier => ?_
  · exact .skip fun _ => .skip fun _ => reaches_bareMember hstart (fun _ => rfl) fun _ => rfl
  refine .given (reaches_indexMember? hstart) (fun index u _ hindex => .pure hindex) ?_
  intro u hu
  refine .given reaches_accessorMember? (fun accessor x _ haccessor => .pure haccessor) ?_
  exact fun x hx => reaches_namedMember (Nat.le_trans hstart (hu.trans hx).seen)

/-- The brace behind the members is passed by, and with it all that had been seen of them. -/
theorem reaches_members :
    Reaches w (fun v members => ∀ member ∈ members, member.Within v.passed) g.members := by
  unfold members
  refine .skip fun _ => .bind (reaches_collect MemberSyntax.lasts_seen fun v => .skip fun _ =>
    .ite (fun _ => .none) fun _ => reaches_member.some) fun members v _ hmembers => ?_
  exact reaches_expect.bind fun _ u _ hpassed => .pure fun member hmem =>
    (hmembers member hmem).mono hpassed

/-! ## Operands -/

theorem reaches_markedType {start : Nat} :
    Reaches w TypeSyntax.Passed (g.markedType start) := by
  unfold markedType
  -- a template
  refine .skip fun _ => .ite (fun _ => .skip fun _ => reaches_unmodelledFrom) fun _ => ?_
  -- a number with a sign
  refine .skip fun _ => .ite (fun _ => .skip fun token => ?_) fun _ => ?_
  · split
    · exact .skip fun _ => .skip fun _ => .pure .number
    · exact .skip fun _ => reaches_unmodelledFrom
    · exact .of_never yields_unexpected
  -- an imported type
  refine .skip fun _ => .ite (fun _ => .skip fun _ => reaches_unmodelledFrom) fun _ => ?_
  -- `this`
  refine .skip fun _ => .ite (fun _ => .skip fun _ => .skip fun _ => ?_) fun _ => ?_
  · exact .ite (fun _ => .skip fun _ => .skip fun _ => reaches_unmodelledFrom)
      fun _ => reaches_unmodelledFrom
  -- a query
  refine .skip fun _ => .ite (fun _ => .skip fun _ => reaches_unmodelledFrom) fun _ => ?_
  -- braces
  refine .skip fun _ => .ite (fun _ => .skip fun _ => .ite (fun _ => reaches_mappedType)
    fun _ => .bind reaches_members fun members v _ hmembers => .skip fun _ => .pure ?_) fun _ => ?_
  · exact .literal (fun member hmem => (hmembers member hmem).span)
      fun member hmem => (hmembers member hmem).types
  refine .skip fun _ => .ite (fun _ => reaches_tupleType) fun _ => ?_
  refine .skip fun _ => .ite (fun _ => .bind (hg.type w) fun inner v _ hinner => .skip fun _ =>
    .skip fun _ => .pure ?_) fun _ => ?_
  · exact .parenthesized hinner
  · exact .of_never yields_unexpected

theorem reaches_primaryType : Reaches w TypeSyntax.Passed g.primaryType := by
  unfold primaryType
  refine .skip fun start => .skip fun token => ?_
  split
  · exact .skip fun _ => .skip fun _ => .pure .string
  · exact .skip fun _ => .skip fun _ => .pure .number
  · exact .skip fun _ => reaches_unmodelledFrom
  · exact reaches_namedType
  · refine .ite (fun _ => reaches_namedType) fun _ => .ite (fun _ => ?_)
      fun _ => reaches_markedType
    exact .skip fun _ => .skip fun _ => .pure .boolean
  · exact reaches_markedType

theorem reaches_postfixType : Reaches w TypeSyntax.Passed g.postfixType := by
  unfold postfixType
  refine .skip fun start => .bind reaches_primaryType fun type v _ htype =>
    reaches_iterate TypeSyntax.lasts_passed htype fun type u _ htype => ?_
  refine .skip fun _ => .ite (fun _ => .none) fun _ => .skip fun _ => .ite (fun _ => ?_)
    fun _ => .none
  refine .skip fun _ => .ite (fun _ => .skip fun _ => .pure ?_) fun _ => .skip fun _ =>
    .skip fun _ => .bind reaches_unmodelledFrom fun access x _ haccess => .pure ?_
  all_goals rintro _ ⟨⟩
  · exact .array htype
  · exact haccess

theorem reaches_operandType : Reaches w TypeSyntax.Passed g.operandType := by
  unfold operandType inferredType
  refine .skip fun start => .skip fun _ => .ite (fun _ => .skip fun _ => .skip fun _ =>
    reaches_unmodelledFrom) fun _ => .skip fun _ => .ite (fun _ => ?_) fun _ =>
      .skip fun _ => reaches_postfixType
  exact .skip fun _ => .skip fun _ => .skip fun _ => reaches_unmodelledFrom

/-! ## Compounds -/

omit hg in
/-- A compound is its only member or a type made of several ones. -/
theorem reaches_compoundType {sign : String} {make : Span → List TypeSyntax → TypeSyntax}
    {member : Parser TypeSyntax} (hmember : ∀ v, Reaches v TypeSyntax.Passed member)
    (hmake : ∀ place span types, (∀ type ∈ types, type.Within place) →
      (make span types).Within place) :
    Reaches w TypeSyntax.Passed (compoundType sign make member) := by
  unfold compoundType
  refine .skip fun start => .skip fun _ => .bind (hmember w) fun first v _ hfirst =>
    .skip fun _ => .ite (fun _ => ?_) fun _ => .pure hfirst
  refine .bind (reaches_collect TypeSyntax.lasts_passed fun u => .skip fun _ =>
    .ite (fun _ => (hmember u).some) fun _ => .none) fun others u hu hothers =>
      .skip fun span => .pure (hmake u.passed span (first :: others) ?_)
  exact List.forall_mem_cons.mpr ⟨TypeSyntax.lasts_passed v u first hu hfirst, hothers⟩

theorem reaches_unionType : Reaches w TypeSyntax.Passed g.unionType := by
  unfold unionType
  refine reaches_compoundType (fun v => reaches_compoundType (fun _ => reaches_operandType) ?_) ?_
  · exact fun _ _ _ htypes => .intersection htypes
  · exact fun _ _ _ htypes => .union htypes

theorem reaches_typeStep : Reaches w TypeSyntax.Passed g.typeStep := by
  unfold typeStep plainTypeStep
  refine reaches_within (.skip fun start => .bind (P := TypeSyntax.Passed) ?_
    fun type v _ htype => ?_)
  · exact .skip fun start => .skip fun _ => .ite (fun _ => reaches_functionType) fun _ =>
      .skip fun _ => .ite (fun _ => .skip fun _ => .skip fun _ => reaches_functionType)
        fun _ => reaches_unionType
  refine .skip fun _ => .ite (fun _ => .pure htype) fun _ => .skip fun _ => .ite (fun _ => ?_)
    fun _ => .pure htype
  refine .skip fun _ => .skip fun _ => .skip fun _ => .skip fun _ => .skip fun _ => ?_
  exact reaches_unmodelledFrom

end Grammar

end Declutter.Syntax
