import Declutter.Proofs.Parsing.Invariants
import Declutter.Syntax.Types

/-!
# What types are read as

Precedence leaves its mark on every type that is read. A union holds no unions, an intersection
and an array hold neither unions nor intersections, unless these stand in parentheses, and every
reference begins with a word that was read. `TypeSyntax.Regular` says so; it holds of whatever the
grammar of types reads, from any state, as long as the grammar's entries read such types. The
functions are taken one by one, in the order of `Syntax/Names`, `Syntax/Patterns` and
`Syntax/Types`.
-/

-- at each of its steps an instance repeats the parser that it is about
set_option synthInstance.maxSize 1000000

namespace Declutter.Syntax

/-! ## Regular types -/

def TypeSyntax.isUnion : TypeSyntax → Bool
  | .union _ _ => true
  | _ => false

/-- Whether a type is a union or an intersection without parentheses. -/
def TypeSyntax.isCompound : TypeSyntax → Bool
  | .union _ _ | .intersection _ _ => true
  | _ => false

def TupleElementSyntax.type : TupleElementSyntax → TypeSyntax
  | .mk _ _ _ type => type

/-- The types that a member is written with. -/
def MemberSyntax.types : MemberSyntax → List TypeSyntax
  | .property _ _ _ _ type => type.toList
  | .index _ _ _ key value => key :: value.toList
  | .method _ | .signature _ => []

/-- A type whose compounds have members that need no parentheses, and whose references begin with
words of a sort. -/
inductive TypeSyntax.Regular (word : String → Prop) : TypeSyntax → Prop
  | keyword {span : Span} {text : Keyword} : Regular word (.keyword span text)
  | string {span : Span} {value : String} : Regular word (.string span value)
  | number {span : Span} : Regular word (.number span)
  | boolean {span : Span} {value : Bool} : Regular word (.boolean span value)
  | reference {span : Span} {first : String} {others : List String} {arguments : List TypeSyntax}
      (hfirst : word first) (harguments : ∀ type ∈ arguments, Regular word type) :
      Regular word (.reference span (first :: others) arguments)
  | array {span : Span} {element : TypeSyntax} (hsimple : element.isCompound = false)
      (helement : Regular word element) : Regular word (.array span element)
  | tuple {span : Span} {elements : List TupleElementSyntax}
      (helements : ∀ element ∈ elements, Regular word element.type) :
      Regular word (.tuple span elements)
  | union {span : Span} {members : List TypeSyntax} (hne : members ≠ [])
      (hsimple : ∀ type ∈ members, type.isUnion = false)
      (hmembers : ∀ type ∈ members, Regular word type) : Regular word (.union span members)
  | intersection {span : Span} {members : List TypeSyntax} (hne : members ≠ [])
      (hsimple : ∀ type ∈ members, type.isCompound = false)
      (hmembers : ∀ type ∈ members, Regular word type) : Regular word (.intersection span members)
  | parenthesized {span : Span} {inner : TypeSyntax} (hinner : Regular word inner) :
      Regular word (.parenthesized span inner)
  | literal {span : Span} {members : List MemberSyntax}
      (hmembers : ∀ member ∈ members, ∀ type ∈ member.types, Regular word type) :
      Regular word (.literal span members)
  | unmodelled {span : Span} {form : Unmodelled} : Regular word (.unmodelled span form)

/-- A member with regular types. -/
def MemberSyntax.Regular (word : String → Prop) (member : MemberSyntax) : Prop :=
  ∀ type ∈ member.types, type.Regular word

/-- A regular type that can be an operand: no union and no intersection. -/
def TypeSyntax.Operand (word : String → Prop) (type : TypeSyntax) : Prop :=
  type.Regular word ∧ type.isCompound = false

/-! ## Sound grammars -/

/-- The entries of a grammar keep an invariant, and those for types read regular ones. -/
class Grammar.Sound (inv : State → Prop) (g : Grammar) : Prop where
  type : Yields inv (·.Regular (Parser.Occurs inv)) g.type
  plainType : Yields inv (·.Regular (Parser.Occurs inv)) g.plainType
  typeOperand : Yields inv (·.Operand (Parser.Occurs inv)) g.typeOperand
  pattern : Keeps inv g.pattern
  assignment : Keeps inv g.assignment
  object : Keeps inv g.object
  binary : Keeps inv g.binary
  unary : Keeps inv g.unary
  operators (left : ExprSyntax) (least : Nat) : Keeps inv (g.operators left least)
  memberExpression : Keeps inv g.memberExpression
  leftHandSide : Keeps inv g.leftHandSide
  statement (declarations : Bool) : Keeps inv (g.statement declarations)
  item : Keeps inv g.item

attribute [instance] Grammar.Sound.pattern Grammar.Sound.assignment Grammar.Sound.object
  Grammar.Sound.binary Grammar.Sound.unary Grammar.Sound.operators Grammar.Sound.memberExpression
  Grammar.Sound.leftHandSide Grammar.Sound.statement Grammar.Sound.item

/-! ## Names -/

namespace Parser

variable {inv : State → Prop} [Invariant inv]

instance keeps_identifier {yieldAllowed awaitAllowed : Bool} :
    Keeps inv (identifier yieldAllowed awaitAllowed) := by
  unfold identifier; infer_instance

instance keeps_bindingName {letAllowed : Bool} : Keeps inv (bindingName letAllowed) := by
  unfold bindingName; infer_instance

instance keeps_privateName : Keeps inv privateName := by unfold privateName; infer_instance

instance keeps_memberName : Keeps inv memberName := by unfold memberName; infer_instance

instance keeps_canFollowModifier : Keeps inv canFollowModifier := by
  unfold canFollowModifier
  repeat' first | infer_instance | split | refine .seq ?_ fun _ => ?_

instance keeps_modifier? {allowed : List String} {blockAllowed : Bool} :
    Keeps inv (modifier? allowed blockAllowed) := by
  unfold modifier?
  repeat' first | infer_instance | split | refine .seq ?_ fun _ => ?_

instance keeps_eatParameterModifier : Keeps inv eatParameterModifier := by
  unfold eatParameterModifier; infer_instance

instance keeps_access? : Keeps inv access? := by
  unfold access?
  repeat' first | infer_instance | split | refine .seq ?_ fun _ => ?_

end Parser

namespace Grammar

open Declutter.Syntax.Parser

variable {inv : State → Prop} [hinv : Invariant inv] {g : Grammar} [hg : Sound inv g]

instance keeps_type : Keeps inv g.type := hg.type.keeps

instance keeps_plainType : Keeps inv g.plainType := hg.plainType.keeps

instance keeps_typeOperand : Keeps inv g.typeOperand := hg.typeOperand.keeps

/-! ## Patterns and parameters -/

theorem yields_annotation : Yields inv (·.Regular (Occurs inv)) g.annotation := by
  unfold annotation
  exact yields_inType (.skip fun _ => hg.type)

instance keeps_annotation : Keeps inv g.annotation := yields_annotation.keeps

theorem yields_annotation? :
    Yields inv (fun type => ∀ t ∈ type, t.Regular (Occurs inv)) g.annotation? := by
  unfold annotation?
  refine .skip fun _ => .ite (fun _ => .bind yields_annotation fun type htype => .pure ?_)
    fun _ => .none
  rintro _ ⟨⟩
  exact htype

instance keeps_annotation? : Keeps inv g.annotation? := yields_annotation?.keeps

instance keeps_propertyName : Keeps inv g.propertyName := by
  unfold propertyName
  repeat' first | infer_instance | split | refine .seq ?_ fun _ => ?_

instance keeps_patternElement : Keeps inv g.patternElement := by
  unfold patternElement; infer_instance

instance keeps_eatPatternOption : Keeps inv eatPatternOption := by
  unfold eatPatternOption; infer_instance

instance keeps_arrayPattern : Keeps inv g.arrayPattern := by
  unfold arrayPattern
  refine .seq inferInstance fun _ => .seq inferInstance fun _ => .seq (.each fun rest => ?_)
    inferInstance
  cases rest <;> infer_instance

instance keeps_patternProperty : Keeps inv g.patternProperty := by
  unfold patternProperty
  repeat' first | infer_instance | split | refine .seq ?_ fun _ => ?_

instance keeps_braced {α : Type} {property : Parser α} [Keeps inv property] :
    Keeps inv (braced property) := by
  unfold braced; infer_instance

instance keeps_noteRests {comma : Option Nat}
    {properties : List (Option (Nat × PatternSyntax))} :
    Keeps inv (noteRests comma properties) := by
  fun_induction noteRests comma properties <;> infer_instance

instance keeps_objectPattern : Keeps inv g.objectPattern := by
  unfold objectPattern; infer_instance

instance keeps_patternStep {letAllowed : Bool} : Keeps inv (g.patternStep letAllowed) := by
  unfold patternStep; infer_instance

instance keeps_parameter : Keeps inv g.parameter := by
  unfold parameter; infer_instance

instance keeps_restParameter {defaultRead : Bool} {start : Nat} :
    Keeps inv (g.restParameter defaultRead start) := by
  unfold restParameter; infer_instance

instance keeps_parametersOf {parameter : Parser PatternSyntax} {defaultRead : Bool}
    [Keeps inv parameter] : Keeps inv (g.parametersOf parameter defaultRead) := by
  unfold parametersOf
  refine .seq (.each fun read => ?_) inferInstance
  obtain ⟨read, _ | place⟩ := read <;> infer_instance

instance keeps_parameters : Keeps inv g.parameters := by unfold parameters; infer_instance

instance keeps_constructorParameter : Keeps inv g.constructorParameter := by
  unfold constructorParameter
  repeat' first | infer_instance | split | refine .seq ?_ fun _ => ?_

instance keeps_constructorParameters : Keeps inv g.constructorParameters := by
  unfold constructorParameters; infer_instance

instance keeps_signatureParameters : Keeps inv g.signatureParameters := by
  unfold signatureParameters; infer_instance

/-! ## Arguments and function types -/

omit hinv in
theorem yields_unmodelledFrom {start : Nat} {form : Unmodelled} :
    Yields inv (·.Operand (Occurs inv)) (unmodelledFrom start form) := by
  unfold unmodelledFrom
  exact .skip fun _ => .pure ⟨.unmodelled, rfl⟩

/-- Behind type arguments no operand begins. -/
instance keeps_endOperand : Keeps inv
    (modify fun state => { state with lexer := { state.lexer with operandAllowed := false } } :
      Parser PUnit) :=
  keeps_modify fun state => hinv.lexer false state.lexer.brackets

theorem yields_typeArguments :
    Yields inv (fun types => ∀ type ∈ types, type.Regular (Occurs inv)) g.typeArguments := by
  unfold typeArguments
  have hlist : Yields inv (fun types => ∀ type ∈ types, type.Regular (Occurs inv))
      (commaList (at? ">") g.type) := yields_commaList hg.type
  refine .bind (yields_inType (yields_forgettingBrackets (yields_found ?_ (.skip fun _ => hlist))))
    fun types htypes => .skip fun _ => .skip fun _ => .pure htypes
  intro state lexeme hstate hcurrent hspells
  have hcut := hinv.cut hstate hcurrent hspells
  refine hlist _ ?_
  dsimp only
  rw [hcurrent]
  exact hcut

instance keeps_typeArguments : Keeps inv g.typeArguments := yields_typeArguments.keeps

instance keeps_typeParameter {varianceAllowed constantAllowed : Bool} :
    Keeps inv (g.typeParameter varianceAllowed constantAllowed) := by
  unfold typeParameter
  refine .seq (.each fun before => ?_) inferInstance
  repeat' first | infer_instance | split | refine .seq ?_ fun _ => ?_

instance keeps_typeParameterPlaces {varianceAllowed constantAllowed : Bool} :
    Keeps inv (g.typeParameterPlaces varianceAllowed constantAllowed) := by
  unfold typeParameterPlaces; infer_instance

instance keeps_typeParameters? {varianceAllowed constantAllowed : Bool} :
    Keeps inv (g.typeParameters? varianceAllowed constantAllowed) := by
  unfold typeParameters?; infer_instance

instance keeps_shownOptional : Keeps inv shownOptional := by unfold shownOptional; infer_instance

instance keeps_resultType {sign : String} : Keeps inv (g.resultType sign) := by
  unfold resultType; infer_instance

instance keeps_startsParameters : Keeps inv g.startsParameters := by
  unfold startsParameters
  repeat' first | infer_instance | split | refine .seq ?_ fun _ => ?_

theorem yields_functionType {start : Nat} :
    Yields inv (·.Operand (Occurs inv)) (g.functionType start) := by
  unfold functionType
  exact .skip fun _ => .skip fun _ => .skip fun _ => .skip fun _ => yields_unmodelledFrom

/-! ## References and keywords -/

/-- The parts of a name that begins with a word that was read. -/
def BeginsWithWord (inv : State → Prop) (parts : List String) : Prop :=
  ∃ first others, parts = first :: others ∧ Occurs inv first

theorem yields_entityName {part : Parser String} [Keeps inv part] :
    Yields inv (BeginsWithWord inv) (entityName part) := by
  unfold entityName
  refine .bind yields_word fun first hfirst =>
    .ite (fun _ => .skip fun _ => .skip fun _ => .skip fun _ => ?_) fun _ => ?_
  all_goals
    refine .bind (P := fun read => BeginsWithWord inv read.1)
      (yields_iterate ⟨first, [], rfl, hfirst⟩ fun read hread => ?_) fun read hread => .pure hread
    obtain ⟨first, others, hparts, hfirst⟩ := hread
    refine .ite (fun _ => .none) fun _ => .skip fun _ => .ite (fun _ => ?_)
      fun _ => .none
    refine .skip fun _ => .skip fun _ => .ite (fun _ => .skip fun text => .pure ?_)
      fun _ => .skip fun _ => .skip fun _ => .pure ?_
    all_goals rintro _ ⟨⟩
    · exact ⟨first, others ++ [text], by rw [hparts, List.cons_append], hfirst⟩
    · exact ⟨first, others, hparts, hfirst⟩

instance keeps_entityName {part : Parser String} [Keeps inv part] :
    Keeps inv (entityName part) := yields_entityName.keeps

theorem yields_typeReference {start : Nat} :
    Yields inv (·.Operand (Occurs inv)) (g.typeReference start) := by
  unfold typeReference
  refine .skip fun hasModifier => .bind yields_entityName fun name hname => ?_
  obtain ⟨first, others, rfl, hfirst⟩ := hname
  have hread : ∀ span, ∀ types : List TypeSyntax, (∀ type ∈ types, type.Regular (Occurs inv)) →
      TypeSyntax.Operand (Occurs inv) (.reference span (first :: others) types) :=
    fun _ _ htypes => ⟨.reference hfirst htypes, rfl⟩
  refine .skip fun _ => .skip fun _ => .ite (fun _ => .bind yields_typeArguments
    fun types htypes => ?_) fun _ =>
    .bind (P := fun types => ∀ type ∈ types, type.Regular (Occurs inv)) (.pure nofun)
      fun types htypes => ?_
  all_goals
    exact .ite (fun _ => .skip fun _ => .skip fun _ => .pure (hread _ _ htypes))
      fun _ => .skip fun _ => .pure (hread _ _ htypes)

/-- A type that begins with a word is a keyword, a reference or read for its extent only. -/
theorem yields_namedType {start : Nat} {text : String} :
    Yields inv (·.Operand (Occurs inv)) (g.namedType start text) := by
  unfold namedType
  refine .skip fun _ => .ite (fun _ => ?_) fun _ => .skip fun isQualified => ?_
  · refine .skip fun _ => .skip fun _ => .skip fun _ => ?_
    exact .ite (fun _ => .skip fun _ => yields_unmodelledFrom) fun _ => yields_unmodelledFrom
  · refine .ite (fun _ => ?_) fun _ => yields_typeReference
    split
    · exact .skip fun _ => .skip fun _ => .pure ⟨.keyword, rfl⟩
    · exact .ite (fun _ => .skip fun _ => yields_unmodelledFrom) fun _ => yields_typeReference

/-! ## Types that are read for their extent -/

instance keeps_templatePiece {isTagged : Bool} : Keeps inv (templatePiece isTagged) := by
  unfold templatePiece
  repeat' first | infer_instance | split | refine .seq ?_ fun _ => ?_

instance keeps_templateOf {isTagged : Bool} {substitution : Parser Unit}
    [Keeps inv substitution] : Keeps inv (templateOf isTagged substitution) := by
  unfold templateOf; infer_instance

instance keeps_importOptions : Keeps inv g.importOptions := by
  unfold importOptions; infer_instance

instance keeps_importType : Keeps inv g.importType := by
  unfold importType
  repeat' first | infer_instance | split | refine .seq ?_ fun _ => ?_

instance keeps_typeQuery : Keeps inv g.typeQuery := by unfold typeQuery; infer_instance

instance keeps_startsMapped : Keeps inv startsMapped := by unfold startsMapped; infer_instance

theorem yields_mappedType {start : Nat} :
    Yields inv (·.Operand (Occurs inv)) (g.mappedType start) := by
  unfold mappedType
  repeat' first
    | with_reducible exact yields_unmodelledFrom
    | refine .ite (fun _ => ?_) fun _ => ?_
    | refine .skip fun _ => ?_

/-! ## Tuples -/

theorem yields_tupleElement :
    Yields inv (fun element => element.type.Regular (Occurs inv)) g.tupleElement := by
  unfold tupleElement
  refine .skip fun start => .skip fun label => .skip fun isRest => .ite (fun _ => ?_) fun _ => ?_
  · exact .bind hg.type fun type htype => .skip fun _ => .pure htype
  · exact .bind hg.type fun type htype => .skip fun _ => .skip fun _ => .pure htype

theorem yields_tupleType {start : Nat} :
    Yields inv (·.Operand (Occurs inv)) (g.tupleType start) := by
  unfold tupleType
  refine .skip fun _ => .bind (yields_commaList yields_tupleElement) fun elements helements =>
    .skip fun _ => .ite (fun _ => .skip fun _ => .skip fun _ => .pure ?_)
      fun _ => .skip fun _ => .pure ?_
  all_goals exact ⟨.tuple helements, rfl⟩

/-! ## Members -/

instance keeps_expectMemberEnd : Keeps inv expectMemberEnd := by
  unfold expectMemberEnd; infer_instance

instance keeps_memberKey : Keeps inv g.memberKey := by
  unfold memberKey
  repeat' first | infer_instance | split | refine .seq ?_ fun _ => ?_

instance keeps_startsIndex : Keeps inv startsIndex := by unfold startsIndex; infer_instance

theorem yields_indexMember? {start : Nat} {readonly : Bool} :
    Yields inv (fun member => ∀ m ∈ member, m.Regular (Occurs inv))
      (g.indexMember? start readonly) := by
  unfold indexMember?
  refine .skip fun isIndex => .ite (fun _ => ?_) fun _ => .none
  refine .skip fun _ => .skip fun place => .skip fun parameter => .skip fun isList => ?_
  refine .ite (fun _ => .skip fun _ => ?_) fun _ => .skip fun _ => ?_
  all_goals
    refine .bind (yields_inType hg.type) fun key hkey => .skip fun _ =>
      .bind yields_annotation? fun value hvalue => .skip fun _ => .skip fun _ => .pure ?_
    rintro _ ⟨⟩
    show ∀ type ∈ key :: value.toList, type.Regular (Occurs inv)
    simpa using ⟨hkey, hvalue⟩

instance keeps_indexMember? {start : Nat} {readonly : Bool} :
    Keeps inv (g.indexMember? start readonly) := yields_indexMember?.keeps

instance keeps_signature : Keeps inv g.signature := by unfold signature; infer_instance

theorem yields_accessorMember? :
    Yields inv (fun member => ∀ m ∈ member, m.Regular (Occurs inv)) g.accessorMember? := by
  unfold accessorMember?
  refine yields_attempt ?_
  have hsignature : ∀ span, ∀ m ∈ some (MemberSyntax.signature span), m.Regular (Occurs inv) := by
    rintro span _ ⟨⟩
    exact nofun
  repeat' first
    | exact .pure (hsignature _)
    | refine .ite (fun _ => ?_) fun _ => ?_
    | refine .skip fun _ => ?_

theorem yields_namedMember {start : Nat} {readonly : Bool} :
    Yields inv (·.Regular (Occurs inv)) (g.namedMember start readonly) := by
  unfold namedMember
  refine .skip fun key => .skip fun isOptional => .skip fun _ => .ite (fun _ => ?_) fun _ => ?_
  · exact .skip fun _ => .skip fun _ => .pure nofun
  · refine .bind yields_annotation? fun type htype => .skip fun _ => .skip fun _ => .pure ?_
    simpa [MemberSyntax.Regular, MemberSyntax.types] using htype

theorem yields_member : Yields inv (·.Regular (Occurs inv)) g.member := by
  unfold member
  refine .skip fun start => .skip fun isSignature => .ite (fun _ => ?_) fun _ => ?_
  · exact .skip fun _ => .skip fun _ => .pure nofun
  refine .skip fun isConstruct => .ite (fun _ => ?_) fun _ => .skip fun modifier => ?_
  · exact .skip fun _ => .skip fun _ => .skip fun _ => .pure nofun
  refine .given yields_indexMember? (fun index hindex => .pure hindex) ?_
  exact .given yields_accessorMember? (fun accessor haccessor => .pure haccessor)
    yields_namedMember

theorem yields_members :
    Yields inv (fun members => ∀ member ∈ members, member.Regular (Occurs inv)) g.members := by
  unfold members
  refine .skip fun _ => .bind (yields_collect (.skip fun _ => .ite (fun _ => .none)
    fun _ => .bind yields_member fun member hmember => .pure ?_)) fun members hmembers =>
      .skip fun _ => .pure hmembers
  rintro _ ⟨⟩
  exact hmember

/-! ## Operands -/

theorem yields_markedType {start : Nat} :
    Yields inv (·.Operand (Occurs inv)) (g.markedType start) := by
  unfold markedType
  -- a template
  refine .skip fun _ => .ite (fun _ => .skip fun _ => yields_unmodelledFrom) fun _ => ?_
  -- a number with a sign
  refine .skip fun _ => .ite (fun _ => .skip fun token => ?_) fun _ => ?_
  · split
    · exact .skip fun _ => .skip fun _ => .pure ⟨.number, rfl⟩
    · exact .skip fun _ => yields_unmodelledFrom
    · exact yields_unexpected
  -- an imported type
  refine .skip fun _ => .ite (fun _ => .skip fun _ => yields_unmodelledFrom) fun _ => ?_
  -- `this`
  refine .skip fun _ => .ite (fun _ => .skip fun _ => .skip fun _ => ?_) fun _ => ?_
  · exact .ite (fun _ => .skip fun _ => .skip fun _ => yields_unmodelledFrom)
      fun _ => yields_unmodelledFrom
  -- a query
  refine .skip fun _ => .ite (fun _ => .skip fun _ => yields_unmodelledFrom) fun _ => ?_
  -- braces
  refine .skip fun _ => .ite (fun _ => .skip fun _ => .ite (fun _ => yields_mappedType)
    fun _ => .bind yields_members fun members hmembers => .skip fun _ => .pure ?_) fun _ => ?_
  · exact ⟨.literal hmembers, rfl⟩
  refine .skip fun _ => .ite (fun _ => yields_tupleType) fun _ => ?_
  refine .skip fun _ => .ite (fun _ => .bind hg.type fun inner hinner => .skip fun _ =>
    .skip fun _ => .pure ?_) fun _ => yields_unexpected
  exact ⟨.parenthesized hinner, rfl⟩

theorem yields_primaryType : Yields inv (·.Operand (Occurs inv)) g.primaryType := by
  unfold primaryType
  refine .skip fun start => .skip fun token => ?_
  split
  · exact .skip fun _ => .skip fun _ => .pure ⟨.string, rfl⟩
  · exact .skip fun _ => .skip fun _ => .pure ⟨.number, rfl⟩
  · exact .skip fun _ => yields_unmodelledFrom
  · exact yields_namedType
  · refine .ite (fun _ => yields_namedType) fun _ => .ite (fun _ => ?_) fun _ => yields_markedType
    exact .skip fun _ => .skip fun _ => .pure ⟨.boolean, rfl⟩
  · exact yields_markedType

/-- What stands in front of brackets is an operand, and with the brackets it is one again. -/
theorem yields_postfixType : Yields inv (·.Operand (Occurs inv)) g.postfixType := by
  unfold postfixType
  refine .skip fun start => .bind yields_primaryType fun type htype =>
    yields_iterate htype fun type htype => ?_
  refine .skip fun _ => .ite (fun _ => .none) fun _ => .skip fun _ => .ite (fun _ => ?_)
    fun _ => .none
  refine .skip fun _ => .ite (fun _ => .skip fun _ => .pure ?_) fun _ => .skip fun _ =>
    .skip fun _ => .bind yields_unmodelledFrom fun access haccess => .pure ?_
  all_goals rintro _ ⟨⟩
  · exact ⟨.array htype.2 htype.1, rfl⟩
  · exact haccess

theorem yields_inferredType {start : Nat} :
    Yields inv (·.Operand (Occurs inv)) (g.inferredType start) := by
  unfold inferredType
  exact .skip fun _ => .skip fun _ => .skip fun _ => yields_unmodelledFrom

theorem yields_operandType : Yields inv (·.Operand (Occurs inv)) g.operandType := by
  unfold operandType
  refine .skip fun start => .skip fun _ => .ite (fun _ => .skip fun _ => .skip fun _ =>
    yields_unmodelledFrom) fun _ => .skip fun _ => .ite (fun _ => yields_inferredType) fun _ =>
      .skip fun _ => yields_postfixType

/-! ## Compounds -/

/-- A compound is its only member or a type made of several ones, in front of which a sign may
stand. -/
theorem yields_compoundType {P Q : TypeSyntax → Prop} {sign : String}
    {make : Span → List TypeSyntax → TypeSyntax} {member : Parser TypeSyntax}
    (hmember : Yields inv P member) (hsingle : ∀ type, P type → Q type)
    (hmake : ∀ span types, types ≠ [] → (∀ type ∈ types, P type) → Q (make span types)) :
    Yields inv Q (compoundType sign make member) := by
  unfold compoundType
  refine .skip fun start => .skip fun _ => .bind hmember fun first hfirst => .skip fun _ =>
    .ite (fun _ => ?_) fun _ => .pure (hsingle first hfirst)
  refine .bind (yields_collect (P := P) (.skip fun _ => .ite (fun _ => .bind hmember
    fun type htype => .pure ?_) fun _ => .none)) fun others hothers =>
      .skip fun span => .pure (hmake span (first :: others) nofun ?_)
  · rintro _ ⟨⟩
    exact htype
  · exact List.forall_mem_cons.mpr ⟨hfirst, hothers⟩

/-- The members of a union are operands and intersections of operands. -/
theorem yields_unionType : Yields inv (·.Regular (Occurs inv)) g.unionType := by
  unfold unionType
  refine yields_compoundType
    (P := fun type => type.Regular (Occurs inv) ∧ type.isUnion = false)
    (yields_compoundType yields_operandType ?_ ?_) (fun type h => h.1) ?_
  · intro type htype
    refine ⟨htype.1, ?_⟩
    have hsimple := htype.2
    cases type <;> first | rfl | cases hsimple
  · exact fun span types hne htypes => ⟨.intersection hne (fun type hmem => (htypes type hmem).2)
      fun type hmem => (htypes type hmem).1, rfl⟩
  · exact fun span types hne htypes => .union hne (fun type hmem => (htypes type hmem).2)
      fun type hmem => (htypes type hmem).1

theorem yields_plainTypeStep : Yields inv (·.Regular (Occurs inv)) g.plainTypeStep := by
  have hfunction : ∀ start, Yields inv (·.Regular (Occurs inv)) (g.functionType start) :=
    fun _ => yields_functionType.mono fun _ h => h.1
  unfold plainTypeStep
  exact .skip fun start => .skip fun _ => .ite (fun _ => hfunction start) fun _ => .skip fun _ =>
    .ite (fun _ => .skip fun _ => .skip fun _ => hfunction start) fun _ => yields_unionType

theorem yields_typeStep : Yields inv (·.Regular (Occurs inv)) g.typeStep := by
  unfold typeStep
  refine yields_within (.skip fun start => .bind yields_plainTypeStep fun type htype => ?_)
  refine .skip fun _ => .ite (fun _ => .pure htype) fun _ => .skip fun _ => .ite (fun _ => ?_)
    fun _ => .pure htype
  refine .skip fun _ => .skip fun _ => .skip fun _ => .skip fun _ => .skip fun _ => ?_
  exact yields_unmodelledFrom.mono fun _ h => h.1

end Grammar

end Declutter.Syntax
