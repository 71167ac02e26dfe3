import Declutter.Proofs.Parsing.Calls
import Declutter.Syntax.Expressions

/-!
# What expressions keep

Nothing of an expression becomes part of a declaration tree, so all that is said of the functions
of `Syntax/Classes` and `Syntax/Expressions` is that they keep an invariant. Where a function goes
on in the same way behind several cases, what follows the cases is named, and shown to keep the
invariant once.
-/

set_option synthInstance.maxSize 1000000

namespace Declutter.Syntax.Grammar

open Declutter.Syntax.Parser

variable {inv : State → Prop} [hinv : Invariant inv] {g : Grammar} [hg : Sound inv g]

instance keeps_callFrom {start : Nat} {callee : Callee} :
    Keeps inv (g.callFrom start callee) :=
  (yields_callFrom (P := (·.Regular (Occurs inv)))).keeps

instance keeps_genericAsyncArrow {start : Nat} : Keeps inv (g.genericAsyncArrow start) :=
  (yields_genericAsyncArrow (P := (·.Regular (Occurs inv)))).keeps

/-! ## Classes -/

instance keeps_memberModifiers {head : MemberHead} : Keeps inv (memberModifiers head) := by
  unfold memberModifiers
  refine .each fun head => .seq inferInstance fun modifier => ?_
  cases modifier with
  | none => infer_instance
  | some text =>
    refine .seq inferInstance fun state => ?_
    extract_lets place behindFault
    have hbehindFault : Keeps inv (behindFault ()) := inferInstance
    refine .seq inferInstance fun state => ?_
    split <;> infer_instance

instance keeps_classKey : Keeps inv g.classKey := by unfold classKey; infer_instance

instance keeps_atMethod : Keeps inv atMethod := by unfold atMethod; infer_instance

instance keeps_atProperty {breakAllowed : Bool} : Keeps inv (atProperty breakAllowed) := by
  unfold atProperty; infer_instance

instance keeps_classProperty {head : MemberHead} {name : ClassKey} {isOptional : Bool} :
    Keeps inv (g.classProperty head name isOptional) := by
  unfold classProperty; infer_instance

instance keeps_classMethod {head : MemberHead} {name : ClassKey} {isAsync isGenerator : Bool}
    {parameters : Parser (List PatternSyntax)} [Keeps inv parameters] :
    Keeps inv (g.classMethod head name isAsync isGenerator parameters) := by
  unfold classMethod; infer_instance

instance keeps_modifierAsName? {head : MemberHead} {text : String} {breakAllowed : Bool} :
    Keeps inv (g.modifierAsName? head text breakAllowed) := by
  unfold modifierAsName?; infer_instance

instance keeps_noteConstructorModifiers {head : MemberHead} :
    Keeps inv (noteConstructorModifiers head) := by
  unfold noteConstructorModifiers
  repeat' first | infer_instance | split

instance keeps_classConstructor {head : MemberHead} : Keeps inv (g.classConstructor head) := by
  unfold classConstructor
  refine .seq inferInstance fun _ => .seq inferInstance fun _ => ?_
  extract_lets behindTypeParameters
  have hbehindTypeParameters : Keeps inv (behindTypeParameters ()) := by
    refine .seq inferInstance fun _ => .seq inferInstance fun parameters =>
      .seq inferInstance fun _ => .seq inferInstance fun _ => ?_
    extract_lets behindType
    have hbehindType : Keeps inv (behindType ()) := by
      refine .seq inferInstance fun hasBody => ?_
      split
      · infer_instance
      · refine .seq (.over fun parameter _ => ?_) fun _ =>
          .seq (.over fun parameter _ => ?_) inferInstance
        · split <;> infer_instance
        · split <;> infer_instance
    infer_instance
  infer_instance

instance keeps_accessorParameters {isSetter : Bool} {place : Nat} :
    Keeps inv (g.accessorParameters isSetter place) := by
  unfold accessorParameters
  repeat' first | infer_instance | split | refine .seq ?_ fun _ => ?_

instance keeps_classAccessor {head : MemberHead} {isSetter : Bool} {place : Nat} :
    Keeps inv (g.classAccessor head isSetter place) := by
  unfold classAccessor; infer_instance

instance keeps_asyncMethod {head : MemberHead} {isOptional : Bool} :
    Keeps inv (g.asyncMethod head isOptional) := by
  unfold asyncMethod; infer_instance

instance keeps_generatorMethod {head : MemberHead} : Keeps inv (g.generatorMethod head) := by
  unfold generatorMethod; infer_instance

instance keeps_classMemberRest {head : MemberHead} {name : ClassKey} {isOptional : Bool} :
    Keeps inv (g.classMemberRest head name isOptional) := by
  unfold classMemberRest; infer_instance

instance keeps_staticBlock : Keeps inv g.staticBlock := by unfold staticBlock; infer_instance

instance keeps_classMemberBehindHead {head : MemberHead} :
    Keeps inv (g.classMemberBehindHead head) := by
  unfold classMemberBehindHead
  repeat' first | infer_instance | split | refine .seq ?_ fun _ => ?_

instance keeps_classMember : Keeps inv g.classMember := by
  unfold classMember
  refine .seq inferInstance fun start => .seq inferInstance fun declaredFirst =>
    .seq inferInstance fun access => ?_
  extract_lets behindDeclared
  have hbehindDeclared : ∀ isDeclared, Keeps inv (behindDeclared isDeclared) := by
    intro isDeclared
    unfold behindDeclared
    extract_lets head behindDeclare
    have hbehindDeclare : Keeps inv (behindDeclare ()) := by
      refine .seq inferInstance fun place => .seq inferInstance fun isStatic => ?_
      extract_lets staticHead behindStatic
      have hbehindStatic : Keeps inv (behindStatic ()) := by
        repeat' first | infer_instance | split | refine .seq ?_ fun _ => ?_
      repeat' first | infer_instance | split | refine .seq ?_ fun _ => ?_
    repeat' first | infer_instance | split | refine .seq ?_ fun _ => ?_
  infer_instance

instance keeps_classBody : Keeps inv g.classBody := by
  unfold classBody
  refine .seq (.each fun read => ?_) inferInstance
  obtain ⟨places, hasConstructor⟩ := read
  repeat' first | infer_instance | split | refine .seq ?_ fun _ => ?_

instance keeps_superClass : Keeps inv g.superClass := by
  unfold superClass
  repeat' first | infer_instance | split | refine .seq ?_ fun _ => ?_

instance keeps_extendsClause : Keeps inv g.extendsClause := by unfold extendsClause; infer_instance

instance keeps_repeatedClause {word : String} {cause : Cause} {clause : Parser Unit}
    [Keeps inv clause] : Keeps inv (repeatedClause word cause clause) := by
  unfold repeatedClause; infer_instance

instance keeps_classHeritage : Keeps inv g.classHeritage := by unfold classHeritage; infer_instance

instance keeps_classFrom {nameNeeded isAbstract : Bool} :
    Keeps inv (g.classFrom nameNeeded isAbstract) := by
  unfold classFrom; infer_instance

/-! ## Objects and arrays -/

instance keeps_noteAll {faults : List Fault} : Keeps inv (noteAll faults) := by
  unfold noteAll; infer_instance

instance keeps_noteFindings {findings : Findings} : Keeps inv (noteFindings findings) := by
  unfold noteFindings
  repeat' first | infer_instance | split

instance keeps_endsWithArrow {expression : ExprSyntax} : Keeps inv (endsWithArrow expression) := by
  unfold endsWithArrow
  repeat' first | infer_instance | split

instance keeps_objectPropertyRest {start : Nat} {key : MemberKey} {keySpan : Span}
    {modifier : Option Nat} :
    Keeps inv (g.objectPropertyRest start key keySpan modifier) := by
  unfold objectPropertyRest
  extract_lets method isWord behindCanFollow
  have hmethod : ∀ isAsync isGenerator, Keeps inv (method isAsync isGenerator) := by
    intro isAsync isGenerator
    unfold method
    infer_instance
  -- only a word goes on in ways of its own
  have hword : ∀ text, key = .word text → ∀ canFollow, Keeps inv (behindCanFollow canFollow) := by
    rintro text rfl canFollow
    refine @keeps_ite _ _ _ _ _ _ (.seq inferInstance fun isPair => @keeps_ite _ _ _ _ _ _
      inferInstance (.seq inferInstance fun isMethod => @keeps_ite _ _ _ _ _ _ inferInstance
        (.seq inferInstance fun isOptional => ?_))) inferInstance
    extract_lets shorthand behindStar accessor behindOptional
    have hbehindStar : ∀ isGenerator, Keeps inv (behindStar isGenerator) := by
      intro isGenerator
      refine .seq inferInstance fun name => ?_
      obtain ⟨name, nameSpan⟩ := name
      infer_instance
    have haccessor : Keeps inv (accessor ()) := by
      unfold accessor
      infer_instance
    have hbehindOptional : Keeps inv (behindOptional ()) := by
      cases modifier <;> infer_instance
    infer_instance
  have hbehindCanFollow : ∀ canFollow, Keeps inv (behindCanFollow canFollow) := by
    cases key with
    | word text => exact hword text rfl
    | _ => infer_instance
  refine .seq inferInstance fun token => ?_
  split <;> infer_instance

instance keeps_objectProperty : Keeps inv g.objectProperty := by
  unfold objectProperty; infer_instance

instance keeps_objectExpression : Keeps inv g.objectExpression := by
  unfold objectExpression; infer_instance

instance keeps_arrayExpression : Keeps inv g.arrayExpression := by
  unfold arrayExpression; infer_instance

/-! ## Parentheses and arrow functions -/

instance keeps_noteParameters {items : List ParenthesizedItem} {comma : Option Nat} :
    Keeps inv (noteParameters items comma) := by
  unfold noteParameters; infer_instance

instance keeps_branches : Keeps inv g.branches := by unfold branches; infer_instance

instance keeps_assignmentRest {start : Nat} {target : ExprSyntax} :
    Keeps inv (g.assignmentRest start target) := by
  unfold assignmentRest
  repeat' first | infer_instance | split | refine .seq ?_ fun _ => ?_

instance keeps_looseArgument {start : Nat} : Keeps inv (g.looseArgument start) := by
  unfold looseArgument; infer_instance

instance keeps_typedItem {patternStart : Nat} {item : ArgumentSyntax} :
    Keeps inv (g.typedItem patternStart item) := by
  unfold typedItem; infer_instance

instance keeps_parenthesizedItem {items : List ParenthesizedItem} :
    Keeps inv (g.parenthesizedItem items) := by
  unfold parenthesizedItem
  have hbegin : ∀ start, Keeps inv
      (modify fun state => { state with arrowStart := some start } : Parser PUnit) :=
    fun start => keeps_modify fun state => hinv.frame state.context _ state.labels
  repeat' first | infer_instance | split | refine .seq ?_ fun _ => ?_

instance keeps_parenthesizedItems : Keeps inv g.parenthesizedItems := by
  unfold parenthesizedItems; infer_instance

instance keeps_parenthesizedOperand {start : Nat} {isCall : Bool} {items : List ParenthesizedItem} :
    Keeps inv (parenthesizedOperand start isCall items) := by
  unfold parenthesizedOperand
  refine .seq (.over fun item _ => ?_) fun _ => .seq inferInstance fun span => ?_
  · split <;> infer_instance
  · split
    · infer_instance
    · split
      · infer_instance
      · infer_instance
      · refine .seq (.over fun item _ => ?_) inferInstance
        split <;> infer_instance

instance keeps_arrowRest {start : Nat} {isAsync : Bool} {items : List ParenthesizedItem}
    {comma : Option Nat} :
    Keeps inv (g.arrowRest start isAsync items comma) := by
  unfold arrowRest; infer_instance

instance keeps_parenthesized {canBeArrow : Bool} {asyncStart : Option Nat} :
    Keeps inv (g.parenthesized canBeArrow asyncStart) := by
  unfold parenthesized
  repeat' first | infer_instance | split | refine .seq ?_ fun _ => ?_

instance keeps_asyncOperand {canBeArrow : Bool} : Keeps inv (g.asyncOperand canBeArrow) := by
  unfold asyncOperand
  infer_instance

instance keeps_asyncRest {start : Nat} {async : ExprSyntax} :
    Keeps inv (g.asyncRest start async) := by
  unfold asyncRest; infer_instance

instance keeps_namedOperand {start : Nat} {canBeArrow : Bool} :
    Keeps inv (g.namedOperand start canBeArrow) := by
  unfold namedOperand; infer_instance

/-! ## Operands -/

instance keeps_noteFlags {place : Nat} {flags : String} : Keeps inv (noteFlags place flags) := by
  unfold noteFlags
  have hrest : ∀ flags, Keeps inv (noteFlags.noteRest place flags) := by
    intro flags
    induction flags with
    | nil => exact keeps_pure
    | cons flag rest ih =>
      unfold noteFlags.noteRest
      infer_instance
  exact hrest flags.toList

instance keeps_markedOperand {start : Nat} {canBeArrow : Bool} :
    Keeps inv (g.markedOperand start canBeArrow) := by
  unfold markedOperand; infer_instance

instance keeps_operand : Keeps inv g.operand := by
  unfold operand
  refine .seq inferInstance fun start => .seq inferInstance fun state => ?_
  extract_lets canBeArrow behindAsync behindSlash
  have hbehindAsync : Keeps inv (behindAsync ()) := inferInstance
  have hbehindSlash : Keeps inv (behindSlash ()) := by
    repeat' first | infer_instance | split | refine .seq ?_ fun _ => ?_
  refine ⟨yields_found (fun state lexeme hstate hcurrent hspells => ?_) hbehindSlash.yields⟩
  exact hbehindSlash.yields _ (hinv.reread hstate hcurrent hspells)

/-! ## Members, calls and `new` -/

instance keeps_importOperand {callAllowed : Bool} : Keeps inv (g.importOperand callAllowed) := by
  unfold importOperand
  repeat' first | infer_instance | split | refine .seq ?_ fun _ => ?_

instance keeps_newOperand {start : Nat} : Keeps inv (g.newOperand start) := by
  unfold newOperand
  repeat' first | infer_instance | split | refine .seq ?_ fun _ => ?_

instance keeps_memberStep : Keeps inv g.memberStep := by
  unfold memberStep
  infer_instance

instance keeps_leftHandSideStep : Keeps inv g.leftHandSideStep := by
  unfold leftHandSideStep
  repeat' first | infer_instance | split | refine .seq ?_ fun _ => ?_

/-! ## Operators -/

instance keeps_awaitRest {start : Nat} : Keeps inv (g.awaitRest start) := by
  unfold awaitRest; infer_instance

instance keeps_awaitExpression : Keeps inv g.awaitExpression := by
  unfold awaitExpression; infer_instance

instance keeps_yieldExpression : Keeps inv g.yieldExpression := by
  unfold yieldExpression
  refine .seq inferInstance fun start => .seq inferInstance fun _ =>
    .seq inferInstance fun state => ?_
  extract_lets context whole behindStart behindFault
  have hbehindStart : ∀ startsOperand, Keeps inv (behindStart startsOperand) := by
    intro startsOperand
    cases startsOperand <;> infer_instance
  have hbehindFault : Keeps inv (behindFault ()) := by
    refine .seq inferInstance fun isEnd => ?_
    split
    · infer_instance
    · refine .seq inferInstance fun token => ?_
      split <;> infer_instance
  infer_instance

instance keeps_noteDeleted {expression : ExprSyntax} : Keeps inv (noteDeleted expression) := by
  unfold noteDeleted
  repeat' first | infer_instance | split

instance keeps_unaryStep : Keeps inv g.unaryStep := by
  unfold unaryStep
  infer_instance

instance keeps_noteMixed {operator : String} {start : Nat} {left right : ExprSyntax} :
    Keeps inv (noteMixed operator start left right) := by
  unfold noteMixed
  repeat' first | infer_instance | split

instance keeps_castRest {inner : ExprSyntax} : Keeps inv (g.castRest inner) := by
  unfold castRest; infer_instance

instance keeps_operatorStep {left : ExprSyntax} {least : Nat} :
    Keeps inv (g.operatorStep left least) := by
  unfold operatorStep
  extract_lets start behindOperator behindCast
  have hbehindOperator : ∀ operator?, Keeps inv (behindOperator operator?) := by
    intro operator?
    obtain _ | ⟨operator, precedence⟩ := operator? <;> infer_instance
  have hbehindCast : Keeps inv (behindCast ()) := by
    refine .seq inferInstance fun _ => .seq inferInstance fun token => ?_
    repeat' first | infer_instance | split
  infer_instance

instance keeps_operatorsStep {left : ExprSyntax} {least : Nat} :
    Keeps inv (g.operatorsStep left least) := by
  unfold operatorsStep; infer_instance

instance keeps_binaryStep : Keeps inv g.binaryStep := by
  unfold binaryStep
  infer_instance

instance keeps_conditional : Keeps inv g.conditional := by
  unfold conditional
  infer_instance

instance keeps_genericArrow? : Keeps inv g.genericArrow? := by
  unfold genericArrow?
  have harrow : ∀ (start : Nat) (value : ExprSyntax), Keeps inv (match value with
      | .arrow _ => do return some (ExprSyntax.arrow (← spanFrom start))
      | _ => unexpected "(") := by
    intro start value
    split <;> infer_instance
  infer_instance

instance keeps_assignmentStep : Keeps inv g.assignmentStep := by
  unfold assignmentStep
  have hbegin : ∀ start, Keeps inv
      (modify fun state => { state with arrowStart := start } : Parser PUnit) :=
    fun start => keeps_modify fun state => hinv.frame state.context _ state.labels
  refine .seq inferInstance fun arrow => ?_
  split
  · infer_instance
  · repeat' first | infer_instance | split | refine .seq ?_ fun _ => ?_

end Declutter.Syntax.Grammar
