import Declutter.Proofs.Parsing.Types
import Declutter.Syntax.Calls

/-!
# What calls and members are read as

Of what stands behind an operand only that matters which names of an `extends` clause are made of:
the first part of such a name is a word that was read, and its type arguments are regular. All
other functions of `Syntax/Functions` and `Syntax/Calls` keep an invariant, which is all that is
said of them.
-/

set_option synthInstance.maxSize 1000000

namespace Declutter.Syntax

/-! ## Regular names -/

/-- An expression that has regular type arguments and begins with a word of a sort, if it is a name
with members or type arguments behind it. -/
def ExprSyntax.Regular (word : String → Prop) : ExprSyntax → Prop
  | .name _ text => word text
  | .member _ inner _ => inner.Regular word
  | .instantiation _ inner arguments =>
    inner.Regular word ∧ ∀ type ∈ arguments, type.Regular word
  | _ => True

/-- A property of all expressions that are neither names nor written with type arguments. -/
class ExprSyntax.Nameless (P : ExprSyntax → Prop) : Prop where
  arrow (span : Span) : P (.arrow span)
  call (span : Span) : P (.call span)
  optionalChain (span : Span) (isCall : Bool) : P (.optionalChain span isCall)
  other (span : Span) : P (.other span)

instance {word : String → Prop} : ExprSyntax.Nameless (·.Regular word) :=
  ⟨fun _ => trivial, fun _ => trivial, fun _ _ => trivial, fun _ => trivial⟩

/-- A name of an `extends` clause that begins with a word of a sort and has regular arguments. -/
structure HeritageSyntax.Regular (word : String → Prop) (item : HeritageSyntax) : Prop where
  expression : item.expression.Regular word
  arguments : ∀ type ∈ item.arguments, type.Regular word

namespace Grammar

open Declutter.Syntax.Parser

def Callee.Regular (word : String → Prop) : Callee → Prop
  | .operand expression => expression.Regular word
  | .super _ | .importing _ => True

variable {inv : State → Prop} [hinv : Invariant inv] {g : Grammar} [hg : Sound inv g]

/-! ## Functions -/

instance keeps_itemsToBrace {item : Parser ItemSyntax} [Keeps inv item] :
    Keeps inv (itemsToBrace item) := by
  unfold itemsToBrace; infer_instance

instance keeps_block : Keeps inv g.block := by unfold block; infer_instance

instance keeps_bodyBlock {hasSimpleParameters : Bool} :
    Keeps inv (g.bodyBlock hasSimpleParameters) := by
  unfold bodyBlock
  repeat' first | infer_instance | split | refine .seq ?_ fun _ => ?_

instance keeps_withoutLabels {α : Type} {parser : Parser α} [hparser : Keeps inv parser] :
    Keeps inv (withoutLabels parser) :=
  ⟨yields_of_run (fun state => hinv.frame state.context none [])
    (fun state after _ => hinv.frame after.context state.arrowStart state.labels)
    (fun _ => rfl) hparser.yields⟩

instance keeps_inBody {α : Type} {isAsync isGenerator isArrow : Bool} {parser : Parser α}
    [Keeps inv parser] : Keeps inv (inBody isAsync isGenerator isArrow parser) := by
  unfold inBody; infer_instance

instance keeps_functionBody {isAsync isGenerator hasSimpleParameters : Bool} :
    Keeps inv (g.functionBody isAsync isGenerator hasSimpleParameters) := by
  unfold functionBody; infer_instance

instance keeps_arrowBody {isAsync hasSimpleParameters : Bool} :
    Keeps inv (g.arrowBody isAsync hasSimpleParameters) := by
  unfold arrowBody; infer_instance

instance keeps_inFunction {α : Type} {isAsync isGenerator : Bool} {parser : Parser α}
    [Keeps inv parser] : Keeps inv (inFunction isAsync isGenerator parser) := by
  unfold inFunction; infer_instance

instance keeps_functionRest {isAsync isGenerator : Bool}
    {parameters : Parser (List PatternSyntax)} [Keeps inv parameters] :
    Keeps inv (g.functionRest isAsync isGenerator parameters) := by
  unfold functionRest; infer_instance

instance keeps_function {isAsync nameNeeded bodyNeeded : Bool} :
    Keeps inv (g.function isAsync nameNeeded bodyNeeded) := by
  unfold function; infer_instance

instance keeps_functionDeclaration {nameNeeded : Bool} :
    Keeps inv (g.functionDeclaration nameNeeded) := by
  unfold functionDeclaration; infer_instance

instance keeps_atAsyncFunction : Keeps inv atAsyncFunction := by
  unfold atAsyncFunction; infer_instance

/-! ## Arguments and templates -/

instance keeps_expression : Keeps inv g.expression := by unfold expression; infer_instance

instance keeps_argument : Keeps inv g.argument := by unfold argument; infer_instance

instance keeps_callArguments : Keeps inv g.callArguments := by
  unfold callArguments; infer_instance

instance keeps_template {isTagged : Bool} : Keeps inv (g.template isTagged) := by
  unfold template; infer_instance

instance keeps_endsInstantiation : Keeps inv endsInstantiation := by
  unfold endsInstantiation
  repeat' first | infer_instance | split | refine .seq ?_ fun _ => ?_

/-! ## Names of an `extends` clause -/

theorem yields_genericAsyncArrow {P : ExprSyntax → Prop} [hP : ExprSyntax.Nameless P]
    {start : Nat} :
    Yields inv (fun expression => ∀ e ∈ expression, P e) (g.genericAsyncArrow start) := by
  unfold genericAsyncArrow
  refine .skip fun _ => .ite (fun _ => .skip fun parameters => ?_) fun _ => .none
  cases parameters with
  | none => exact .none
  | some parameters =>
    refine .skip fun _ => .skip fun span => .pure ?_
    rintro _ ⟨⟩
    exact hP.arrow span

theorem yields_freeArguments? :
    Yields inv (fun types => ∀ ts ∈ types, ∀ type ∈ ts, type.Regular (Occurs inv))
      g.freeArguments? := by
  unfold freeArguments?
  refine .skip fun _ => .ite (fun _ => yields_attempt ?_) fun _ => .none
  refine .bind yields_typeArguments fun types htypes => .skip fun _ => .pure fun ts hts => ?_
  split at hts
  · obtain rfl := Option.some.inj hts
    exact htypes
  · cases hts

instance keeps_freeArguments? : Keeps inv g.freeArguments? := yields_freeArguments?.keeps

omit hinv in
theorem yields_instantiated {start : Nat} {expression : ExprSyntax}
    {arguments : Option (List TypeSyntax)}
    (h : ∀ types ∈ arguments, ∀ type ∈ types, type.Regular (Occurs inv)) :
    Yields inv (fun e => expression.Regular (Occurs inv) → e.Regular (Occurs inv))
      (instantiated start expression arguments) := by
  unfold instantiated
  cases arguments with
  | none => exact .pure fun hexpression => hexpression
  | some types => exact .skip fun _ => .pure fun hexpression => ⟨hexpression, h types rfl⟩

instance keeps_instantiated {start : Nat} {expression : ExprSyntax}
    {arguments : Option (List TypeSyntax)} :
    Keeps inv (instantiated start expression arguments) := by
  unfold instantiated
  cases arguments <;> infer_instance

theorem yields_taggedTemplate {P : ExprSyntax → Prop} [hP : ExprSyntax.Nameless P] {start : Nat}
    {tag : ExprSyntax} : Yields inv P (g.taggedTemplate start tag) := by
  unfold taggedTemplate
  refine .skip fun _ => ?_
  split
  · exact .skip fun _ => .skip fun span => .pure (hP.other span)
  · exact .skip fun span => .pure (hP.other span)

theorem yields_callFrom {P : ExprSyntax → Prop} [hP : ExprSyntax.Nameless P] {start : Nat}
    {callee : Callee} : Yields inv P (g.callFrom start callee) := by
  unfold callFrom
  refine .skip fun _ => .skip fun span => .pure ?_
  split
  · exact hP.optionalChain span true
  · exact hP.call span

theorem yields_appliedArguments {start : Nat} {object : ExprSyntax} {callAllowed : Bool} :
    Yields inv (fun result => ∀ r ∈ result,
        object.Regular (Occurs inv) → r.1.Regular (Occurs inv))
      (g.appliedArguments start object callAllowed) := by
  unfold appliedArguments
  refine yields_within (yields_attempt (.skip fun isArrow => ?_))
  have hgiven : ∀ (e : ExprSyntax) (isEnd : Bool), e.Regular (Occurs inv) →
      ∀ r ∈ some (e, isEnd), object.Regular (Occurs inv) → r.1.Regular (Occurs inv) := by
    rintro e isEnd he _ ⟨⟩ _
    exact he
  refine .ite (fun _ => .bind (P := fun arrow => ∀ e ∈ arrow, e.Regular (Occurs inv))
    yields_genericAsyncArrow fun arrow harrow => ?_) fun _ => ?_
  cases arrow
  case some arrow => exact .pure (hgiven arrow true (harrow arrow rfl))
  -- the arguments are read, be there no arrow function or none to look for
  all_goals
    refine .bind yields_typeArguments fun types htypes => .skip fun _ => .ite (fun _ =>
      .bind (P := (·.Regular (Occurs inv))) yields_callFrom fun call hcall =>
        .pure (hgiven call true hcall)) fun _ => ?_
    refine .skip fun _ => .ite (fun _ => .bind (P := (·.Regular (Occurs inv)))
      yields_taggedTemplate fun tagged htagged => .pure (hgiven tagged true htagged)) fun _ => ?_
    refine .skip fun _ => .ite (fun _ => .skip fun span => .pure ?_) fun _ => .none
    rintro _ ⟨⟩ hobject
    exact ⟨hobject, htypes⟩

theorem yields_memberOf {start : Nat} {callee : Callee} {isOptional callAllowed : Bool}
    {make : Span → ExprSyntax → ExprSyntax}
    (hmake : ∀ span expression, expression.Regular (Occurs inv) →
      (make span expression).Regular (Occurs inv)) :
    Yields inv (fun e => callee.Regular (Occurs inv) → e.Regular (Occurs inv))
      (g.memberOf start callee isOptional callAllowed make) := by
  unfold memberOf
  refine .skip fun span => .bind yields_freeArguments? fun arguments harguments => ?_
  cases callee with
  | operand object =>
    refine (yields_instantiated harguments).mono fun e he hobject => he ?_
    split
    · trivial
    · exact hmake span object hobject
  | super span =>
    exact .ite (fun _ => .skip fun _ => .pure fun _ => trivial) fun _ => .pure fun _ => trivial
  | importing span => exact .pure fun _ => trivial

/-- What is read behind something begins like it and has regular arguments. -/
def Callee.Extends (word : String → Prop) (callee : Callee) (read : ExprSyntax × Bool) : Prop :=
  callee.Regular word → read.1.Regular word

/-- One member, element, call or template behind an operand. The steps of the reading are named and
taken from the last to the first, since each goes on with those behind it. -/
theorem yields_subscript {start : Nat} {callee : Callee} {callAllowed elementAllowed : Bool} :
    Yields inv (callee.Extends (Occurs inv))
      (g.subscript start callee callAllowed elementAllowed) := by
  unfold subscript
  refine .skip fun _ => .skip fun _ => ?_
  extract_lets behindApplied behindAssertion
  have hbehindApplied : ∀ u, Yields inv (callee.Extends (Occurs inv)) (behindApplied u) := by
    intro u
    refine .bind yields_freeArguments? fun arguments harguments => ?_
    extract_lets behindMember behindImport
    have hbehindMember : ∀ u, Yields inv (callee.Extends (Occurs inv)) (behindMember u) := by
      intro u
      cases callee with
      | operand object =>
        refine .bind (yields_instantiated harguments) fun read hread => .skip fun _ =>
          .ite (fun _ => ?_) fun _ => .pure hread
        exact .bind (P := (·.Regular (Occurs inv))) yields_taggedTemplate fun tagged htagged =>
          .pure fun _ => htagged
      | super span => exact yields_failHere
      | importing span => exact yields_failHere
    have hbehindImport : ∀ u, Yields inv (callee.Extends (Occurs inv)) (behindImport u) := by
      intro u
      refine .skip fun isOptional => ?_
      extract_lets isOptionalBefore plain optionalCall behindElement element behindMark
      have hplain : ∀ u, Yields inv (callee.Extends (Occurs inv)) (plain u) := by
        intro u
        refine .skip fun _ => .ite (fun _ => .bind (P := (·.Regular (Occurs inv))) yields_callFrom
          fun call hcall => .pure fun _ => hcall) fun _ => .skip fun _ => .ite (fun _ => ?_)
            fun _ => hbehindMember ()
        refine .skip fun _ => .skip fun name => .bind (yields_memberOf fun _ _ h => h)
          fun read hread => ?_
        split
        · exact .pure hread
        · exact .pure hread
        · exact .pure hread
        · exact .never yields_unexpected
        · exact .never yields_failHere
      have hoptionalCall : ∀ u, Yields inv (callee.Extends (Occurs inv)) (optionalCall u) := by
        intro u
        refine .skip fun _ => ?_
        split
        · exact .skip fun _ => .pure fun _ => trivial
        · exact .never yields_failHere
      have hisOptionalBefore : ∀ text, Keeps inv (isOptionalBefore text) := fun _ => inferInstance
      have hbehindElement : ∀ u, Yields inv (callee.Extends (Occurs inv)) (behindElement u) := by
        intro u
        refine .skip fun _ => .skip fun _ => .ite (fun _ => ?_) fun _ => hplain ()
        exact .skip fun _ => .skip fun _ => .ite
          (fun _ => .skip fun _ => hoptionalCall ()) fun _ => hoptionalCall ()
      have helement : ∀ u, Yields inv (callee.Extends (Occurs inv)) (element u) := by
        intro u
        refine .skip fun _ => .ite (fun _ => .skip fun _ => .skip fun _ => ?_)
          fun _ => hbehindElement ()
        exact .bind (yields_memberOf fun _ _ _ => trivial) fun read hread => .pure hread
      have hbehindMark : ∀ u, Yields inv (callee.Extends (Occurs inv)) (behindMark u) := by
        intro u
        refine .ite (fun _ => .skip fun _ => ?_) fun _ => hbehindElement ()
        exact .ite (fun _ => .skip fun _ => helement ()) fun _ => helement ()
      exact .ite (fun _ => .skip fun _ => hbehindMark ()) fun _ => hbehindMark ()
    cases callee with
    | importing span =>
      exact .skip fun _ => .ite (fun _ => hbehindImport ()) fun _ => .never yields_unexpected
    | operand object => exact hbehindImport ()
    | super span => exact hbehindImport ()
  have hbehindAssertion : ∀ u, Yields inv (callee.Extends (Occurs inv)) (behindAssertion u) := by
    intro u
    cases callee with
    | operand object =>
      exact .skip fun _ => .ite (fun _ => .given yields_appliedArguments
        (fun result hresult => .pure hresult) (hbehindApplied ())) fun _ => hbehindApplied ()
    | super span => exact hbehindApplied ()
    | importing span => exact hbehindApplied ()
  refine .ite (fun _ => keeps_endOperand.yields.bind fun _ _ => .skip fun _ => ?_)
    fun _ => hbehindAssertion ()
  cases callee with
  | operand object => exact .skip fun _ => .pure fun _ => trivial
  | super span => exact .skip fun _ => .never yields_failAt
  | importing span => exact .skip fun _ => .never yields_failAt

theorem yields_subscripts {callee : Callee} {callAllowed elementAllowed : Bool} :
    Yields inv (fun e => callee.Regular (Occurs inv) → e.Regular (Occurs inv))
      (g.subscripts callee callAllowed elementAllowed) := by
  unfold subscripts
  refine .bind (P := fun read => callee.Regular (Occurs inv) → read.1.Regular (Occurs inv))
    (yields_iterate (fun hcallee => hcallee) fun read hread => ?_) fun read hread => ?_
  · refine .ite (fun _ => .none) fun _ => .bind yields_subscript fun next hnext => .pure ?_
    rintro _ ⟨⟩ hcallee
    exact hnext (hread hcallee)
  · obtain ⟨callee' | span | span, goesOn⟩ := read
    · exact .pure hread
    · exact .pure fun _ => trivial
    · exact .pure fun _ => trivial

instance keeps_subscripts {callee : Callee} {callAllowed elementAllowed : Bool} :
    Keeps inv (g.subscripts callee callAllowed elementAllowed) := yields_subscripts.keeps

theorem yields_heritage : Yields inv (·.Regular (Occurs inv)) g.heritage := by
  unfold heritage
  refine .skip fun start => .bind yields_word fun text htext => .skip fun span =>
    .bind yields_subscripts fun expression hexpression => ?_
  have hregular : expression.Regular (Occurs inv) := hexpression htext
  extract_lets pair behindExpression
  have hbehindExpression : ∀ u, Yields inv (·.Regular (Occurs inv)) (behindExpression u) := by
    intro u
    refine .skip fun _ => .ite (fun _ => .bind yields_typeArguments fun types htypes =>
      .pure ⟨hregular, htypes⟩) fun _ => .pure ⟨hregular, nofun⟩
  split
  · exact .pure ⟨hregular.1, hregular.2⟩
  · exact hbehindExpression ()
  · exact hbehindExpression ()
  · exact .skip fun _ => hbehindExpression ()

theorem yields_heritageList :
    Yields inv (fun items => ∀ item ∈ items, item.Regular (Occurs inv)) g.heritageList := by
  unfold heritageList
  exact yields_commaList yields_heritage

instance keeps_heritageList : Keeps inv g.heritageList := yields_heritageList.keeps

end Grammar

end Declutter.Syntax
