import Declutter.Proofs.Parsing.NestedTypes
import Declutter.Proofs.Parsing.Statements

/-!
# Where the members inside of items lie

Every member that is nested in a declaration lies in front of the end of the declaration, those in
the type arguments of an `extends` clause included. So it does of what a text is read as:
`Source.within_of_parse`.
-/

set_option synthInstance.maxSize 1000000

namespace Declutter.Syntax

/-! ## Type arguments within a place -/

/-- An expression with type arguments that have been passed by, if it ends in any. -/
def ExprSyntax.Passed (v : Extent) : ExprSyntax → Prop
  | .instantiation _ _ arguments => ∀ type ∈ arguments, type.Passed v
  | _ => True

/-- A name of an `extends` clause with type arguments that have been passed by. -/
def HeritageSyntax.Passed (v : Extent) (item : HeritageSyntax) : Prop :=
  ∀ type ∈ item.arguments, type.Passed v

theorem ExprSyntax.lasts_passed : Lasts ExprSyntax.Passed := by
  intro v w expression hle h
  cases expression <;> first
    | trivial
    | exact fun type hmem => TypeSyntax.lasts_passed v w type hle (h type hmem)

theorem HeritageSyntax.lasts_passed : Lasts HeritageSyntax.Passed :=
  fun v w _ hle h type hmem => TypeSyntax.lasts_passed v w type hle (h type hmem)

instance {v : Extent} : ExprSyntax.Nameless (·.Passed v) :=
  ⟨fun _ => trivial, fun _ => trivial, fun _ _ => trivial, fun _ => trivial⟩

namespace Grammar

open Declutter.Syntax.Parser

def Callee.Passed (v : Extent) : Callee → Prop
  | .operand expression => expression.Passed v
  | .super _ | .importing _ => True

/-- What is read behind an operand, and whether it goes on. -/
def ReadPassed (v : Extent) (read : ExprSyntax × Bool) : Prop := read.1.Passed v

theorem Callee.lasts_passed : Lasts Callee.Passed := by
  intro v w callee hle h
  cases callee with
  | operand expression => exact ExprSyntax.lasts_passed v w expression hle h
  | super span => trivial
  | importing span => trivial

variable {w : Extent} {g : Grammar} [hg : Placed g]

theorem reaches_freeArguments? :
    Reaches w (fun v types => ∀ ts ∈ types, ∀ type ∈ ts, type.Passed v) g.freeArguments? := by
  unfold freeArguments?
  refine .skip fun _ => .ite (fun _ => reaches_attempt ?_) fun _ => .none
  refine .bind reaches_typeArguments fun types v _ htypes => .skip fun _ => .pure fun ts hts => ?_
  split at hts
  · obtain rfl := Option.some.inj hts
    exact htypes
  · cases hts

omit hg in
theorem reaches_instantiated {start : Nat} {expression : ExprSyntax}
    {arguments : Option (List TypeSyntax)} (hexpression : expression.Passed w)
    (harguments : ∀ types ∈ arguments, ∀ type ∈ types, type.Passed w) :
    Reaches w ExprSyntax.Passed (instantiated start expression arguments) := by
  unfold instantiated
  cases arguments with
  | none => exact .pure hexpression
  | some types => exact .skip fun _ => .pure (harguments types rfl)

theorem reaches_taggedTemplate {start : Nat} {tag : ExprSyntax} :
    Reaches w ExprSyntax.Passed (g.taggedTemplate start tag) :=
  .of_yields yields_taggedTemplate fun _ => id

theorem reaches_callFrom {start : Nat} {callee : Callee} :
    Reaches w ExprSyntax.Passed (g.callFrom start callee) :=
  .of_yields yields_callFrom fun _ => id

theorem reaches_genericAsyncArrow {start : Nat} :
    Reaches w (fun v arrow => ∀ a ∈ arrow, a.Passed v) (g.genericAsyncArrow start) :=
  .of_yields (yields_genericAsyncArrow (P := (·.Passed w))) fun _ => id

theorem reaches_appliedArguments {start : Nat} {object : ExprSyntax} {callAllowed : Bool} :
    Reaches w (fun v result => ∀ r ∈ result, ReadPassed v r)
      (g.appliedArguments start object callAllowed) := by
  unfold appliedArguments
  have hgiven : ∀ (v : Extent) (e : ExprSyntax) (isEnd : Bool), e.Passed v →
      ∀ r ∈ some (e, isEnd), ReadPassed v r := by
    rintro v e isEnd he _ ⟨⟩
    exact he
  refine reaches_within (reaches_attempt (.skip fun isArrow => ?_))
  extract_lets behindArrow
  have hbehindArrow : ∀ v, Reaches v (fun v result => ∀ r ∈ result, ReadPassed v r)
      (behindArrow ()) := by
    intro v
    refine .bind reaches_typeArguments fun types u _ htypes => .skip fun _ => .ite (fun _ =>
      .bind reaches_callFrom fun call x _ hcall => .pure (hgiven x call true hcall)) fun _ => ?_
    refine .skip fun _ => .ite (fun _ => .bind reaches_taggedTemplate fun tagged x _ htagged =>
      .pure (hgiven x tagged true htagged)) fun _ => ?_
    refine .skip fun _ => .ite (fun _ => .skip fun span => .pure ?_) fun _ => .none
    exact hgiven u _ false htypes
  refine .ite (fun _ => .given reaches_genericAsyncArrow (fun arrow v _ harrow => ?_)
    fun v _ => hbehindArrow v) fun _ => hbehindArrow w
  exact .pure (hgiven v arrow true harrow)

theorem reaches_memberOf {start : Nat} {callee : Callee} {isOptional callAllowed : Bool}
    {make : Span → ExprSyntax → ExprSyntax}
    (hmake : ∀ v span expression, (make span expression).Passed v) :
    Reaches w ExprSyntax.Passed (g.memberOf start callee isOptional callAllowed make) := by
  unfold memberOf
  refine .skip fun span => .bind reaches_freeArguments? fun arguments v _ harguments => ?_
  cases callee with
  | operand object =>
    refine reaches_instantiated ?_ harguments
    split
    · trivial
    · exact hmake v span object
  | super span => exact .ite (fun _ => .skip fun _ => .pure trivial) fun _ => .pure trivial
  | importing span => exact .pure trivial

/-- What stands behind an operand keeps the type arguments of the operand, or has its own. The steps
of the reading are named and taken from the last to the first. -/
theorem reaches_subscript {start : Nat} {callee : Callee} {callAllowed elementAllowed : Bool}
    (hcallee : callee.Passed w) :
    Reaches w ReadPassed (g.subscript start callee callAllowed elementAllowed) := by
  unfold subscript
  refine .skip fun _ => .skip fun _ => ?_
  extract_lets behindApplied behindAssertion
  have hgiven : ∀ (v : Extent) (e : ExprSyntax) (goesOn : Bool), e.Passed v →
      Reaches v ReadPassed (pure (e, goesOn) : Parser (ExprSyntax × Bool)) :=
    fun _ _ _ he => .pure he
  have hbehindApplied : ∀ v, callee.Passed v → Reaches v ReadPassed (behindApplied ()) := by
    intro v hcallee
    refine .bind reaches_freeArguments? fun arguments u hu harguments => ?_
    extract_lets behindMember behindImport
    have hbehindMember : Reaches u ReadPassed (behindMember ()) := by
      -- Nothing follows, and the type arguments are those of the operand; or a template follows.
      cases callee with
      | operand object =>
        refine .bind (reaches_instantiated (ExprSyntax.lasts_passed v u object hu hcallee)
          harguments) fun read x _ hread => .skip fun _ => .ite (fun _ => ?_)
            fun _ => hgiven x read false hread
        exact .bind reaches_taggedTemplate fun tagged x _ htagged => hgiven x tagged true htagged
      | super span => exact .of_never yields_failHere
      | importing span => exact .of_never yields_failHere
    have hbehindImport : Reaches u ReadPassed (behindImport ()) := by
      refine .skip fun isOptional => ?_
      extract_lets isOptionalBefore plain optionalCall behindElement element behindMark
      have hplain : Reaches u ReadPassed (plain ()) := by
        -- A call, or a member behind a point.
        refine .skip fun _ => .ite (fun _ => .bind reaches_callFrom fun call x _ hcall =>
          hgiven x call true hcall) fun _ => .skip fun _ => .ite (fun _ => ?_)
            fun _ => hbehindMember
        refine .skip fun _ => .skip fun name => .bind (reaches_memberOf fun _ _ _ => trivial)
          fun read x _ hread => ?_
        split
        · exact hgiven x read true hread
        · exact hgiven x read true hread
        · exact hgiven x read true hread
        · exact .never yields_unexpected
        · exact .never yields_failHere
      have hoptionalCall : Reaches u ReadPassed (optionalCall ()) := by
        -- The arguments of `a?.<T>(b)` are given up, and nothing of them is kept.
        refine .skip fun _ => ?_
        split
        · exact .skip fun _ => hgiven u _ true trivial
        · exact .never yields_failHere
      have hisOptionalBefore : ∀ text, Keeps (State.Past u) (isOptionalBefore text) :=
        fun _ => inferInstance
      have hbehindElement : Reaches u ReadPassed (behindElement ()) := by
        refine .skip fun _ => .skip fun _ => .ite (fun _ => ?_) fun _ => hplain
        exact .skip fun _ => .skip fun _ => .ite
          (fun _ => .skip fun _ => hoptionalCall) fun _ => hoptionalCall
      have helement : Reaches u ReadPassed (element ()) := by
        refine .skip fun _ => .ite (fun _ => .skip fun _ => .skip fun _ => ?_)
          fun _ => hbehindElement
        exact .bind (reaches_memberOf fun _ _ _ => trivial) fun read x _ hread =>
          hgiven x read true hread
      have hbehindMark : Reaches u ReadPassed (behindMark ()) := by
        refine .ite (fun _ => .skip fun _ => ?_) fun _ => hbehindElement
        exact .ite (fun _ => .skip fun _ => helement) fun _ => helement
      exact .ite (fun _ => .skip fun _ => hbehindMark) fun _ => hbehindMark
    cases callee with
    | importing span =>
      exact .skip fun _ => .ite (fun _ => hbehindImport) fun _ => .never yields_unexpected
    | operand object => exact hbehindImport
    | super span => exact hbehindImport
  have hbehindAssertion : Reaches w ReadPassed (behindAssertion ()) := by
    -- Type arguments that are applied at once are tried, and may be given up.
    cases callee with
    | operand object =>
      refine .skip fun _ => .ite (fun _ => .given reaches_appliedArguments
        (fun result v _ hresult => .pure hresult) fun v hv => ?_)
          fun _ => hbehindApplied w hcallee
      exact hbehindApplied v (ExprSyntax.lasts_passed w v object hv hcallee)
    | super span => exact hbehindApplied w trivial
    | importing span => exact hbehindApplied w trivial
  refine .ite (fun _ => .skip fun _ => .skip fun _ => ?_) fun _ => hbehindAssertion
  cases callee with
  | operand object => exact .skip fun _ => hgiven w _ true trivial
  | super span => exact .skip fun _ => .never yields_failAt
  | importing span => exact .skip fun _ => .never yields_failAt

theorem reaches_subscripts {callee : Callee} {callAllowed elementAllowed : Bool}
    (hcallee : callee.Passed w) :
    Reaches w ExprSyntax.Passed (g.subscripts callee callAllowed elementAllowed) := by
  unfold subscripts
  have hlasts : Lasts fun v (read : Callee × Bool) => read.1.Passed v :=
    fun v u read hle h => Callee.lasts_passed v u read.1 hle h
  refine .bind (P := fun v read => read.1.Passed v) (reaches_iterate hlasts hcallee
    fun read v _ hread => ?_) fun read v _ hread => ?_
  · refine .ite (fun _ => .none) fun _ => .bind (reaches_subscript hread) fun next u _ hnext =>
      .pure ?_
    rintro _ ⟨⟩
    exact hnext
  · obtain ⟨expression | span | span, goesOn⟩ := read
    · exact .pure hread
    · exact .pure trivial
    · exact .pure trivial

/-- The arguments of a name are those it ends in, or others behind it. -/
theorem reaches_heritage : Reaches w HeritageSyntax.Passed g.heritage := by
  unfold heritage
  refine .skip fun start => .skip fun text => .skip fun span =>
    .bind (reaches_subscripts trivial) fun expression v _ hexpression => ?_
  extract_lets pair behindExpression
  have hbehindExpression : Reaches v HeritageSyntax.Passed (behindExpression ()) := by
    refine .skip fun _ => .ite (fun _ => ?_) fun _ => .pure (List.forall_mem_nil _)
    exact .bind reaches_typeArguments fun types u _ htypes => .pure htypes
  split
  · exact .pure hexpression
  · exact hbehindExpression
  · exact hbehindExpression
  · exact .skip fun _ => hbehindExpression

theorem reaches_heritageList :
    Reaches w (fun v items => ∀ item ∈ items, item.Passed v) g.heritageList := by
  unfold heritageList
  exact reaches_commaList HeritageSyntax.lasts_passed fun _ => reaches_heritage

end Grammar

/-! ## Items within a place -/

/-- An item none of whose members, however deep, goes beyond a place. -/
def ItemSyntax.Within (place : Nat) : ItemSyntax → Prop
  | .alias _ _ _ type => type.Within place
  | .interface _ _ _ heritage members =>
    (∀ item ∈ heritage, ∀ type ∈ item.arguments, type.Within place) ∧
      ∀ member ∈ members, member.Within place
  | .empty _ | .directive _ _ | .other _ => True

/-- An item that is kept as text, with no members. -/
def ItemSyntax.IsText : ItemSyntax → Prop
  | .other _ => True
  | _ => False

/-- An item that stays within what has been passed by, and within its own end. -/
structure ItemSyntax.Passed (v : Extent) (item : ItemSyntax) : Prop where
  passed : item.Within v.passed
  ended : item.Within item.span.stop

namespace ItemSyntax

instance : KeptAsText IsText := ⟨fun _ => trivial⟩

theorem Within.mono {m n : Nat} {item : ItemSyntax} (h : item.Within m) (hle : m ≤ n) :
    item.Within n := by
  match item, h with
  | .alias span modifiers name type, h => exact TypeSyntax.Within.mono h hle
  | .interface span modifiers name heritage members, ⟨hheritage, hmembers⟩ =>
    exact ⟨fun item hitem type hmem => (hheritage item hitem type hmem).mono hle,
      fun member hmem => (hmembers member hmem).mono hle⟩
  | .empty _, _ | .directive _ _, _ | .other _, _ => trivial

theorem lasts_passed : Lasts Passed := fun _ _ _ hle h => ⟨h.passed.mono hle.passed, h.ended⟩

theorem IsText.passed {v : Extent} {item : ItemSyntax} (h : item.IsText) : item.Passed v := by
  match item, h with
  | .other span, _ => exact ⟨trivial, trivial⟩

/-- An item that ends at or behind what has been passed by. -/
theorem passed_of_le {v : Extent} {item : ItemSyntax} (hcovers : v.passed ≤ item.span.stop)
    (h : item.Within v.passed) : item.Passed v := ⟨h, h.mono hcovers⟩

theorem Within.modified {n : Nat} {item : ItemSyntax} (h : item.Within n) (modifier : Modifier)
    (span : Span) : (item.modified modifier span).Within n := by
  cases item <;> exact h

theorem span_modified (item : ItemSyntax) (modifier : Modifier) (span : Span) :
    (item.modified modifier span).span = span := by
  cases item <;> rfl

/-- A word in front of an item changes nothing of where the item ends. -/
theorem Passed.modified {v : Extent} {item : ItemSyntax} (h : item.Passed v)
    (modifier : Modifier) (start : Nat) :
    (item.modified modifier ⟨start, item.span.stop⟩).Passed v := by
  refine ⟨h.passed.modified modifier _, ?_⟩
  rw [span_modified]
  exact h.ended.modified modifier _

end ItemSyntax

namespace Grammar

open Declutter.Syntax.Parser

variable {w : Extent} {g : Grammar} [hg : Placed g]

omit hg in
theorem reaches_text {parser : Parser ItemSyntax}
    (h : Yields (State.Past w) ItemSyntax.IsText parser) : Reaches w ItemSyntax.Passed parser :=
  .of_yields h fun _ => ItemSyntax.IsText.passed

omit hg in
theorem reaches_text? {parser : Parser (Option ItemSyntax)}
    (h : Yields (State.Past w) (fun item => ∀ i ∈ item, i.IsText) parser) :
    Reaches w (fun v item => ∀ i ∈ item, i.Passed v) parser :=
  .of_yields h fun _ hitem i hmem => (hitem i hmem).passed

omit hg in
theorem reaches_other {start : Nat} :
    Reaches w ItemSyntax.Passed (do return .other (← spanFrom start)) := reaches_text yields_other

/-! ## Interfaces and aliases -/

theorem reaches_interfaceDeclaration {start : Nat} :
    Reaches w ItemSyntax.Passed (g.interfaceDeclaration start) := by
  unfold interfaceDeclaration
  refine .skip fun name => ?_
  extract_lets behindName
  have hbehindName : Reaches w ItemSyntax.Passed (behindName ()) := by
    refine .skip fun isGeneric => .skip fun _ => ?_
    extract_lets behindHeritage
    have hbehindHeritage : ∀ items v, w.Le v → (∀ item ∈ items, item.Passed v) →
        Reaches v ItemSyntax.Passed (behindHeritage items) := by
      intro items v _ hitems
      refine .skip fun _ => ?_
      extract_lets behindRepeated
      have hbehindRepeated : Reaches v ItemSyntax.Passed (behindRepeated ()) := by
        -- The end of the interface is taken behind its members, and these are behind its heritage.
        refine .bind (reaches_inType reaches_members) fun members u hu hmembers =>
          .bind reaches_spanFrom fun span x hx hspan => .pure ?_
        cases isGeneric with
        | true =>
          -- A generic interface is kept as text.
          exact ⟨trivial, trivial⟩
        | false =>
          refine ItemSyntax.passed_of_le hspan.covers ⟨fun item hitem type hmem => ?_,
            fun member hmem => (hmembers member hmem).mono hx.passed⟩
          exact TypeSyntax.lasts_passed v x type (hu.trans hx) (hitems item hitem type hmem)
      exact .ite (fun _ => .skip fun _ => .skip fun _ => hbehindRepeated) fun _ => hbehindRepeated
    refine .ite (fun _ => reaches_heritageList.bind hbehindHeritage) fun _ => ?_
    exact hbehindHeritage [] w (.refl w) (List.forall_mem_nil _)
  exact .ite (fun _ => .skip fun _ => .skip fun _ => hbehindName) fun _ => hbehindName

theorem reaches_aliasDeclaration {start : Nat} :
    Reaches w ItemSyntax.Passed (g.aliasDeclaration start) := by
  unfold aliasDeclaration
  refine .skip fun name => .skip fun isGeneric => .bind (P := TypeSyntax.Passed)
    (reaches_inType ?_) fun type v _ htype => .skip fun _ =>
      .bind reaches_spanFrom fun span u hu hspan => .pure ?_
  · exact .skip fun _ => .ite (fun _ => hg.type w) fun _ => .skip fun _ => .never yields_failHere
  · cases isGeneric with
    | true => exact ⟨trivial, trivial⟩
    | false =>
      exact ItemSyntax.passed_of_le hspan.covers (TypeSyntax.lasts_passed v u type hu htype)

/-! ## Declarations by their first word -/

theorem reaches_declarationNamed? {start : Nat} {text : String} {isCurrent : Bool} :
    Reaches w (fun v item => ∀ i ∈ item, i.Passed v)
      (g.declarationNamed? start text isCurrent) := by
  unfold declarationNamed?
  extract_lets begins name behindModule
  have hbegins : ∀ (follows : Parser Bool) [Keeps (State.Past w) follows],
      Keeps (State.Past w) (begins follows) := fun _ _ => keeps_ite
  -- The word is a name where no declaration follows.
  have hname : Reaches w (fun v item => ∀ i ∈ item, i.Passed v) (name ()) := .none
  have hbehindModule : Reaches w (fun v item => ∀ i ∈ item, i.Passed v) (behindModule ()) := by
    refine .skip fun token => ?_
    split
    · exact (reaches_text yields_externalModule).some
    · exact .skip fun _ => .ite (fun _ => (reaches_text yields_namespaceDeclaration).some)
        fun _ => hname
  split
  · exact .skip fun _ => .ite (fun _ => (reaches_text yields_classDeclaration).some)
      fun _ => hname
  · exact .skip fun _ => .ite (fun _ => (reaches_text yields_enumDeclaration).some) fun _ => hname
  · exact .skip fun _ => .ite (fun _ => reaches_interfaceDeclaration.some) fun _ => hname
  · refine .skip fun _ => .ite (fun _ => ?_) fun _ => hname
    exact .ite (fun _ => .skip fun _ => hbehindModule) fun _ => hbehindModule
  · exact .skip fun _ => .ite (fun _ => (reaches_text yields_namespaceDeclaration).some)
      fun _ => hname
  · exact .skip fun _ => .ite (fun _ => reaches_aliasDeclaration.some) fun _ => hname
  · exact hname

theorem reaches_declared? {start : Nat} :
    Reaches w (fun v item => ∀ i ∈ item, i.Passed v) (g.declared? start) := by
  unfold declared?
  refine .skip fun state => ?_
  extract_lets behindFault
  have hbehindFault : Reaches w (fun v item => ∀ i ∈ item, i.Passed v) (behindFault ()) := by
    refine .bind (P := fun v item => ∀ i ∈ item, i.Passed v) (reaches_within ?_)
      fun item v _ hitem => .pure ?_
    · refine .skip fun _ => .ite (fun _ => (reaches_text yields_functionDeclaration).some)
        fun _ => ?_
      refine .skip fun _ => .ite (fun _ => (reaches_text yields_classDeclaration).some)
        fun _ => ?_
      refine .skip fun _ => .ite (fun _ => .skip fun _ => .skip fun _ =>
        (reaches_text yields_enumDeclaration).some) fun _ => ?_
      refine .skip fun _ => .ite (fun _ => (reaches_text yields_variableStatement).some)
        fun _ => ?_
      refine .skip fun _ => .ite (fun _ => (reaches_text yields_externalModule).some) fun _ => ?_
      -- All that begins with a keyword is kept as text; interfaces and aliases begin with a name.
      refine .skip fun token => ?_
      split
      · exact reaches_declarationNamed?
      · exact .none
    · intro i hi
      obtain ⟨item, hmem, rfl⟩ := Option.map_eq_some_iff.mp hi
      exact (hitem item hmem).modified _ _
  exact .ite (fun _ => .skip fun _ => hbehindFault) fun _ => hbehindFault

/-! ## Statements -/

theorem reaches_namedStatement? {start : Nat} {name : String} :
    Reaches w (fun v item => ∀ i ∈ item, i.Passed v) (g.namedStatement? start name) := by
  unfold namedStatement?
  split
  · exact reaches_declared?
  · exact .skip fun _ => .ite (fun _ => .skip fun _ => reaches_other.some) fun _ => .none
  · exact reaches_declarationNamed?

theorem reaches_expressionStatement {start : Nat} :
    Reaches w ItemSyntax.Passed (g.expressionStatement start) := by
  unfold expressionStatement
  refine .skip fun expression => ?_
  extract_lets behindName
  have hbehindName : ∀ v, Reaches v ItemSyntax.Passed (behindName ()) := by
    intro v
    refine .skip fun _ => .ite (fun _ => .skip fun span => ?_) fun _ => ?_
    · split <;> exact .pure ⟨trivial, trivial⟩
    · refine .skip fun _ => .skip fun _ => .ite (fun _ => ?_) fun _ => .of_never yields_failHere
      exact .skip fun _ => .skip fun _ => reaches_other
  split
  · rename_i span name
    refine .skip fun _ => .ite (fun _ => reaches_text yields_labelled) fun _ => .skip fun _ =>
      .ite (fun _ => .skip fun _ => reaches_other) fun _ => .given reaches_namedStatement?
        (fun item v _ hitem => .pure hitem) fun v _ => ?_
    -- A modifier in front of an interface is noted as a fault, and the interface is read.
    refine .ite (fun _ => .skip fun _ => .ite (fun _ => .skip fun _ => ?_)
      fun _ => hbehindName v) fun _ => hbehindName v
    exact reaches_interfaceDeclaration
  · exact hbehindName w

theorem reaches_keywordStatement? {start : Nat} {text : String} {declarations : Bool} :
    Reaches w (fun v item => ∀ i ∈ item, i.Passed v)
      (g.keywordStatement? start text declarations) := by
  unfold keywordStatement?
  extract_lets whole name
  have hwhole : ∀ (statement : Parser Unit) [Keeps (State.Past w) statement],
      Reaches w (fun v item => ∀ i ∈ item, i.Passed v) (whole statement) :=
    fun _ _ => .skip fun _ => reaches_other.some
  have hname : Reaches w (fun v item => ∀ i ∈ item, i.Passed v) (name ()) := .none
  -- Keyword by keyword: a declaration, a statement that is kept as text, or a name.
  split
  repeat' first
    | exact hname
    | exact hwhole _
    | exact (reaches_text yields_awaitStatement).some
    | exact reaches_text? yields_usingDeclaration?
    | exact (reaches_text yields_functionDeclaration).some
    | exact (reaches_text yields_classDeclaration).some
    | exact (reaches_text yields_variableStatement).some
    | exact reaches_declarationNamed?
    | refine .ite (fun _ => ?_) fun _ => ?_
    | refine .skip fun _ => ?_

theorem reaches_plainStatement {declarations : Bool} :
    Reaches w ItemSyntax.Passed (g.plainStatement declarations) := by
  unfold plainStatement
  refine reaches_within (.skip fun start => .skip fun _ => .ite (fun _ => .skip fun _ =>
    .skip fun _ => reaches_text yields_enumDeclaration) fun _ => .skip fun token => ?_)
  extract_lets behindWord
  have hbehindWord : ∀ v, Reaches v ItemSyntax.Passed (behindWord ()) := by
    intro v
    refine .skip fun _ => .ite (fun _ => .skip fun _ => reaches_other) fun _ => ?_
    refine .skip fun _ => .ite (fun _ => .skip fun _ => .pure ⟨trivial, trivial⟩) fun _ => ?_
    exact .skip fun _ => .ite (fun _ => reaches_text yields_functionDeclaration)
      fun _ => reaches_expressionStatement
  split
  · exact .given reaches_keywordStatement? (fun item v _ hitem => .pure hitem)
      fun v _ => hbehindWord v
  · exact hbehindWord w

/-! ## Imports and exports -/

theorem reaches_exportDefault {start : Nat} :
    Reaches w ItemSyntax.Passed (g.exportDefault start) := by
  unfold exportDefault
  refine .skip fun _ => .ite (fun _ => .skip fun _ => reaches_text yields_classDeclaration)
    fun _ => .skip fun _ => ?_
  extract_lets behindAbstract
  have hbehindAbstract : Reaches w ItemSyntax.Passed (behindAbstract ()) := by
    refine .skip fun _ => .ite (fun _ => .skip fun place => .skip fun _ =>
      .bind reaches_interfaceDeclaration fun item v _ hitem => .pure (hitem.modified _ _))
        fun _ => ?_
    refine .skip fun _ => .ite (fun _ => reaches_text yields_classDeclaration) fun _ => ?_
    refine .skip fun _ => .skip fun _ => .ite (fun _ => reaches_text yields_functionDeclaration)
      fun _ => ?_
    exact .skip fun _ => .skip fun _ => reaches_other
  exact .ite (fun _ => .skip fun _ => .skip fun _ => hbehindAbstract) fun _ => hbehindAbstract

theorem reaches_exportItem : Reaches w ItemSyntax.Passed g.exportItem := by
  unfold exportItem
  refine .skip fun start => .skip fun _ => .skip fun declareStart => .skip fun _ => ?_
  extract_lets exported imported behindDeclaration behindDeclare
  have hexported : ∀ item v, w.Le v → item.Passed v →
      Reaches v ItemSyntax.Passed (exported item) := by
    intro item v _ hitem
    -- The item lies in front of what has been passed by, and so of the new end.
    refine .bind reaches_spanFrom fun span u hu hspan => .pure (ItemSyntax.passed_of_le ?_ ?_)
    · rw [ItemSyntax.span_modified]
      exact hspan.covers
    · exact (hitem.passed.mono hu.passed).modified _ _
  have himported : ∀ v, Reaches v ItemSyntax.Passed (imported ()) :=
    fun v => .skip fun _ => reaches_text yields_importEquals
  have hbehindDeclaration : ∀ v, w.Le v → Reaches v ItemSyntax.Passed (behindDeclaration ()) := by
    intro v hv
    refine .skip fun _ => .ite (fun _ => .skip fun _ => .ite (fun _ => .skip fun _ =>
      himported v) fun _ => himported v) fun _ => ?_
    refine .skip fun _ => .ite (fun _ => .skip fun _ => .skip fun _ => reaches_other) fun _ => ?_
    refine .skip fun _ => .ite (fun _ => .skip fun _ => .skip fun _ => .skip fun _ =>
      reaches_other) fun _ => .skip fun typeOnly => .ite (fun _ =>
        reaches_text yields_exportNames) fun _ => ?_
    refine .skip fun _ => .ite (fun _ => .bind reaches_exportDefault fun item u hu hitem =>
      hexported item u (hv.trans hu) hitem) fun _ => ?_
    exact .given (reaches_text? yields_exportedDeclaration?)
      (fun item u hu hitem => hexported item u (hv.trans hu) hitem)
      fun u _ => reaches_text yields_exportNames
  have hbehindDeclare : ∀ v, w.Le v → Reaches v ItemSyntax.Passed (behindDeclare ()) := by
    intro v hv
    refine .skip fun token => ?_
    split
    · exact .skip fun place => .given (reaches_attempt reaches_declarationNamed?)
        (fun item u hu hitem => hexported item u (hv.trans hu) hitem)
        fun u hu => hbehindDeclaration u (hv.trans hu)
    · exact hbehindDeclaration v hv
  exact .skip fun _ => .ite (fun _ => .given reaches_declared?
    (fun item v hv hitem => hexported item v hv hitem) fun v hv => hbehindDeclare v hv)
      fun _ => hbehindDeclare w (.refl w)

theorem reaches_itemStep : Reaches w ItemSyntax.Passed g.itemStep := by
  unfold itemStep
  exact .skip fun _ => .ite (fun _ => reaches_text yields_importItem) fun _ => .skip fun _ =>
    .ite (fun _ => reaches_exportItem) fun _ => reaches_plainStatement

/-! ## The cycles closed -/

instance placed_ofFuel (fuel : Nat) : Placed (ofFuel fuel) := by
  -- Only the entry for types is gone through: what expressions and statements read is not kept.
  induction fuel with
  | zero => exact ⟨fun _ => sound_ofFuel 0, fun _ => .of_never yields_exhausted⟩
  | succ fuel ih => exact ⟨fun _ => sound_ofFuel (fuel + 1), fun _ => reaches_typeStep⟩

theorem reaches_item (fuel : Nat) : Reaches w ItemSyntax.Passed (ofFuel fuel).item := by
  cases fuel with
  | zero => exact .of_never yields_exhausted
  | succ fuel => exact reaches_itemStep

end Grammar

namespace Source

theorem reaches_readItems {w : Extent} (fuel : Nat) :
    Reaches w (fun v items => ∀ item ∈ items, item.Passed v) (readItems (.ofFuel fuel)) := by
  have hitems : Reaches w (fun v items => ∀ item ∈ items, item.Passed v)
      (Parser.collect do
        if (← Parser.token).isNone then return none
        return some (← (Grammar.ofFuel fuel).item)) :=
    Parser.reaches_collect ItemSyntax.lasts_passed fun v => .skip fun _ =>
      .ite (fun _ => .none) fun _ => (Grammar.reaches_item fuel).some
  unfold readItems
  refine .skip fun token => ?_
  split
  · exact .skip fun _ => hitems
  · exact hitems

theorem start_past (text : List Char) : (start text).Past ⟨0, 0⟩ :=
  ⟨⟨⟨Nat.le_refl _, List.forall_mem_nil _⟩, List.forall_mem_nil _, Nat.le_refl _, Nat.le_refl _,
    by simp [start], by simp [start]⟩, ⟨Nat.zero_le _, Nat.zero_le _⟩⟩

/-- No member of a declaration goes beyond the end of the declaration, and every comment takes up
some of the text. -/
theorem within_of_parse {text : List Char} {source : Source} (h : parse text = .ok source) :
    (∀ item ∈ source.items, item.Within item.span.stop) ∧
      ∀ comment ∈ source.comments, comment.IsFilled := by
  have hreaches := reaches_readItems (8 * (text.length + 8)) (start text) (start_past text)
  unfold parse at h
  dsimp only at h
  refine hreaches.elim (fun items state v hrun _ hstate hitems => ?_) fun fault state hrun _ => ?_
  · rw [hrun] at h
    dsimp only at h
    split at h
    · cases h
    · cases h
      -- Sorting leaves the comments what they are.
      refine ⟨fun item hmem => (hitems item hmem).ended, fun comment hmem => ?_⟩
      exact hstate.inOrder.comments comment ((List.mergeSort_perm _ _).mem_iff.mp hmem)
  · rw [hrun] at h
    cases h

end Source

end Declutter.Syntax
