import Declutter.Proofs.Parsing.Expressions
import Declutter.Syntax.Source

/-!
# What items are read as

Of the items only declarations matter, that is, aliases and interfaces: they are called by a word
that was read, and all their types are regular. Everything else that `Syntax/Declarations`,
`Syntax/Statements` and `Syntax/Modules` read is kept as text. `sound_ofFuel` closes the cycles of
the grammar, and with them `yields_readItems` says of all items of a text that they are regular.
-/

set_option synthInstance.maxSize 1000000

namespace Declutter.Syntax

/-! ## Regular items -/

/-- An item that is called by a word of a sort and has regular types, if it is a declaration. -/
def ItemSyntax.Regular (word : String → Prop) : ItemSyntax → Prop
  | .alias _ _ name type => word name ∧ type.Regular word
  | .interface _ _ name heritage members =>
    word name ∧ (∀ item ∈ heritage, item.Regular word) ∧ ∀ member ∈ members, member.Regular word
  | .empty _ | .directive _ _ | .other _ => True

theorem ItemSyntax.Regular.modified {word : String → Prop} {item : ItemSyntax}
    (h : item.Regular word) (modifier : Modifier) (span : Span) :
    (item.modified modifier span).Regular word := by
  cases item <;> exact h

/-- A property of all items that are kept as text. -/
class KeptAsText (P : ItemSyntax → Prop) : Prop where
  other (span : Span) : P (.other span)

instance {word : String → Prop} : KeptAsText (·.Regular word) := ⟨fun _ => trivial⟩

namespace Grammar

open Declutter.Syntax.Parser

variable {inv : State → Prop} [hinv : Invariant inv] {g : Grammar} [hg : Sound inv g]

omit hinv in
theorem yields_other {P : ItemSyntax → Prop} [KeptAsText P] {start : Nat} :
    Yields inv P (do return ItemSyntax.other (← spanFrom start)) :=
  .skip fun _ => .pure (KeptAsText.other _)

theorem yields_functionDeclaration {P : ItemSyntax → Prop} [KeptAsText P] {nameNeeded : Bool} :
    Yields inv P (g.functionDeclaration nameNeeded) := by
  unfold functionDeclaration
  exact .skip fun _ => .skip fun _ => .skip fun _ => yields_other

theorem yields_classDeclaration {P : ItemSyntax → Prop} [KeptAsText P] {start : Nat}
    {nameNeeded isAbstract : Bool} :
    Yields inv P (g.classDeclaration start nameNeeded isAbstract) := by
  unfold classDeclaration
  exact .skip fun _ => yields_other

/-! ## Interfaces and aliases -/

theorem yields_interfaceDeclaration {start : Nat} :
    Yields inv (·.Regular (Occurs inv)) (g.interfaceDeclaration start) := by
  unfold interfaceDeclaration
  refine .bind yields_word fun name hname => ?_
  extract_lets behindName
  have hbehindName : Yields inv (·.Regular (Occurs inv)) (behindName ()) := by
    refine .skip fun isGeneric => .skip fun _ => ?_
    extract_lets behindHeritage
    have hbehindHeritage : ∀ items, (∀ item ∈ items, item.Regular (Occurs inv)) →
        Yields inv (·.Regular (Occurs inv)) (behindHeritage items) := by
      intro items hitems
      refine .skip fun _ => ?_
      extract_lets behindRepeated
      have hbehindRepeated : Yields inv (·.Regular (Occurs inv)) (behindRepeated ()) := by
        refine .bind (yields_inType yields_members) fun members hmembers => .skip fun span =>
          .pure ?_
        cases isGeneric
        · exact ⟨hname, hitems, hmembers⟩
        · trivial
      exact .ite (fun _ => .skip fun _ => .skip fun _ => hbehindRepeated) fun _ => hbehindRepeated
    exact .ite (fun _ => .bind yields_heritageList hbehindHeritage)
      fun _ => .bind (P := fun items => ∀ item ∈ items, item.Regular (Occurs inv)) (.pure nofun)
        hbehindHeritage
  exact .ite (fun _ => .skip fun _ => .skip fun _ => hbehindName) fun _ => hbehindName

theorem yields_aliasDeclaration {start : Nat} :
    Yields inv (·.Regular (Occurs inv)) (g.aliasDeclaration start) := by
  unfold aliasDeclaration
  refine .bind yields_word fun name hname => .skip fun isGeneric =>
    .bind (P := (·.Regular (Occurs inv))) (yields_inType ?_) fun type htype => .skip fun _ =>
      .skip fun span => .pure ?_
  · exact .skip fun _ => .ite (fun _ => hg.type) fun _ => .skip fun _ => .never yields_failHere
  · cases isGeneric
    · exact ⟨hname, htype⟩
    · trivial

/-! ## Enumerations and namespaces -/

instance keeps_enumMember : Keeps inv g.enumMember := by
  unfold enumMember
  have hcomma : ∀ place, Keeps inv (do
      bump
      modify fun state => { state with current := some ⟨.sign ",", state.previous, false⟩ }
      noteAt place .expectedSemicolon : Parser PUnit) := by
    intro place
    have hnote : Yields inv (fun _ => True) (noteAt place .expectedSemicolon) := Keeps.yields
    exact ⟨yields_bump fun state hstate hcurrent => hnote _ (hinv.comma hstate hcurrent)⟩
  repeat' first | infer_instance | split | refine .seq ?_ fun _ => ?_

theorem yields_enumDeclaration {P : ItemSyntax → Prop} [KeptAsText P] {start : Nat} :
    Yields inv P (g.enumDeclaration start) := by
  unfold enumDeclaration
  exact .skip fun _ => .skip fun _ => .skip fun _ => .skip fun _ => yields_other

instance keeps_namespaceBody : Keeps inv g.namespaceBody := by unfold namespaceBody; infer_instance

theorem yields_namespaceDeclaration {P : ItemSyntax → Prop} [KeptAsText P] {start : Nat} :
    Yields inv P (g.namespaceDeclaration start) := by
  unfold namespaceDeclaration
  exact .skip fun _ => .skip fun _ => .skip fun _ => yields_other

theorem yields_externalModule {P : ItemSyntax → Prop} [KeptAsText P] {start : Nat} :
    Yields inv P (g.externalModule start) := by
  unfold externalModule
  refine .skip fun _ => ?_
  extract_lets whole behindName
  have hbehindName : Yields inv P (behindName ()) :=
    .skip fun _ => .ite (fun _ => .skip fun _ => yields_other) fun _ => .skip fun _ => yields_other
  refine .ite (fun _ => .skip fun _ => hbehindName) fun _ => .skip fun token => ?_
  split
  · exact .skip fun _ => hbehindName
  · exact .never yields_unexpected

/-! ## Variables -/

instance keeps_declarator {inFor isConst isVar : Bool} :
    Keeps inv (g.declarator inFor isConst isVar) := by
  unfold declarator
  repeat' first | infer_instance | split | refine .seq ?_ fun _ => ?_

instance keeps_declarators {keyword : Span} {declarator : Parser Declarator}
    [Keeps inv declarator] : Keeps inv (declarators keyword declarator) := by
  unfold declarators; infer_instance

instance keeps_skipToSemicolon : Keeps inv g.skipToSemicolon := by
  unfold skipToSemicolon
  infer_instance

instance keeps_isEmptyHead : Keeps inv g.isEmptyHead := by
  unfold isEmptyHead
  refine .seq inferInstance fun _ => @keeps_ite _ _ _ _ _ _ (.seq ?_ fun result => ?_) inferInstance
  · exact @keeps_tryCatch _ _ _ _ (.seq inferInstance fun _ => keeps_pure) fun _ => keeps_pure
  · cases result <;> exact keeps_pure

instance keeps_variableList {inFor : Bool} : Keeps inv (g.variableList inFor) := by
  unfold variableList
  infer_instance

theorem yields_variableStatement {P : ItemSyntax → Prop} [KeptAsText P] {start : Nat} :
    Yields inv P (g.variableStatement start) := by
  unfold variableStatement
  refine .skip fun _ => .skip fun _ => .ite (fun _ => yields_other) fun _ => ?_
  exact .skip fun _ => .skip fun _ => yields_other

theorem yields_usingDeclaration? {P : ItemSyntax → Prop} [KeptAsText P] {start : Nat} :
    Yields inv (fun item => ∀ i ∈ item, P i)
      (g.usingDeclaration? start) := by
  unfold usingDeclaration?
  refine .skip fun _ => .skip fun _ => .ite (fun _ => .none) fun _ => .skip fun _ =>
    .skip fun state => .skip fun declared => (Keeps.over fun declared _ => ?_).yields.bind
      fun _ _ => yields_other.some
  extract_lets behindName
  have hbehindName : Keeps inv (behindName ()) := inferInstance
  split <;> infer_instance

instance keeps_letBinds : Keeps inv letBinds := by
  unfold letBinds
  repeat' first | infer_instance | split | refine .seq ?_ fun _ => ?_

/-! ## Declarations by their first word -/

theorem yields_declarationNamed? {start : Nat} {text : String} {isCurrent : Bool} :
    Yields inv (fun item => ∀ i ∈ item, i.Regular (Occurs inv))
      (g.declarationNamed? start text isCurrent) := by
  unfold declarationNamed?
  extract_lets begins name behindModule
  have hbegins : ∀ (follows : Parser Bool) [Keeps inv follows], Keeps inv (begins follows) :=
    fun _ _ => keeps_ite
  have hname : Yields inv (fun item => ∀ i ∈ item, i.Regular (Occurs inv)) (name ()) := .none
  have hbehindModule : Yields inv (fun item => ∀ i ∈ item, i.Regular (Occurs inv))
      (behindModule ()) := by
    refine .skip fun token => ?_
    split
    · exact yields_externalModule.some
    · exact .skip fun _ => .ite (fun _ => yields_namespaceDeclaration.some) fun _ => hname
  split
  · exact .skip fun _ => .ite (fun _ => yields_classDeclaration.some) fun _ => hname
  · exact .skip fun _ => .ite (fun _ => yields_enumDeclaration.some) fun _ => hname
  · exact .skip fun _ => .ite (fun _ => yields_interfaceDeclaration.some) fun _ => hname
  · refine .skip fun _ => .ite (fun _ => ?_) fun _ => hname
    exact .ite (fun _ => .skip fun _ => hbehindModule) fun _ => hbehindModule
  · exact .skip fun _ => .ite (fun _ => yields_namespaceDeclaration.some) fun _ => hname
  · exact .skip fun _ => .ite (fun _ => yields_aliasDeclaration.some) fun _ => hname
  · exact hname

theorem yields_declared? {start : Nat} :
    Yields inv (fun item => ∀ i ∈ item, i.Regular (Occurs inv))
      (g.declared? start) := by
  unfold declared?
  refine .skip fun state => ?_
  extract_lets behindFault
  have hbehindFault : Yields inv (fun item => ∀ i ∈ item, i.Regular (Occurs inv))
      (behindFault ()) := by
    refine .bind (yields_within (P := fun item => ∀ i ∈ item, i.Regular (Occurs inv)) ?_)
      fun item hitem => .pure ?_
    · refine .skip fun _ => .ite (fun _ => yields_functionDeclaration.some) fun _ => ?_
      refine .skip fun _ => .ite (fun _ => yields_classDeclaration.some) fun _ => ?_
      refine .skip fun _ => .ite (fun _ => .skip fun _ => .skip fun _ =>
        yields_enumDeclaration.some) fun _ => ?_
      refine .skip fun _ => .ite (fun _ => yields_variableStatement.some) fun _ => ?_
      refine .skip fun _ => .ite (fun _ => yields_externalModule.some) fun _ => ?_
      refine .skip fun token => ?_
      split
      · exact yields_declarationNamed?
      · exact .none
    · intro i hi
      obtain ⟨item, hmem, rfl⟩ := Option.map_eq_some_iff.mp hi
      exact (hitem item hmem).modified _ _
  exact .ite (fun _ => .skip fun _ => hbehindFault) fun _ => hbehindFault

/-! ## Statements -/

instance keeps_substatement : Keeps inv g.substatement := by unfold substatement; infer_instance

instance keeps_loopBody : Keeps inv g.loopBody := by unfold loopBody; infer_instance

instance keeps_parenthesizedCondition : Keeps inv g.parenthesizedCondition := by
  unfold parenthesizedCondition
  infer_instance

instance keeps_ifStatement : Keeps inv g.ifStatement := by unfold ifStatement; infer_instance

instance keeps_forRest : Keeps inv g.forRest := by unfold forRest; infer_instance

instance keeps_forEach : Keeps inv g.forEach := by unfold forEach; infer_instance

instance keeps_forUsing {start : Nat} : Keeps inv (g.forUsing start) := by
  unfold forUsing; infer_instance

instance keeps_noteEach {x : List Declarator} : Keeps inv (noteEach x) := by
  unfold noteEach
  repeat' first | infer_instance | split

instance keeps_forHead : Keeps inv g.forHead := by
  unfold forHead
  infer_instance

instance keeps_forStatement : Keeps inv g.forStatement := by unfold forStatement; infer_instance

instance keeps_doStatement : Keeps inv g.doStatement := by unfold doStatement; infer_instance

instance keeps_switchStatement : Keeps inv g.switchStatement := by
  unfold switchStatement
  infer_instance

instance keeps_jumpStatement {start : Nat} : Keeps inv (jumpStatement start) := by
  unfold jumpStatement
  infer_instance

instance keeps_returnStatement {start : Nat} : Keeps inv (g.returnStatement start) := by
  unfold returnStatement
  infer_instance

instance keeps_throwStatement : Keeps inv g.throwStatement := by
  unfold throwStatement
  infer_instance

instance keeps_catchClause : Keeps inv g.catchClause := by unfold catchClause; infer_instance

instance keeps_finallyClause : Keeps inv g.finallyClause := by unfold finallyClause; infer_instance

instance keeps_tryStatement : Keeps inv g.tryStatement := by unfold tryStatement; infer_instance

instance keeps_strayHandler : Keeps inv g.strayHandler := by unfold strayHandler; infer_instance

instance keeps_withStatement : Keeps inv g.withStatement := by unfold withStatement; infer_instance

/-! ## Statements that begin like an expression -/

theorem yields_labelled {P : ItemSyntax → Prop} [KeptAsText P] {start : Nat} {label : String} :
    Yields inv P (g.labelled start label) := by
  unfold labelled
  have hlabels : ∀ labels, Keeps inv
      (modify fun state => { state with labels := labels } : Parser PUnit) :=
    fun labels => keeps_modify fun state =>
      hinv.frame state.context state.arrowStart labels
  refine yields_within (.skip fun state => ?_)
  extract_lets labels behindLabel behindStatement
  have hbehindLabel : Yields inv P (behindLabel ()) :=
    .skip fun _ => yields_other
  have hbehindStatement : Yields inv P (behindStatement ()) :=
    .ite (fun _ => .skip fun _ => hbehindLabel) fun _ => hbehindLabel
  exact .skip fun _ => .skip fun _ => .ite (fun _ => .skip fun _ => .skip fun _ => .skip fun _ =>
    hbehindStatement) fun _ => .skip fun _ => hbehindStatement

theorem yields_namedStatement? {start : Nat} {name : String} :
    Yields inv (fun item => ∀ i ∈ item, i.Regular (Occurs inv))
      (g.namedStatement? start name) := by
  unfold namedStatement?
  split
  · exact yields_declared?
  · exact .skip fun _ => .ite (fun _ => .skip fun _ => yields_other.some) fun _ => .none
  · exact yields_declarationNamed?

theorem yields_expressionStatement {start : Nat} :
    Yields inv (·.Regular (Occurs inv)) (g.expressionStatement start) := by
  unfold expressionStatement
  refine .skip fun expression => ?_
  extract_lets behindName
  have hbehindName : Yields inv (·.Regular (Occurs inv)) (behindName ()) := by
    refine .skip fun _ => .ite (fun _ => .skip fun span => ?_) fun _ => ?_
    · split <;> exact .pure trivial
    · refine .skip fun _ => .skip fun _ => .ite (fun _ => ?_) fun _ => yields_failHere
      exact .skip fun _ => .skip fun _ => yields_other
  split
  · rename_i span name
    refine .skip fun _ => .ite (fun _ => yields_labelled) fun _ => .skip fun _ => .ite (fun _ =>
      .skip fun _ => yields_other) fun _ => .given yields_namedStatement?
        (fun item hitem => .pure hitem) ?_
    exact .ite (fun _ => .skip fun _ => .ite (fun _ => .skip fun _ => yields_interfaceDeclaration)
      fun _ => hbehindName) fun _ => hbehindName
  · exact hbehindName

theorem yields_awaitStatement {P : ItemSyntax → Prop} [KeptAsText P] {start : Nat} :
    Yields inv P (g.awaitStatement start) := by
  unfold awaitStatement
  refine .skip fun isUsing => .skip fun _ => ?_
  extract_lets behindUsing
  have hbehindUsing : Yields inv P (behindUsing ()) :=
    .skip fun _ => .skip fun _ => .skip fun _ => yields_other
  exact .ite (fun _ => .given yields_usingDeclaration? (fun item hitem => .pure hitem)
    hbehindUsing) fun _ => hbehindUsing

/-! ## Statements by their first word -/

theorem yields_keywordStatement? {start : Nat} {text : String} {declarations : Bool} :
    Yields inv (fun item => ∀ i ∈ item, i.Regular (Occurs inv))
      (g.keywordStatement? start text declarations) := by
  unfold keywordStatement?
  extract_lets whole name
  have hwhole : ∀ (statement : Parser Unit) [Keeps inv statement],
      Yields inv (fun item => ∀ i ∈ item, i.Regular (Occurs inv)) (whole statement) :=
    fun _ _ => .skip fun _ => yields_other.some
  have hname : Yields inv (fun item => ∀ i ∈ item, i.Regular (Occurs inv)) (name ()) := .none
  split
  repeat' first
    | exact hname
    | exact hwhole _
    | exact yields_awaitStatement.some
    | exact yields_usingDeclaration?
    | exact yields_functionDeclaration.some
    | exact yields_classDeclaration.some
    | exact yields_variableStatement.some
    | exact yields_declarationNamed?
    | refine .ite (fun _ => ?_) fun _ => ?_
    | refine .skip fun _ => ?_

theorem yields_plainStatement {declarations : Bool} :
    Yields inv (·.Regular (Occurs inv)) (g.plainStatement declarations) := by
  unfold plainStatement
  refine yields_within (.skip fun start => .skip fun _ => .ite (fun _ => .skip fun _ =>
    .skip fun _ => yields_enumDeclaration) fun _ => .skip fun token => ?_)
  extract_lets behindWord
  have hbehindWord : Yields inv (·.Regular (Occurs inv)) (behindWord ()) := by
    refine .skip fun _ => .ite (fun _ => .skip fun _ => yields_other) fun _ => ?_
    refine .skip fun _ => .ite (fun _ => .skip fun _ => .pure trivial) fun _ => ?_
    exact .skip fun _ => .ite (fun _ => yields_functionDeclaration)
      fun _ => yields_expressionStatement
  split
  · exact .given yields_keywordStatement? (fun item hitem => .pure hitem) hbehindWord
  · exact hbehindWord

instance keeps_plainStatement {declarations : Bool} : Keeps inv (g.plainStatement declarations) :=
  yields_plainStatement.keeps

instance keeps_statementStep {declarations : Bool} : Keeps inv (g.statementStep declarations) := by
  unfold statementStep
  infer_instance

/-! ## Imports -/

instance keeps_listedName : Keeps inv listedName := by
  unfold listedName
  repeat' first | infer_instance | split | refine .seq ?_ fun _ => ?_

instance keeps_attributesAndEnd : Keeps inv g.attributesAndEnd := by
  unfold attributesAndEnd
  infer_instance

instance keeps_fromClause : Keeps inv g.fromClause := by
  unfold fromClause
  repeat' first | infer_instance | split | refine .seq ?_ fun _ => ?_

instance keeps_braceList {α : Type} {item : Parser α} [Keeps inv item] :
    Keeps inv (braceList item) := by unfold braceList; infer_instance

theorem yields_importEquals {P : ItemSyntax → Prop} [KeptAsText P] {start : Nat} :
    Yields inv P (importEquals start) := by
  unfold importEquals
  refine .skip fun _ => .skip fun _ => ?_
  extract_lets behindName closing
  have hbehindName : Yields inv P (behindName ()) :=
    .skip fun _ => yields_other
  have hclosing : Yields inv P (closing ()) := .skip fun _ => hbehindName
  refine .ite (fun _ => .skip fun _ => .skip fun _ => .skip fun token => ?_)
    fun _ => .skip fun _ => hbehindName
  split
  · exact .skip fun _ => hclosing
  · exact .never yields_unexpected

instance keeps_listedType {rename : Parser String} [Keeps inv rename] :
    Keeps inv (listedType rename) := by unfold listedType; infer_instance

instance keeps_importSpecifier {typeOnly : Bool} : Keeps inv (importSpecifier typeOnly) := by
  unfold importSpecifier
  repeat' first | infer_instance | split | refine .seq ?_ fun _ => ?_

instance keeps_importHead : Keeps inv importHead := by
  unfold importHead
  repeat' first | infer_instance | split | refine .seq ?_ fun _ => ?_

theorem yields_importItem {P : ItemSyntax → Prop} [KeptAsText P] : Yields inv P g.importItem := by
  unfold importItem
  refine .skip fun start => .skip fun _ => .ite (fun _ => .skip fun _ => .skip fun _ =>
    yields_other) fun _ => .skip fun _ => .skip fun _ => .skip fun token => ?_
  split
  · exact .skip fun _ => .skip fun _ => yields_other
  · refine .skip fun head => ?_
    cases head with
    | equals => exact yields_importEquals
    | lists typeOnly phase =>
      refine .skip fun _ => .ite (fun _ => .skip fun _ => .skip fun _ => .skip fun _ => ?_)
        fun _ => .skip fun _ => .ite (fun _ => .skip fun _ => .skip fun _ => ?_) fun _ => ?_
      all_goals exact .skip fun _ => yields_other

/-! ## Exports -/

instance keeps_exportSpecifier {typeOnly : Bool} : Keeps inv (exportSpecifier typeOnly) := by
  unfold exportSpecifier
  repeat' first | infer_instance | split | refine .seq ?_ fun _ => ?_

instance keeps_exportList {typeOnly : Bool} : Keeps inv (g.exportList typeOnly) := by
  unfold exportList
  refine .seq inferInstance fun _ => .seq inferInstance fun names =>
    .seq inferInstance fun isFrom => @keeps_ite _ _ _ _ _ _ inferInstance
      (.seq (.over fun name _ => ?_) inferInstance)
  cases name <;> infer_instance

theorem yields_exportDefault {start : Nat} :
    Yields inv (·.Regular (Occurs inv)) (g.exportDefault start) := by
  unfold exportDefault
  refine .skip fun _ => .ite (fun _ => .skip fun _ => yields_classDeclaration) fun _ =>
    .skip fun _ => ?_
  extract_lets behindAbstract
  have hbehindAbstract : Yields inv (·.Regular (Occurs inv)) (behindAbstract ()) := by
    refine .skip fun _ => .ite (fun _ => .skip fun place => .skip fun _ =>
      .bind yields_interfaceDeclaration fun item hitem => .pure (hitem.modified _ _)) fun _ => ?_
    refine .skip fun _ => .ite (fun _ => yields_classDeclaration) fun _ => ?_
    refine .skip fun _ => .skip fun _ => .ite (fun _ => yields_functionDeclaration) fun _ => ?_
    exact .skip fun _ => .skip fun _ => yields_other
  exact .ite (fun _ => .skip fun _ => .skip fun _ => hbehindAbstract) fun _ => hbehindAbstract

theorem yields_exportedDeclaration? {P : ItemSyntax → Prop} [KeptAsText P] :
    Yields inv (fun item => ∀ i ∈ item, P i)
      g.exportedDeclaration? := by
  unfold exportedDeclaration?
  refine .skip fun start => .skip fun _ => .ite (fun _ => yields_classDeclaration.some) fun _ => ?_
  refine .skip fun _ => .skip fun _ => .ite (fun _ => yields_functionDeclaration.some) fun _ => ?_
  refine .skip fun _ => .ite (fun _ => .skip fun _ => .skip fun _ => yields_enumDeclaration.some)
    fun _ => ?_
  exact .skip fun _ => .ite (fun _ => yields_variableStatement.some) fun _ => .none

theorem yields_exportNames {P : ItemSyntax → Prop} [KeptAsText P] {start : Nat}
    {typeOnly : Bool} :
    Yields inv P (g.exportNames start typeOnly) := by
  unfold exportNames
  refine .skip fun _ => .ite (fun _ => .skip fun isNamed => .skip fun _ => .ite (fun _ =>
    .skip fun _ => .skip fun _ => ?_) fun _ => ?_) fun _ => ?_
  all_goals exact .skip fun _ => yields_other

theorem yields_exportItem : Yields inv (·.Regular (Occurs inv)) g.exportItem := by
  unfold exportItem
  refine .skip fun start => .skip fun _ => .skip fun declareStart => .skip fun _ => ?_
  extract_lets exported imported behindDeclaration behindDeclare
  have hexported : ∀ item, item.Regular (Occurs inv) →
      Yields inv (·.Regular (Occurs inv)) (exported item) :=
    fun item hitem => .skip fun _ => .pure (hitem.modified _ _)
  have himported : Yields inv (·.Regular (Occurs inv)) (imported ()) :=
    .skip fun _ => yields_importEquals
  have hbehindDeclaration : Yields inv (·.Regular (Occurs inv)) (behindDeclaration ()) := by
    refine .skip fun _ => .ite (fun _ => .skip fun _ => .ite (fun _ => .skip fun _ => himported)
      fun _ => himported) fun _ => ?_
    refine .skip fun _ => .ite (fun _ => .skip fun _ => .skip fun _ => yields_other) fun _ => ?_
    refine .skip fun _ => .ite (fun _ => .skip fun _ => .skip fun _ => .skip fun _ => yields_other)
      fun _ => .skip fun typeOnly => .ite (fun _ => yields_exportNames) fun _ => ?_
    exact .skip fun _ => .ite (fun _ => .bind yields_exportDefault hexported) fun _ =>
      .given yields_exportedDeclaration? hexported yields_exportNames
  have hbehindDeclare : Yields inv (·.Regular (Occurs inv)) (behindDeclare ()) := by
    refine .skip fun token => ?_
    split
    · exact .skip fun place =>
        .given (yields_attempt yields_declarationNamed?) hexported hbehindDeclaration
    · exact hbehindDeclaration
  exact .skip fun _ => .ite (fun _ => .given yields_declared? hexported hbehindDeclare)
    fun _ => hbehindDeclare

theorem yields_itemStep : Yields inv (·.Regular (Occurs inv)) g.itemStep := by
  unfold itemStep
  exact .skip fun _ => .ite (fun _ => yields_importItem) fun _ => .skip fun _ =>
    .ite (fun _ => yields_exportItem) fun _ => yields_plainStatement

instance keeps_itemStep : Keeps inv g.itemStep := yields_itemStep.keeps

/-! ## The cycles closed -/

omit hinv in
theorem yields_exhausted {α : Type} {P : α → Prop} : Yields inv P (ofFuel.exhausted : Parser α) :=
  .skip fun _ => .throw

omit hinv in
instance keeps_exhausted {α : Type} : Keeps inv (ofFuel.exhausted : Parser α) :=
  ⟨yields_exhausted⟩

theorem sound_ofFuel (fuel : Nat) : Sound inv (ofFuel fuel) := by
  induction fuel with
  | zero =>
    exact ⟨yields_exhausted, yields_exhausted, yields_exhausted, keeps_exhausted, keeps_exhausted,
      keeps_exhausted, keeps_exhausted, keeps_exhausted, fun _ _ => keeps_exhausted,
      keeps_exhausted, keeps_exhausted, fun _ => keeps_exhausted, keeps_exhausted⟩
  | succ fuel ih =>
    exact ⟨yields_typeStep, yields_plainTypeStep, yields_operandType, keeps_patternStep,
      keeps_assignmentStep, keeps_objectExpression, keeps_binaryStep, keeps_unaryStep,
      fun _ _ => keeps_operatorsStep, keeps_memberStep, keeps_leftHandSideStep,
      fun _ => keeps_statementStep, keeps_itemStep⟩

theorem yields_item (fuel : Nat) : Yields inv (·.Regular (Occurs inv)) (ofFuel fuel).item := by
  cases fuel with
  | zero => exact yields_exhausted
  | succ fuel =>
    have hsound : Sound inv (ofFuel fuel) := sound_ofFuel fuel
    exact yields_itemStep

end Grammar

/-- All items of a text are regular. -/
theorem Source.yields_readItems {inv : State → Prop} [Invariant inv] (fuel : Nat) :
    Yields inv (fun items => ∀ item ∈ items, item.Regular (Parser.Occurs inv))
      (readItems (.ofFuel fuel)) := by
  have hitems : Yields inv (fun items => ∀ item ∈ items, item.Regular (Parser.Occurs inv))
      (Parser.collect do
        if (← Parser.token).isNone then return none
        return some (← (Grammar.ofFuel fuel).item)) :=
    Parser.yields_collect (.skip fun _ => .ite (fun _ => .none) fun _ =>
      (Grammar.yields_item fuel).some)
  unfold readItems
  refine .skip fun token => ?_
  split
  · exact .skip fun _ => hitems
  · exact hitems

end Declutter.Syntax
