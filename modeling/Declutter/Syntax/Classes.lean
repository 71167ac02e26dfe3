import Declutter.Syntax.Calls

/-!
# Classes

A class with its heritage and its members. What a member is shows only behind its modifiers and
its name, and most modifiers can be names themselves.
-/

namespace Declutter.Syntax.Grammar

open Declutter.Syntax.Parser

variable (g : Grammar)

/-! ## Modifiers -/

/-- What stands in front of the name of a member. -/
structure MemberHead where
  start : Nat
  isDeclared : Bool
  hasAccess : Bool
  /-- Where the first `static` is written. -/
  static : Option Nat
  hasAccessor : Bool
  /-- The modifiers behind these. -/
  modifiers : List String
  /-- Where the last of the modifiers is written. -/
  lastModifier : Option Nat

namespace MemberHead

def isReadonly (head : MemberHead) : Bool := head.modifiers.contains "readonly"

def isAbstract (head : MemberHead) : Bool := head.modifiers.contains "abstract"

def isOverride (head : MemberHead) : Bool := head.modifiers.contains "override"

def isStatic (head : MemberHead) : Bool :=
  head.static.isSome || head.modifiers.contains "static"

/-- Why a modifier cannot stand behind those before it. -/
def modifierFault? (head : MemberHead) (hasBase : Bool) (text : String) : Option Cause :=
  if text = "abstract" then
    if head.isAbstract then some (.repeatedModifier text)
    else if head.isOverride then some (.modifierOrder text "override")
    else if head.isReadonly then some (.modifierOrder text "readonly")
    else none
  else if text = "override" then
    if head.isOverride then some (.repeatedModifier text)
    else if head.isReadonly then some (.modifierOrder text "readonly")
    else if head.isDeclared then some (.modifierClash text "declare")
    else if !hasBase then some .overrideWithoutBase
    else none
  else if text = "readonly" then
    if head.isReadonly then some (.repeatedModifier text) else none
  else if head.isOverride then some (.modifierOrder text "override")
  else none

end MemberHead

/-- Reads the modifiers behind `static`. -/
def memberModifiers (head : MemberHead) : Parser MemberHead :=
  iterate
    (fun head => do
      match ← modifier? ["abstract", "readonly", "override", "static"] true with
      | some text =>
        let place := (← get).previous.start
        if let some cause := head.modifierFault? (← get).context.hasBase text then
          noteAt place cause
        return some
          { head with modifiers := text :: head.modifiers, lastModifier := some place }
      | none => return none)
    head

/-! ## Names -/

/-- The name of a class member. -/
structure ClassKey where
  key : MemberKey
  start : Nat
  isPrivate : Bool

def ClassKey.isConstructor (name : ClassKey) : Bool :=
  name.key = .word "constructor" || name.key = .string "constructor"

def classKey : Parser ClassKey := do
  let start ← position
  if ← at? "#" then
    let text ← privateName
    if text = "constructor" then noteAt start .privateConstructor
    return ⟨.other (← spanFrom start), start, true⟩
  let (key, _) ← g.propertyName
  return ⟨key, start, false⟩

def atMethod : Parser Bool := atAny ["(", "<"]

/-- Whether a property's type, value or end comes next. Its end may be that of a line. -/
def atProperty (breakAllowed : Bool) : Parser Bool := do
  if ← atAny ["!", ":", "=", rightBrace] then return true
  if breakAllowed then atStatementEnd else at? ";"

/-! ## Properties and methods -/

/-- What the class as a whole has to know of a member. -/
inductive MemberSort where
  | constructorWithBody
  /-- A method or property that is left to classes that extend this one. -/
  | abstract
  | other
  deriving DecidableEq

def MemberHead.sort (head : MemberHead) (name : ClassKey) : MemberSort :=
  if head.isAbstract && !name.isPrivate then .abstract else .other

/-- A property from behind its name on. -/
def classProperty (head : MemberHead) (name : ClassKey) (isOptional : Bool) :
    Parser MemberSort := do
  if name.isConstructor then failAt name.start .constructorProperty
  if name.isPrivate then
    if head.isDeclared then noteAt name.start (.privateModifier "declare")
    if head.isAbstract then noteAt name.start (.privateModifier "abstract")
  unless isOptional do
    let _ ← eat "!"
  let _ ← g.annotation?
  let hasValue ← eat "="
  if hasValue then
    let _ ← within (fun context => { context with inAllowed := true, inClassField := true })
      g.assignment
  unless ← eatSemicolon do noteHere .expectedSemicolon
  if head.hasAccessor then return .other
  if name.isPrivate then
    if head.hasAccess then noteAt head.start .privateAccess
  else if head.isAbstract && hasValue then noteAt head.start .abstractInitializer
  return head.sort name

/-- A method from its parameters on. -/
def classMethod (head : MemberHead) (name : ClassKey) (isAsync isGenerator : Bool)
    (parameters : Parser (List PatternSyntax)) : Parser MemberSort := do
  let hasBody ← g.functionRest isAsync isGenerator parameters
  if name.isPrivate then
    if head.hasAccess then noteAt head.start .privateAccess
  else if head.isAbstract && hasBody then noteAt head.start .abstractBody
  return head.sort name

/-- A property or a method that is called like one of its modifiers, if it is. -/
def modifierAsName? (head : MemberHead) (text : String) (breakAllowed : Bool) :
    Parser (Option MemberSort) := do
  let name : ClassKey := ⟨.word text, head.start, false⟩
  if ← atMethod then return some (← g.classMethod head name false false g.parameters)
  if (← atProperty breakAllowed) || (← at? "?") then
    let isOptional ← eat "?"
    return some (← g.classProperty head name isOptional)
  return none

/-- The faults of a constructor's modifiers. -/
def noteConstructorModifiers (head : MemberHead) : Parser Unit := do
  if head.isOverride then noteAt head.start (.constructorModifier "override")
  if let some place := head.static then noteAt place (.constructorModifier "static")
  if let some place := head.lastModifier then
    if head.isAbstract then noteAt place .abstractModifier

/-- A constructor from its parameters on. -/
def classConstructor (head : MemberHead) : Parser MemberSort := do
  noteConstructorModifiers head
  if ← at? "<" then
    for place in ← g.typeParameterPlaces false true do noteAt place .constructorTypeParameter
  expect "("
  let parameters ← within
    (fun context =>
      { context with inParameters := true, inTypedOperand := false, inClassField := false })
    g.constructorParameters
  expect ")"
  if ← at? ":" then
    let type ← g.annotation
    noteAt type.span.start .constructorType
  let hasBody ← within (fun context => { context with inClassField := false })
    (g.functionBody false false (parameters.all (·.isSimple)))
  if hasBody then return .constructorWithBody
  for parameter in parameters do
    if let .property _ := parameter.form then noteAt parameter.span.start .parameterProperty
  for parameter in parameters do
    match parameter.form with
    | .withDefault => noteAt parameter.span.start .declaredInitializer
    | .property (some place) => noteAt place .declaredInitializer
    | _ => pure ()
  return .other

/-- The parameters of a getter or setter. -/
def accessorParameters (isSetter : Bool) (place : Nat) : Parser (List PatternSyntax) := do
  let parameters ← g.parameters
  let named := parameters.filter fun parameter => parameter.form ≠ .name "this"
  if isSetter && named.length ≠ 1 then noteAt place .setterParameter
  if !isSetter && !named.isEmpty then noteAt place .getterParameter
  if isSetter then
    if let some first := parameters.head? then
      if first.form = .rest then noteAt first.span.start .setterRest
  return parameters

/-- `get a() { … }` and `set a(b) { … }`, behind the first word. -/
def classAccessor (head : MemberHead) (isSetter : Bool) (place : Nat) : Parser MemberSort := do
  let name ← g.classKey
  if head.isReadonly then noteAt place .readonlyAccessor
  if name.isConstructor then noteAt place .constructorAccessor
  g.classMethod head name false false (g.accessorParameters isSetter place)

/-- `async a() { … }`, behind the first word. -/
def asyncMethod (head : MemberHead) (isOptional : Bool) : Parser MemberSort := do
  if (← modifier? ["override"] false).isSome then
    noteAt (← get).previous.start (.modifierOrder "override" "async")
  let isGenerator ← eat "*"
  let name ← g.classKey
  if name.isConstructor then failAt name.start .asyncConstructor
  if head.isReadonly then noteAt head.start .readonlyMethod
  unless isOptional do
    let _ ← eat "?"
  g.classMethod head name true isGenerator g.parameters

/-- `*a() { … }`, behind the star. -/
def generatorMethod (head : MemberHead) : Parser MemberSort := do
  let name ← g.classKey
  if head.isReadonly then noteAt head.start .readonlyMethod
  if name.isConstructor then noteAt head.start .constructorGenerator
  g.classMethod head name false true g.parameters

/-! ## Members -/

/-- A member from behind its name on. -/
def classMemberRest (head : MemberHead) (name : ClassKey) (isOptional : Bool) :
    Parser MemberSort := do
  if ← atMethod then
    if head.isDeclared then noteAt head.start .declaredElement
    if head.isReadonly then failAt head.start .readonlyMethod
    if name.isConstructor then return ← g.classConstructor head
    return ← g.classMethod head name false false g.parameters
  let isGeneratorNext ← (afterBreak <&&> at? "*")
  let isAccessor := name.key = .word "get" || name.key = .word "set"
  if isAccessor && !isGeneratorNext && !(← atProperty false) then
    return ← g.classAccessor head (name.key = .word "set") name.start
  if ← atProperty true then return ← g.classProperty head name isOptional
  if name.key = .word "async" && !(← afterBreak) then return ← g.asyncMethod head isOptional
  unexpected "* for generator, private key, identifier or async"

/-- `{ … }` behind `static`, whose statements run when the class is made. -/
def staticBlock : Parser MemberSort := do
  let _ ← within (fun context => { context with inStaticBlock := true, inClassField := true })
    g.block
  return .other

/-- A member from behind `static` and `accessor` on. -/
def classMemberBehindHead (head : MemberHead) : Parser MemberSort := do
  let head ← memberModifiers head
  let hasAccessor ← if head.hasAccessor || head.isReadonly then pure head.hasAccessor
    else eat "accessor"
  let head := { head with hasAccessor }
  if head.isStatic && (← at? leftBrace) then
    if head.isDeclared then noteAt head.start .misplacedModifiers
    if head.hasAccess then noteHere .misplacedModifiers
    return ← g.staticBlock
  if ← at? "static" <&&> ahead? leftBrace then
    if let some place := head.lastModifier then noteAt place .misplacedModifiers
    if let some place := head.static then noteAt place .misplacedModifiers
    bump
    return ← g.staticBlock
  if !head.isAbstract && !head.isOverride && !head.hasAccess then
    if let some _ ← g.indexMember? head.start head.isReadonly then return .other
  if ← eat "*" then return ← g.generatorMethod head
  let readonlyName ← (return head.isReadonly) <&&> atAny ["!", ":"]
  let name ← if readonlyName then pure ⟨.word "readonly", head.start, false⟩ else g.classKey
  let isOptional ← eat "?"
  g.classMemberRest head name isOptional

/-- A member of a class. -/
def classMember : Parser MemberSort := do
  let start ← position
  let declaredFirst ← eat "declare"
  let access ← access?
  let isDeclared ← if declaredFirst then pure true else eat "declare"
  let head : MemberHead :=
    { start, isDeclared, hasAccess := access.isSome, static := none, hasAccessor := false
      modifiers := [], lastModifier := none }
  if isDeclared then
    if let some sort ← g.modifierAsName? head "declare" true then return sort
  let place ← position
  let isStatic ← eat "static"
  if isStatic then
    if let some sort ← g.modifierAsName? head "static" false then return sort
  let head := { head with static := if isStatic then some place else none }
  let hasAccessor ← eat "accessor"
  if hasAccessor then
    if let some sort ← g.modifierAsName? head "accessor" true then return sort
  g.classMemberBehindHead { head with hasAccessor }

/-- The members between the braces of a class, at most one of them a constructor with a body; where
those begin that are left to other classes. -/
def classBody : Parser (List Nat) := do
  let (places, _) ← iterate
    (fun (places, hasConstructor) => do
      if (← atEnd) || (← at? rightBrace) then return none
      if ← eat ";" then return some (places, hasConstructor)
      let start ← position
      match ← within (fun context => { context with inClassField := true }) g.classMember with
      | .constructorWithBody =>
        if (← get).context.inDeclare then return some (places, hasConstructor)
        if hasConstructor then noteAt start .repeatedConstructor
        return some (places, true)
      | .abstract => return some (start :: places, hasConstructor)
      | .other => return some (places, hasConstructor))
    (([] : List Nat), false)
  return places.reverse

/-! ## Heritage -/

/-- What a class extends. -/
def superClass : Parser Unit := do
  match ← g.leftHandSide with
  | .instantiation .. => return
  | _ =>
    if ← at? "<" then
      let _ ← g.typeArguments

/-- `extends A`, if it follows, with the other names that may not follow it; whether it does. -/
def extendsClause : Parser Bool := do
  unless ← eat "extends" do return false
  g.superClass
  if ← eat "," then
    for item in ← g.heritageList do noteAt item.expression.span.start .severalBases
  return true

/-- A second clause of the same sort, or one that stands too late. -/
def repeatedClause (word : String) (cause : Cause) (clause : Parser Unit) : Parser Bool := do
  unless ← eat word do return false
  noteAt (← get).previous.start cause
  clause
  return true

/-- `extends A implements B`; whether the class has a base. -/
def classHeritage : Parser Bool := do
  let names : Parser Unit := do
    let _ ← g.heritageList
  let hasBase ← g.extendsClause
  let _ ← repeatedClause "extends" .repeatedExtends g.superClass
  if ← eat "implements" then names
  let _ ← repeatedClause "implements" .repeatedImplements names
  let hasLateBase ← repeatedClause "extends" .repeatedImplements g.superClass
  return hasBase || hasLateBase

/-- The words that no class can be called. -/
def refusedClassNames : List String :=
  ["any", "unknown", "never", "number", "bigint", "boolean", "string", "symbol", "void", "object",
    "null", "intrinsic"]

/-- `class name<T> extends A implements B { … }`, in which the name can be missing unless it is
needed. Only an abstract class leaves members to others. -/
def classFrom (nameNeeded isAbstract : Bool) : Parser Unit :=
  within (fun context => { context with inClass := true }) do
    expect "class"
    if nameNeeded || (← atName) then
      let place ← position
      let name ← bindingName false
      if refusedClassNames.contains name then noteAt place .className
    let _ ← g.typeParameters? true true
    let hasBase ← g.classHeritage
    expect leftBrace
    let abstracts ← within (fun context => { context with hasBase }) g.classBody
    if (← token).isNone then noteHere (.expected rightBrace "<eof>") else expect rightBrace
    unless isAbstract do
      for place in abstracts do noteAt place .abstractOutside

def classDeclaration (start : Nat) (nameNeeded isAbstract : Bool) : Parser ItemSyntax := do
  awaitingNoColon (g.classFrom nameNeeded isAbstract)
  return .other (← spanFrom start)

end Declutter.Syntax.Grammar
