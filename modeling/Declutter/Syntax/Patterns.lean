import Declutter.Syntax.Names

/-!
# Patterns and parameters

What values are bound to: names, and arrays and objects of patterns. A parameter is a pattern
with a type and a default value, or the rest of the arguments.
-/

namespace Declutter.Syntax.Grammar

open Declutter.Syntax.Parser

variable (g : Grammar)

/-- `: T` -/
def annotation : Parser TypeSyntax :=
  inType do
    expect ":"
    g.type

def annotation? : Parser (Option TypeSyntax) := do
  if ← at? ":" then return some (← g.annotation)
  return none

/-- The name of a property, and where it lies. -/
def propertyName : Parser (MemberKey × Span) := do
  let start ← position
  let key ← match ← needToken with
    | .string value _ => do
      bump
      pure (MemberKey.string value)
    | .number .. => do
      bump
      pure (MemberKey.number (← spanFrom start))
    | .bigint .. => do
      bump
      pure (MemberKey.other (← spanFrom start))
    | token => do
      if let some text := token.word? then
        bump
        pure (MemberKey.word text)
      else if token.spells "[" then
        bump
        let inner ← position
        let _ ← allowingIn g.assignment
        if ← at? "," then
          repeatWhile do
            if ← eat "," then
              let _ ← allowingIn g.assignment
              return true
            return false
          noteAt inner .computedList
        expect "]"
        pure MemberKey.computed
      else unexpected "identifier, string literal, numeric literal or [ for the computed key"
  return (key, ← spanFrom start)

/-- A pattern with a default value, perhaps. -/
def patternElement : Parser PatternSyntax := do
  let start ← position
  let pattern ← g.pattern
  if ← eat "=" then
    let _ ← allowingIn g.assignment
    if (← get).context.inDeclare then noteAt start .declaredInitializer
    return ⟨← spanFrom start, .withDefault⟩
  return pattern

/-- Whether an array or object pattern in a declaration is followed by a question mark. -/
def eatPatternOption : Parser Unit := do
  if (← get).context.inDeclare then
    let _ ← eat "?"

/-- `[a, b = 1, ...c]` -/
def arrayPattern : Parser PatternSyntax := do
  let start ← position
  bump
  let _ ← iterate
    (fun (rest : Option Nat) => do
      if (← atEnd) || (← at? "]") then return none
      if ← eat "," then return some rest
      if let some place := rest then noteAt place .restNotLast
      let place ← position
      let isRest ← eat "..."
      let _ ← if isRest then g.pattern else g.patternElement
      unless ← at? "]" do
        expect ","
        if isRest && (← at? "]") then noteAt (← get).previous.start .commaAfterRest
      return some (if isRest then some place else rest))
    none
  expect "]"
  eatPatternOption
  return ⟨← spanFrom start, .array⟩

/-- One property of an object pattern; if it is the rest of them, where it lies and its pattern. -/
def patternProperty : Parser (Option (Nat × PatternSyntax)) := do
  let start ← position
  if ← eat "..." then return some (start, ← g.pattern)
  let (key, span) ← g.propertyName
  if ← eat ":" then
    let _ ← g.patternElement
    return none
  match key with
  | .word text =>
    if ← eat "=" then
      let _ ← allowingIn g.assignment
    else if keywords.contains text || moduleReserved.contains text then
      noteAt span.start .reservedShorthand
    return none
  | _ => unexpected "an identifier"

/-- Reads what stands between braces, a comma behind each property but the last, and where a comma
behind the last one lies. -/
def braced {α : Type} (property : Parser α) : Parser (List α × Option Nat) :=
  awaitingNoColon do
    expect leftBrace
    let (items, comma, _) ← iterate
      (fun (items, comma, isDone) => do
        if isDone then return none
        if ← eat rightBrace then return some (items, comma, true)
        let items := (← property) :: items
        if ← at? rightBrace then return some (items, comma, false)
        expect ","
        let comma ← if ← at? rightBrace then pure (some (← get).previous.start) else pure comma
        return some (items, comma, false))
      ([], none, false)
    return (items.reverse, comma)

/-- Notes down what is wrong with the rests among the properties of an object pattern. The last
property can be the rest if it is a name and no comma follows it. -/
def noteRests (comma : Option Nat) : List (Option (Nat × PatternSyntax)) → Parser Unit
  | [] => return
  | [some (place, pattern)] => do
    match pattern.form, comma with
    | .name _, some place => noteAt place .commaAfterRest
    | .name _, none => return
    | _, _ => failAt place .restWithoutName
  | property :: properties => do
    if let some (place, _) := property then noteAt place .restNotLast
    noteRests comma properties

/-- `{ a, b: c, ...d }` -/
def objectPattern : Parser PatternSyntax := do
  let start ← position
  let (properties, comma) ← braced g.patternProperty
  noteRests comma properties
  eatPatternOption
  return ⟨← spanFrom start, .object⟩

/-- A name, or an array or object of patterns. -/
def patternStep (letAllowed : Bool) : Parser PatternSyntax := do
  let token ← needToken
  let start ← position
  if token.word?.isSome then
    let text ← bindingName letAllowed
    return ⟨← spanFrom start, .name text⟩
  if token.spells "[" then return ← g.arrayPattern
  if token.spells leftBrace then return ← g.objectPattern
  unexpected "yield, an identifier, [ or \x7b"

/-! ## Parameters -/

/-- A parameter, neither the rest of the arguments nor one that makes a property. -/
def parameter : Parser PatternSyntax := do
  let start ← position
  let hasModifier ← eatParameterModifier
  let patternStart ← position
  let pattern ← g.patternElement
  let hasDefault := pattern.form = .withDefault
  let isOptional ← eat "?"
  if isOptional && hasDefault && !(← get).context.inDeclare then
    failAt (← get).previous.start .optionalPattern
  let isTyped := (← g.annotation?).isSome
  if isTyped && hasDefault then noteAt patternStart .typeAfterDefault
  let pattern : PatternSyntax := { pattern with span := ← spanFrom patternStart }
  let pattern ← do
    if ← eat "=" then
      if isOptional && !hasDefault then noteAt patternStart .optionalInitializer
      let _ ← g.assignment
      if (← get).context.inDeclare then noteAt start .declaredInitializer
      pure ⟨← spanFrom start, .withDefault⟩
    else pure pattern
  if hasModifier then noteAt start .parameterProperty
  return pattern

/-- `...rest`, which has no default; only constructors take none at all for it. -/
def restParameter (defaultRead : Bool) (start : Nat) : Parser PatternSyntax := do
  let pattern ← g.pattern
  if defaultRead then
    if ← eat "=" then
      let _ ← g.assignment
      noteAt pattern.span.start .restInitializer
  let _ ← g.annotation?
  let span ← spanFrom start
  if defaultRead then
    if ← eat "?" then noteAt (← get).previous.start .optionalRest
  return ⟨span, .rest⟩

/-- Reads parameters up to the closing parenthesis, which is left to be read. -/
def parametersOf (parameter : Parser PatternSyntax) (defaultRead : Bool) :
    Parser (List PatternSyntax) := do
  let (parameters, _) ← iterate
    (fun (read, rest) => do
      if (← atEnd) || (← at? ")") then return none
      if let some place := rest then noteAt place .restParameterNotLast
      let start ← position
      let isRest ← eat "..."
      let pattern ← if isRest then g.restParameter defaultRead start else parameter
      unless ← at? ")" do
        expect ","
        if isRest && (← at? ")") then noteAt (← get).previous.start .commaAfterRest
      return some (pattern :: read, if isRest then some start else rest))
    (([] : List PatternSyntax), (none : Option Nat))
  return parameters.reverse

def parameters : Parser (List PatternSyntax) := g.parametersOf g.parameter true

/-- A parameter of a constructor, which with a modifier makes a property. -/
def constructorParameter : Parser PatternSyntax := do
  let start ← position
  let access ← access?
  let override ← modifier? ["override"] false
  let readonly ← modifier? ["readonly"] false
  let pattern ← g.parameter
  if access.isNone && override.isNone && readonly.isNone then return pattern
  match pattern.form with
  | .name _ => return ⟨← spanFrom start, .property none⟩
  | .withDefault => return ⟨← spanFrom start, .property (some pattern.span.start)⟩
  | _ => failAt pattern.span.start .patternProperty

def constructorParameters : Parser (List PatternSyntax) :=
  g.parametersOf g.constructorParameter false

/-- The parameters of a function type, which have no default values. -/
def signatureParameters : Parser (List PatternSyntax) := do
  let parameters ← g.parameters
  if parameters.any (fun parameter => parameter.form = .withDefault) then
    unexpected
      "an identifier, [ for an array pattern, \x7b for an object patter or ... for a rest pattern"
  expect ")"
  return parameters

end Declutter.Syntax.Grammar
