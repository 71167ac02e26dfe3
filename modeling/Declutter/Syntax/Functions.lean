import Declutter.Syntax.Types

/-!
# Functions

Blocks, and functions from their parameters on. A function without a body ends like a statement:
it is declared or overloaded.
-/

namespace Declutter.Syntax.Grammar

open Declutter.Syntax.Parser

variable (g : Grammar)

/-- Items up to a closing brace. The end of the text in its place is noted down. -/
def itemsToBrace (item : Parser ItemSyntax) : Parser (List ItemSyntax) := do
  let items ← collect do
    if (← token).isNone then
      noteHere (.expected rightBrace "<eof>")
      return none
    if ← at? rightBrace then return none
    return some (← item)
  bump
  return items

/-- `{ … }` around statements. -/
def block : Parser (List ItemSyntax) := do
  expect leftBrace
  itemsToBrace (g.statement true)

/-- Where the strings in front of all other items ask for strict code, if they do. -/
def strictDirective? : List ItemSyntax → Option Nat
  | .directive span raw :: items =>
    if raw = "\"use strict\"" || raw = "'use strict'" then some span.start
    else strictDirective? items
  | _ => none

/-- The block of a function. With parameters that are not all names it comes too late to ask for
strict code. -/
def bodyBlock (hasSimpleParameters : Bool) : Parser Unit := do
  let items ← allowingIn g.block
  unless hasSimpleParameters do
    if let some place := strictDirective? items then noteAt place .lateStrictness

/-- Runs a parser with no label in scope. -/
def withoutLabels {α : Type} (parser : Parser α) : Parser α := fun state =>
  let restore (after : State) : State :=
    { after with labels := state.labels, arrowStart := state.arrowStart }
  match parser { state with labels := [], arrowStart := none } with
  | .ok value after => .ok value (restore after)
  | .error fault after => .error fault (restore after)

/-- Runs a parser as the body of a function. An arrow function has no `new.target` of its own. -/
def inBody {α : Type} (isAsync isGenerator isArrow : Bool) (parser : Parser α) : Parser α := do
  if (← get).context.inDeclare && (← at? leftBrace) then noteHere .declaredBody
  withoutLabels do
    within
      (fun context =>
        { context with
          inAsync := isAsync
          inGenerator := isGenerator
          hasOwnTarget := context.hasOwnTarget || !isArrow
          inStaticBlock := false
          breakAllowed := false
          continueAllowed := false
          inFunction := true
          awaitsColon := false })
      parser

/-- The body of a function, or the end of a function that has none; whether it has one. -/
def functionBody (isAsync isGenerator hasSimpleParameters : Bool) : Parser Bool :=
  inBody isAsync isGenerator false do
    unless ← at? leftBrace do
      if ← eatSemicolon then return false
    g.bodyBlock hasSimpleParameters
    return true

/-- The body of an arrow function; whether it is a block and no expression. -/
def arrowBody (isAsync hasSimpleParameters : Bool) : Parser Bool :=
  inBody isAsync false true do
    if ← at? leftBrace then
      g.bodyBlock hasSimpleParameters
      return true
    let _ ← g.assignment
    return false

/-- Runs a parser as part of a function, whose `arguments` are at hand. -/
def inFunction {α : Type} (isAsync isGenerator : Bool) (parser : Parser α) : Parser α :=
  within
    (fun context =>
      { context with inAsync := isAsync, inGenerator := isGenerator, inClassField := false })
    parser

/-- A function from its type parameters on; whether it has a body. -/
def functionRest (isAsync isGenerator : Bool) (parameters : Parser (List PatternSyntax)) :
    Parser Bool :=
  inFunction isAsync isGenerator do
    let _ ← g.typeParameters? false true
    expect "("
    let parameters ← within
      (fun context => { context with inParameters := true, inFunction := false })
      parameters
    expect ")"
    if ← at? ":" then g.resultType ":"
    let hasBody ← g.functionBody isAsync isGenerator (parameters.all (·.isSimple))
    unless hasBody do
      for parameter in parameters do
        if parameter.form = .withDefault then noteAt parameter.span.start .declaredInitializer
    return hasBody

/-- `function* name(…) { … }`, in which the name can be missing unless it is needed. -/
def function (isAsync nameNeeded bodyNeeded : Bool) : Parser Unit := do
  expect "function"
  let isGenerator ← eat "*"
  let name : Parser Unit := do
    if nameNeeded || (← atName) || (← at? "this") then
      let _ ← bindingName true
  if bodyNeeded then inFunction isAsync isGenerator name
  else within (fun context => { context with inClassField := false }) name
  awaitingNoColon do
    let hasBody ← g.functionRest isAsync isGenerator g.parameters
    if bodyNeeded && !hasBody then unexpected leftBrace

/-- A function that is declared. -/
def functionDeclaration (nameNeeded : Bool) : Parser ItemSyntax := do
  let start ← position
  let isAsync ← eat "async"
  g.function isAsync nameNeeded false
  return .other (← spanFrom start)

/-- Whether an asynchronous function begins here. -/
def atAsyncFunction : Parser Bool :=
  at? "async" <&&> ahead? "function" <&&> (return !(← breakAhead))

end Declutter.Syntax.Grammar
