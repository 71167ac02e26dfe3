import Declutter.Syntax.Functions

/-!
# Calls and members

What follows an operand: its members, elements, calls, templates and type arguments.
-/

namespace Declutter.Syntax.Grammar

open Declutter.Syntax.Parser

variable (g : Grammar)

/-- An expression: assignments with commas between them. -/
def expression : Parser ExprSyntax := do
  let start ← position
  let first ← g.assignment
  unless ← at? "," do return first
  repeatWhile do
    unless ← eat "," do return false
    let _ ← g.assignment
    return true
  return .other (← spanFrom start)

/-- An argument or an item of an array. -/
def argument : Parser ArgumentSyntax := do
  let start ← position
  let isSpread ← eat "..."
  return .mk start isSpread (← allowingIn g.assignment)

/-- `(a, ...b)` -/
def callArguments : Parser Unit :=
  awaitingNoColon do
    expect "("
    let _ ← iterate
      (fun isFirst => do
        if (← atEnd) || (← at? ")") then return none
        unless isFirst do
          expect ","
          if ← at? ")" then return none
        let _ ← g.argument
        return some false)
      true
    expect ")"

/-- A template, with expressions in it. -/
def template (isTagged : Bool) : Parser Unit :=
  awaitingNoColon do
    templateOf isTagged do
      let _ ← allowingIn g.expression

/-- What is called or taken a member of: an operand, or a keyword that is none by itself. -/
inductive Callee where
  | operand (expression : ExprSyntax)
  | super (span : Span)
  | importing (span : Span)

def Callee.span : Callee → Span
  | .operand expression => expression.span
  | .super span | .importing span => span

def Callee.isChain : Callee → Bool
  | .operand expression => expression.isChain
  | .super _ | .importing _ => false

/-- The rest of `async <T>(…) => …`, behind the first word. -/
def genericAsyncArrow (start : Nat) : Parser (Option ExprSyntax) := do
  unless ← at? "<" do return none
  let parameters? ← attempt do
    let _ ← g.typeParameters? false false
    expect "("
    let parameters ← g.parameters
    expect ")"
    if ← at? ":" then g.resultType ":"
    expect "=>"
    return some parameters
  match parameters? with
  | some parameters =>
    let _ ← g.arrowBody true (parameters.all (·.isSimple))
    return some (.arrow (← spanFrom start))
  | none => return none

/-- Whether an operator or the end of an operand follows type arguments, so that they stand by
themselves. -/
def endsInstantiation : Parser Bool := do
  if ← atAny ["<", ">", "+", "-", "(", backtick] then return false
  if ← afterBreak then return true
  match ← token with
  | none => return true
  | some token =>
    if token.isBinaryOperator then return true
    if token.spells "import" then
      return !((← ahead? "(") || (← ahead? "<") || (← ahead? "."))
    if token.spells "#" then return !(← wordAhead)
    let starts := match token with
      | .string .. | .number .. | .bigint .. | .regex .. => true
      | .name _ => token.isBindable
      | .keyword text =>
        ["this", "super", "null", "true", "false", "function", "class", "new", "delete", "typeof",
          "void", "await", "yield"].contains text
      | .sign text => ["[", leftBrace, "~", "!", "++", "--"].contains text
      | _ => false
    return !starts

/-- Type arguments that stand by themselves, if there are any. -/
def freeArguments? : Parser (Option (List TypeSyntax)) := do
  unless ← at? "<" do return none
  attempt do
    let arguments ← g.typeArguments
    return if ← endsInstantiation then some arguments else none

/-- An operand with type arguments, if there are any. -/
def instantiated (start : Nat) (expression : ExprSyntax) (arguments : Option (List TypeSyntax)) :
    Parser ExprSyntax := do
  match arguments with
  | some arguments => return .instantiation (← spanFrom start) expression arguments
  | none => return expression

/-- A template behind an operand, which is read in a way of the operand's own. -/
def taggedTemplate (start : Nat) (tag : ExprSyntax) : Parser ExprSyntax := do
  g.template true
  if let .optionalChain _ _ := tag then noteAt start .taggedChain
  return .other (← spanFrom start)

/-- A call of something, as part of the chain that it belongs to. -/
def callFrom (start : Nat) (callee : Callee) : Parser ExprSyntax := do
  g.callArguments
  let span ← spanFrom start
  return if callee.isChain then .optionalChain span true else .call span

/-- Type arguments with a call, a template, or the end of a target behind them. What comes of it may
be the end of the chain. -/
def appliedArguments (start : Nat) (object : ExprSyntax) (callAllowed : Bool) :
    Parser (Option (ExprSyntax × Bool)) :=
  within (fun context => { context with inTypedOperand := false }) do
    attempt do
      let isAsync := match object with
        | .name _ "async" => true
        | _ => false
      let isArrow ← (return callAllowed && isAsync && (← get).arrowStart = some object.span.start)
        <&&> (return !(← afterBreak))
      if isArrow then
        if let some arrow ← g.genericAsyncArrow start then return some (arrow, true)
      let arguments ← g.typeArguments
      if callAllowed && (← at? "(") then
        return some (← g.callFrom start (.operand object), true)
      if ← at? backtick then return some (← g.taggedTemplate start object, true)
      if ← atAny ["=", "as"] then
        return some (.instantiation (← spanFrom start) object arguments, false)
      return none

/-- What a member or an element of something is, once it has been read. Behind the name of a member
type arguments can follow. -/
def memberOf (start : Nat) (callee : Callee) (isOptional callAllowed : Bool)
    (make : Span → ExprSyntax → ExprSyntax) : Parser ExprSyntax := do
  let span ← spanFrom start
  let arguments ← g.freeArguments?
  match callee with
  | .operand object =>
    let read := if isOptional || object.isChain then .optionalChain span false
      else make span object
    instantiated start read arguments
  | .super _ =>
    if isOptional then failHere (if callAllowed then .invalidSuper else .invalidSuperCall)
    return .superMember span
  | .importing _ => return .other span

/-- One member, element, call or template behind an operand; none if nothing of it follows. What
comes of it may be the end of the chain. -/
def subscript (start : Nat) (callee : Callee) (callAllowed elementAllowed : Bool) :
    Parser (ExprSyntax × Bool) := do
  if !(← afterBreak) && (← at? "!") then
    modify fun state => { state with lexer := { state.lexer with operandAllowed := false } }
    bump
    match callee with
    | .operand object => return (.asserted (← spanFrom start) .nonNull object, true)
    | .super _ => failAt (← get).previous.start (.assertedKeyword "super")
    | .importing _ => failAt (← get).previous.start (.assertedKeyword "import")
  if let .operand object := callee then
    if ← atAny ["<", "<<"] then
      if let some result ← g.appliedArguments start object callAllowed then return result
  let arguments ← g.freeArguments?
  if let .importing _ := callee then
    unless ← atAny [".", "("] do unexpected "`.` or `(`"
  let isOptional ← at? "?" <&&> ahead? "."
  if isOptional then bump
  let isOptionalBefore (text : String) : Parser Bool :=
    (return isOptional) <&&> at? "." <&&> ahead? text
  if elementAllowed then
    let isElement ← do
      if ← isOptionalBefore "[" then bump
      eat "["
    if isElement then
      let _ ← allowingIn g.expression
      expect "]"
      let read ← g.memberOf start callee isOptional callAllowed fun span _ => .element span
      return (read, true)
  if (← isOptionalBefore "(") || (← isOptionalBefore "<") then
    bump
    if ← at? "<" then
      let _ ← g.typeArguments
    g.callArguments
    if let .operand _ := callee then return (.optionalChain (← spanFrom start) true, true)
    failHere .optionalSuperCall
  if callAllowed && !isOptional && (← at? "(") then
    return (← g.callFrom start callee, true)
  if isOptional || (← at? ".") then
    expect "."
    let name ← memberName
    let read ← g.memberOf start callee isOptional callAllowed fun span object =>
      .member span object name
    match callee, name with
    | .importing _, some "meta" | .operand _, _ | .super _, some _ => return (read, true)
    | .importing _, _ => unexpected "meta"
    | .super _, none => failHere .privateSuper
  match callee with
  | .operand object =>
    let read ← instantiated start object arguments
    if ← at? backtick then return (← g.taggedTemplate start read, true)
    return (read, false)
  | .super _ => failHere (if callAllowed then .invalidSuper else .invalidSuperCall)
  | .importing _ => failHere .importPlacement

/-- An operand with all that follows it. -/
def subscripts (callee : Callee) (callAllowed elementAllowed : Bool) : Parser ExprSyntax := do
  let start := callee.span.start
  let (callee, _) ← iterate
    (fun (callee, goesOn) => do
      if !goesOn then return none
      let (expression, goesOn) ← g.subscript start callee callAllowed elementAllowed
      return some (Callee.operand expression, goesOn))
    (callee, true)
  match callee with
  | .operand expression => return expression
  | .super span | .importing span => return .other span

/-- One name of an `extends` or `implements` clause, with its type arguments. -/
def heritage : Parser HeritageSyntax := do
  let start ← position
  let text ← word
  let name := ExprSyntax.name (← spanFrom start) text
  let expression ← g.subscripts (.operand name) false false
  match expression with
  | .instantiation _ inner arguments => return ⟨inner, arguments⟩
  | .name .. | .member .. => pure ()
  | _ => noteAt start .heritageExpression
  let arguments ← if ← at? "<" then g.typeArguments else pure []
  return ⟨expression, arguments⟩

def heritageList : Parser (List HeritageSyntax) :=
  commaList (atAny [leftBrace, "implements", "extends"]) g.heritage

end Declutter.Syntax.Grammar
