import Declutter.Syntax.Declarations

/-!
# Statements

Statements by their first word, and those that begin like an expression: labels, declarations
whose first word is a name, and expressions themselves.
-/

namespace Declutter.Syntax.Grammar

open Declutter.Syntax.Parser

variable (g : Grammar)

def substatement : Parser Unit := do
  let _ ← g.statement false

/-- A statement that can be left by `break` and repeated by `continue`. -/
def loopBody : Parser Unit :=
  within (fun context => { context with breakAllowed := true, continueAllowed := true })
    g.substatement

/-- `(…)` around an expression. -/
def parenthesizedCondition : Parser Unit := do
  expect "("
  let _ ← allowingIn g.expression
  expect ")"

/-! ## Branches and loops -/

def ifStatement : Parser Unit := do
  bump
  g.parenthesizedCondition
  g.substatement
  if ← eat "else" then g.substatement

/-- What stands in the parentheses of `for`, from the first semicolon on. -/
def forRest : Parser Unit := do
  unless ← eat ";" do
    let _ ← allowingIn g.expression
    expect ";"
  unless ← at? ")" do
    let _ ← allowingIn g.expression

/-- `of items` or `in items`; whether it is `of`. -/
def forEach : Parser Bool := do
  let isOf ← at? "of"
  bump
  let _ ← allowingIn (if isOf then g.assignment else g.expression)
  return isOf

/-- What is wrong with variables in front of `of` or `in`: there is one of them, with no type and no
value. -/
def noteEach : List Declarator → Parser Unit
  | [] => return
  | [declared] => do
    let place := declared.pattern.span.start
    if declared.hasValue then noteAt place .initializedHead
    if declared.isTyped then noteAt place .typedHead
  | _ :: others => do
    for declared in others do noteAt declared.pattern.span.start .severalInHead

/-- Whether an expression is the word `using`, possibly awaited. -/
def isUsing : ExprSyntax → Bool
  | .name _ word | .awaiting _ (.name _ word) => word = "using"
  | _ => false

/-- `using a of items`, from the name on. -/
def forUsing (start : Nat) : Parser Bool := do
  let _ ← bindingName true
  let _ ← needToken
  if ← at? "in" then noteAt start .usingInHead
  g.forEach

/-- What stands in the parentheses of `for`; whether it goes through items with `of`. -/
def forHead : Parser Bool := do
  if ← (atAny ["const", "var"] <||> (at? "let" <&&> letBinds)) then
    let declared ← g.variableList true
    if ← atAny ["of", "in"] then
      noteEach declared
      return ← g.forEach
    expect ";"
    g.forRest
    return false
  if ← eat ";" then
    g.forRest
    return false
  let target ← within (fun context => { context with inAllowed := false }) g.expression
  if isUsing target && !(← at? "of") && ((← ahead? "of") || (← ahead? "in")) then
    return ← g.forUsing target.span.start
  if ← atAny ["of", "in"] then
    noteFindings target.asEach
    if target.isCompound && (← at? "in") then noteAt target.span.start .patternHead
    return ← g.forEach
  expect ";"
  g.forRest
  return false

/-- A `for` with its body. Only the items of `of` can be awaited. -/
def forStatement : Parser Unit := do
  bump
  let awaitPlace ← position
  let isAwaited ← eat "await"
  expect "("
  let isOf ← within
    (fun context => { context with inForHead := true, inAwaitHead := isAwaited })
    g.forHead
  expect ")"
  g.loopBody
  if isAwaited && !isOf then failAt awaitPlace .awaitHead

def doStatement : Parser Unit := do
  bump
  g.loopBody
  expect "while"
  g.parenthesizedCondition
  let _ ← eatSemicolon

/-- The cases of a `switch`, at most one of them the default. -/
def switchStatement : Parser Unit := do
  bump
  g.parenthesizedCondition
  expect leftBrace
  within (fun context => { context with breakAllowed := true }) do
    let _ ← iterate
      (fun hasDefault => do
        unless ← atAny ["case", "default"] do return none
        let isCase ← at? "case"
        bump
        if isCase then
          let _ ← allowingIn g.expression
        else if hasDefault then failAt (← get).previous.start .repeatedDefault
        expect ":"
        repeatWhile do
          if (← atEnd) || (← atAny ["case", "default", rightBrace]) then return false
          let _ ← g.statement true
          return true
        return some (hasDefault || !isCase))
      false
  expect rightBrace

/-! ## Jumps and handlers -/

def jumpStatement (start : Nat) : Parser Unit := do
  let isBreak ← at? "break"
  bump
  let label ← do
    if ← eatSemicolon then pure none
    else
      let context := (← get).context
      let label ← identifier (!context.inGenerator) (!context.inAsync)
      expectSemicolon
      pure (some label)
  let state ← get
  let isUnknown := label.any fun label => !state.labels.contains label
  if isBreak then
    if isUnknown then noteAt start .breakTarget
    else if !state.context.breakAllowed then noteAt start .breakOutside
  else if !state.context.continueAllowed then noteAt start .continueTarget
  else if isUnknown then noteAt start .crossedFunction

def returnStatement (start : Nat) : Parser Unit := do
  bump
  unless ← atStatementEnd do
    let _ ← allowingIn g.expression
  expectSemicolon
  unless (← get).context.inFunction do noteAt start .returnOutside

def throwStatement : Parser Unit := do
  bump
  if ← afterBreak then failHere .lineBreakInThrow
  let _ ← allowingIn g.expression
  expectSemicolon

/-- `catch (e) { … }`, if it follows. -/
def catchClause : Parser Bool := do
  unless ← eat "catch" do return false
  if ← eat "(" then
    let _ ← g.pattern
    let _ ← g.annotation?
    expect ")"
  let _ ← g.block
  return true

/-- `finally { … }`, if it follows. -/
def finallyClause : Parser Bool := do
  unless ← eat "finally" do return false
  let _ ← g.block
  return true

def tryStatement : Parser Unit := do
  bump
  let _ ← g.block
  let place ← position
  let hasCatch ← g.catchClause
  let hasFinally ← g.finallyClause
  unless hasCatch || hasFinally do noteAt place .expectedSemicolon

/-- `catch` and `finally` with no `try` in front of them. -/
def strayHandler : Parser Unit := do
  noteHere .expectedSemicolon
  try
    let _ ← g.catchClause
  catch _ => pure ()
  try
    let _ ← g.finallyClause
  catch _ => pure ()

def withStatement : Parser Unit := do
  noteHere .withStatement
  bump
  g.parenthesizedCondition
  g.substatement

/-! ## Statements that begin like an expression -/

/-- A statement behind its label. -/
def labelled (start : Nat) (label : String) : Parser ItemSyntax :=
  within (fun context => { context with breakAllowed := true }) do
    let labels := (← get).labels
    modify fun state => { state with labels := label :: labels }
    if ← at? "function" then
      let place ← position
      let _ ← g.functionDeclaration true
      noteAt place .labelledFunction
    else g.substatement
    if labels.contains label then noteAt start (.repeatedLabel label)
    modify fun state => { state with labels }
    return .other (← spanFrom start)

/-- What a name at the beginning of a statement declares, if it declares anything. -/
def namedStatement? (start : Nat) (name : String) : Parser (Option ItemSyntax) := do
  match name with
  | "declare" => g.declared? start
  | "global" =>
    unless ← at? leftBrace do return none
    g.namespaceBody
    return some (.other (← spanFrom start))
  | _ => g.declarationNamed? start name false

/-- An expression as a statement, or a declaration that begins with a name. -/
def expressionStatement (start : Nat) : Parser ItemSyntax := do
  let expression ← allowingIn g.expression
  match expression with
  | .name span name =>
    if ← eat ":" then return ← g.labelled start name
    if name = "interface" && (← afterBreak) then
      let _ ← eatSemicolon
      return .other (← spanFrom start)
    if let some item ← g.namedStatement? span.start name then return item
    if ["public", "static", "abstract"].contains name then
      if ← eat "interface" then
        noteAt span.start .interfaceName
        return ← g.interfaceDeclaration start
  | _ => pure ()
  if ← eatSemicolon then
    let span ← spanFrom start
    match expression with
    | .string _ _ raw => return .directive span raw
    | _ => return .other span
  checkToken
  if (← token).any (·.isBinaryOperator) then
    noteHere .expectedSemicolon
    let _ ← g.operators expression 0
    return .other (← spanFrom start)
  failHere .expectedStatementEnd

/-- `await` at the beginning of a statement: variables behind `using`, or an expression. -/
def awaitStatement (start : Nat) : Parser ItemSyntax := do
  let isUsing ← ahead? "using"
  bump
  if isUsing then
    if let some item ← g.usingDeclaration? start then return item
  let awaited ← g.awaitRest start
  let _ ← allowingIn (g.operators awaited 0)
  let _ ← eatSemicolon
  return .other (← spanFrom start)

/-! ## Statements by their first word -/

/-- A statement that its first word decides, if it does. -/
def keywordStatement? (start : Nat) (text : String) (declarations : Bool) :
    Parser (Option ItemSyntax) := do
  let whole (statement : Parser Unit) : Parser (Option ItemSyntax) := do
    statement
    return some (.other (← spanFrom start))
  match text with
  | "await" => if declarations then return some (← g.awaitStatement start)
  | "using" => if declarations then return ← g.usingDeclaration? start
  | "break" | "continue" => return ← whole (jumpStatement start)
  | "debugger" =>
    return ← whole do
      bump
      expectSemicolon
  | "do" => return ← whole g.doStatement
  | "for" => return ← whole g.forStatement
  | "function" =>
    unless declarations do noteHere .declarationNotAllowed
    return some (← g.functionDeclaration true)
  | "class" =>
    unless declarations do noteHere .declarationNotAllowed
    return some (← g.classDeclaration start true false)
  | "if" => return ← whole g.ifStatement
  | "return" => return ← whole (g.returnStatement start)
  | "switch" => return ← whole g.switchStatement
  | "throw" => return ← whole g.throwStatement
  | "catch" | "finally" => return ← whole g.strayHandler
  | "try" => return ← whole g.tryStatement
  | "with" => return ← whole g.withStatement
  | "while" =>
    return ← whole do
      bump
      g.parenthesizedCondition
      g.loopBody
  | "var" => return some (← g.variableStatement start)
  | "const" => if declarations then return some (← g.variableStatement start)
  | "let" =>
    if ← (return declarations) <&&> letBinds then return some (← g.variableStatement start)
  | "interface" | "type" | "enum" =>
    if ← wordAhead <&&> (return !(← breakAhead)) then
      return ← g.declarationNamed? start text true
  | _ => pure ()
  return none

/-- A statement that is no import and no export. -/
def plainStatement (declarations : Bool) : Parser ItemSyntax :=
  awaitingNoColon do
    let start ← position
    if ← at? "const" <&&> ahead? "enum" then
      bump
      bump
      return ← g.enumDeclaration start
    if let some text := (← needToken).word? then
      if let some item ← g.keywordStatement? start text declarations then return item
    if ← at? leftBrace then
      let _ ← g.block
      return .other (← spanFrom start)
    if ← eat ";" then return .empty (← spanFrom start)
    if ← atAsyncFunction then return ← g.functionDeclaration true
    g.expressionStatement start

/-- A statement inside of others, where nothing is imported or exported. -/
def statementStep (declarations : Bool) : Parser ItemSyntax := do
  let start ← position
  if ← at? "import" <&&> (ahead? "(" <||> ahead? ".") then
    let _ ← g.expression
    let _ ← eatSemicolon
    return .other (← spanFrom start)
  if ← atAny ["import", "export"] then failHere .nestedModuleItem
  g.plainStatement declarations

end Declutter.Syntax.Grammar
