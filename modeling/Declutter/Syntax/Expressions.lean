import Declutter.Syntax.Classes

/-!
# Expressions

From tight to loose: operands, operands with calls and members behind them, operators in front,
operators between, conditions, assignments. A parenthesis may turn out to hold the parameters of
an arrow function; so it is read as expressions, and these are taken for patterns afterwards.
-/

namespace Declutter.Syntax.Grammar

open Declutter.Syntax.Parser

variable (g : Grammar)

def noteAll (faults : List Fault) : Parser Unit := do
  for fault in faults do noteAt fault.place fault.cause

/-- Notes down what is wrong with an expression, or ends the reading. -/
def noteFindings : Findings → Parser Unit
  | .ok faults => noteAll faults
  | .error fault => failAt fault.place fault.cause

/-- Whether an expression is an arrow function that began where the current one can. Nothing is
read behind such a function. -/
def endsWithArrow (expression : ExprSyntax) : Parser Bool := do
  match expression with
  | .arrow span => return (← get).arrowStart = some span.start
  | _ => return false

/-! ## Objects and arrays -/

/-- A property of an object from behind its name on. A token that cannot follow a name is noted down
and left to be read; only a word can be a property all by itself. -/
def objectPropertyRest (start : Nat) (key : MemberKey) (keySpan : Span)
    (modifier : Option Nat) : Parser PropertySyntax := do
  let method (isAsync isGenerator : Bool) : Parser PropertySyntax := do
    let _ ← g.functionRest isAsync isGenerator g.parameters
    return .method (← spanFrom start)
  let isWord := match key with
    | .word _ => true
    | _ => false
  let canFollow ← do
    match ← token with
    | some (.string ..) | some (.number ..) => pure true
    | some token =>
      pure (token.word?.isSome || (isWord && token.spells rightBrace) ||
        ["(", "[", ":", ",", "?", "=", "*", "<"].any token.spells)
    | none => pure false
  unless canFollow do
    noteHere .expectedSemicolon
    let span ← spanFrom start
    return .pair span (.other span)
  if ← eat ":" then
    let value ← allowingIn g.assignment
    return .pair (← spanFrom start) value
  if ← atAny ["(", "<"] then return ← method false false
  match key with
  | .word text =>
    if ← eat "?" then noteAt (← get).previous.start .optionalProperty
    if ← atAny ["=", ",", rightBrace] then
      if keywords.contains text || moduleReserved.contains text then
        noteAt keySpan.start .reservedShorthand
      if ← eat "=" then
        let _ ← allowingIn g.assignment
        return .withDefault ⟨keySpan.start, ← previousStop⟩ text
      return .shorthand keySpan text
    if ["get", "set", "async"].contains text then
      if let some place := modifier then noteAt place .asyncModifier
      let isGenerator ← if text = "async" then eat "*" else pure false
      let (_, nameSpan) ← g.propertyName
      if text = "async" then return ← method true isGenerator
      let parameters : Parser (List PatternSyntax) := do
        let parameters ← g.accessorParameters (text = "set") nameSpan.start
        return if text = "set" then parameters else []
      let _ ← g.functionRest false false parameters
      return .method (← spanFrom start)
    unexpected
      ("... , *,  (, [, :, , ?, =, an identifier, public, protected, private, " ++
        "readonly, <.")
  | _ => unexpected "identifier"

def objectProperty : Parser PropertySyntax := do
  let start ← position
  if ← eat "..." then
    let value ← allowingIn g.assignment
    return .spread (← spanFrom start) value
  if ← eat "*" then
    let _ ← g.propertyName
    let _ ← g.functionRest false true g.parameters
    return .method (← spanFrom start)
  let hasModifier ← eatParameterModifier
  let place := (← get).previous.start
  let modifier := if hasModifier then some place else none
  let (key, keySpan) ← g.propertyName
  g.objectPropertyRest start key keySpan modifier

def objectExpression : Parser ExprSyntax := do
  let start ← position
  let (properties, comma) ← braced g.objectProperty
  return .object (← spanFrom start) properties comma

def arrayExpression : Parser ExprSyntax :=
  awaitingNoColon do
    let start ← position
    expect "["
    let (items, comma) ← iterate
      (fun (items, comma) => do
        if (← atEnd) || (← at? "]") then return none
        if ← eat "," then return some (none :: items, comma)
        let item ← g.argument
        if ← at? "]" then return some (some item :: items, comma)
        expect ","
        let comma ← if ← at? "]" then pure (some (← get).previous.start) else pure comma
        return some (some item :: items, comma))
      ([], none)
    expect "]"
    return .array (← spanFrom start) items.reverse comma

/-! ## Parentheses and arrow functions -/

/-- What stands between two commas of a parenthesis. -/
inductive ParenthesizedItem where
  | argument (value : ArgumentSyntax)
  /-- What has a question mark or a type, and the expression it was read as before. -/
  | pattern (value : PatternSyntax) (expression : ExprSyntax)

namespace ParenthesizedItem

/-- An item as a parameter. -/
def asParameter : ParenthesizedItem → PatternSyntax
  | .pattern parameter _ => parameter
  | .argument (.mk _ isSpread value) =>
    if isSpread then { value.asParameter with form := .rest } else value.asParameter

def expression : ParenthesizedItem → ExprSyntax
  | .pattern _ expression => expression
  | .argument item => item.value

/-- Whether an item can be the head of an arrow function by itself: a name, spread or typed. -/
def isHead : ParenthesizedItem → Bool
  | .argument (.mk _ _ (.name _ _)) | .pattern ⟨_, .name _⟩ _ => true
  | _ => false

end ParenthesizedItem

/-- What is wrong with the items of a parenthesis as parameters. Only the last one can be the rest,
and no comma follows it. -/
def parameterFindings (comma : Option Nat) : List ParenthesizedItem → Findings
  | [] => .ok []
  | item :: items => do
    let isLast := items.isEmpty
    let trailing : List Fault := comma.toList.map (⟨.commaAfterRest, ·⟩)
    let faults : List Fault ← match item with
      | .pattern pattern _ =>
        if pattern.form ≠ .rest then pure []
        else pure (if isLast then trailing else [⟨.restParameterNotLast, pattern.span.start⟩])
      | .argument (.mk start true value) =>
        if !isLast then pure [⟨.restParameterNotLast, start⟩]
        else
          let initializer : List Fault :=
            if value.isAssignment then [⟨.restInitializer, start⟩] else []
          pure (initializer ++ trailing ++ (← value.asPart true))
      | .argument (.mk _ false value) => value.asPart true
    return faults ++ (← parameterFindings comma items)

/-- Takes the items of a parenthesis for parameters; whether they are all names. -/
def noteParameters (items : List ParenthesizedItem) (comma : Option Nat) : Parser Bool := do
  noteFindings (parameterFindings comma items)
  for item in items do noteAll item.expression.boundFaults
  return items.all (·.asParameter.isSimple)

/-- What follows a question mark in a condition, behind the mark. -/
def branches : Parser Unit := do
  let _ ← within
    (fun context =>
      { context with inConditional := true, awaitsColon := true, inAllowed := true })
    g.assignment
  expect ":"
  let _ ← within
    (fun context => { context with inConditional := true, awaitsColon := false })
    g.assignment

/-- An assignment's sign and right side, if they follow. -/
def assignmentRest (start : Nat) (target : ExprSyntax) : Parser ExprSyntax := do
  checkToken
  match ← token with
  | some token =>
    if !token.isAssignmentOperator then return target
    let isPlain := token.spells "="
    noteFindings (if isPlain then target.asAssigned else target.asChanged)
    bump
    let _ ← g.assignment
    return .assignment (← spanFrom start) isPlain target
  | none => return target

/-- An item that a parenthesis begins with a name, or with the rest of them. A question mark
behind it may belong to a parameter. -/
def looseArgument (start : Nat) : Parser ArgumentSyntax := do
  let argumentStart ← position
  if ← eat "..." then return .mk argumentStart true (← allowingIn g.binary)
  let value ← g.binary
  return .mk argumentStart false (← g.assignmentRest start value)

/-- What makes a parameter of an item: its type and its default value. -/
def typedItem (patternStart : Nat) (item : ArgumentSyntax) : Parser ParenthesizedItem := do
  let value := item.value
  noteFindings (value.asPart true)
  let isTyped := (← g.annotation?).isSome
  if isTyped && !item.isSpread && value.isPlainAssignment then
    noteAt patternStart .typeAfterDefault
  let hasDefault ← eat "="
  if hasDefault then
    let _ ← g.assignment
  let form : PatternForm :=
    if item.isSpread then .rest else if hasDefault then .withDefault else value.asParameter.form
  return .pattern ⟨← spanFrom patternStart, form⟩ value

/-- One more item of a parenthesis. An arrow behind it is passed by; if the first item can be the
head of a function, the items become its parameters, and the function is a further item. -/
def parenthesizedItem (items : List ParenthesizedItem) : Parser (List ParenthesizedItem) := do
  let start ← position
  modify fun state => { state with arrowStart := some start }
  let hasModifier ← eatParameterModifier
  let patternStart ← position
  let isAsync ← at? "async" <&&> (return (← tokenAhead).any fun token =>
    token.word?.isSome || token.spells "(")
  let isLoose ← (return !isAsync) <&&>
    (atName <||> (at? "..." <&&> nameAhead))
  let mut item ← if isLoose then g.looseArgument start else g.argument
  let mut isOptional := false
  if ← at? "?" then
    if (← ahead? ",") || (← ahead? ":") || (← ahead? ")") || (← ahead? "=") then
      bump
      if item.isSpread then noteAt (← get).previous.start .optionalRest
      match item.value with
      | .name .. => isOptional := true
      | _ => failAt item.start .optionalPattern
    else if !item.isSpread then
      bump
      g.branches
      item := .mk item.start false (.operation (← spanFrom start) .conditional)
  let read ← if isOptional || (← at? ":") then g.typedItem patternStart item
    else pure (.argument item)
  if hasModifier then noteAt start .parameterProperty
  let items := items ++ [read]
  unless ← eat "=>" do return items
  unless items.head?.any (·.isHead) do return items
  let hasSimpleParameters ← noteParameters items none
  let _ ← g.arrowBody false hasSimpleParameters
  return items ++ [.argument (.mk start false (.arrow (← spanFrom start)))]

/-- The items of a parenthesis, and where the comma behind the last one lies. -/
def parenthesizedItems : Parser (List ParenthesizedItem × Option Nat) := do
  expect "("
  let (items, comma) ← iterate
    (fun (items, comma) => do
      if (← atEnd) || (← at? ")") then return none
      let items ← g.parenthesizedItem items
      if ← at? ")" then return some (items, comma)
      expect ","
      let comma ← if ← at? ")" then pure (some (← get).previous.start) else pure none
      return some (items, comma))
    ([], none)
  expect ")"
  return (items, comma)

/-- A parenthesis as an operand. -/
def parenthesizedOperand (start : Nat) (isCall : Bool) (items : List ParenthesizedItem) :
    Parser ExprSyntax := do
  for item in items do
    if let .argument argument := item then noteAll argument.value.patternOnlyFaults
  let span ← spanFrom start
  if isCall then return .call span
  match items with
  | [] => failAt start .emptyParentheses
  | [.argument (.mk _ false value)] => return .parenthesized span value
  | items =>
    for item in items do
      if let .argument (.mk _ true value) := item then
        failAt value.span.start .spreadInParentheses
    return .parenthesized span (.other span)

/-- An arrow function behind its sign, whose parameters were read as a parenthesis. A block ends it,
so an operator behind that is noted down. -/
def arrowRest (start : Nat) (isAsync : Bool) (items : List ParenthesizedItem)
    (comma : Option Nat) : Parser ExprSyntax := do
  let hasSimpleParameters ← noteParameters items comma
  let hasBlock ← g.arrowBody isAsync hasSimpleParameters
  let arrow := ExprSyntax.arrow (← spanFrom start)
  if hasBlock && (← token).any (·.isBinaryOperator) then
    noteHere .expectedSemicolon
    let expression ← g.operators arrow 0
    unless ← atStatementEnd do noteHere .expectedSemicolon
    return expression
  return arrow

/-- A parenthesis: the head of an arrow function, or an operand. Behind `async` it can be the
arguments of a call. -/
def parenthesized (canBeArrow : Bool) (asyncStart : Option Nat) : Parser ExprSyntax := do
  let start := asyncStart.getD (← position)
  let isAsync := asyncStart.isSome
  let (items, comma) ← within
    (fun context => { context with awaitsColon := false, inAllowed := true })
    g.parenthesizedItems
  let context := (← get).context
  if context.inConditional && (← at? ":") then
    let arrow ← attempt do
      g.resultType ":"
      expect "=>"
      let hasSimpleParameters ← noteParameters items comma
      let _ ← g.arrowBody isAsync hasSimpleParameters
      if context.awaitsColon && !(← at? ":") then return none
      return some (.arrow (← spanFrom start))
    if let some arrow := arrow then return arrow
  let hasResult ← do
    if !context.awaitsColon && (← at? ":") then
      let result ← attempt do
        g.resultType ":"
        unless ← at? "=>" do unexpected "fail"
        return some ()
      pure result.isSome
    else pure false
  let hasPattern := items.any fun
    | .pattern _ _ => true
    | .argument _ => false
  if hasPattern || hasResult || (← at? "=>") then
    if ← afterBreak then failAt start .lineBreakBeforeArrow
    unless canBeArrow do failAt start .arrowNotAllowed
    expect "=>"
    return ← g.arrowRest start isAsync items comma
  parenthesizedOperand start isAsync items

/-- An expression that begins with `async`, unless that is only a name. -/
def asyncOperand (canBeArrow : Bool) : Parser (Option ExprSyntax) := do
  let start ← position
  if ← atAsyncFunction then
    bump
    g.function true false true
    return some (.constant (← spanFrom start))
  if canBeArrow && (← ahead? "<") then
    let arrow ← attempt do
      bump
      g.genericAsyncArrow start
    if arrow.isSome then return arrow
  if canBeArrow && (← ahead? "(") && !(← breakAhead) then
    bump
    return some (← g.parenthesized canBeArrow (some start))
  return none

/-- What begins with `async` and a name, behind the first word: an arrow function, a cast, or the
word alone where `for` goes through items. -/
def asyncRest (start : Nat) (async : ExprSyntax) : Parser ExprSyntax := do
  let context := (← get).context
  if context.inForHead && (← at? "of") && !(← ahead? "=>") then
    unless context.inAwaitHead do noteAt start .asyncHead
    return async
  let parameter ← bindingName true
  if parameter = "as" && !(← at? "=>") then
    let _ ← inType g.type
    return .asserted (← spanFrom start) .as async
  expect "=>"
  let _ ← g.arrowBody true true
  return .arrow (← spanFrom start)

/-- A name, or an arrow function whose parameter it is. -/
def namedOperand (start : Nat) (canBeArrow : Bool) : Parser ExprSyntax := do
  let context := (← get).context
  let text ← identifier (!context.inGenerator) (!context.inAsync)
  let name := ExprSyntax.name (← spanFrom start) text
  if canBeArrow && text = "async" && (← atName) then return ← g.asyncRest start name
  if canBeArrow && !(← afterBreak) && (← at? "=>") then
    bump
    noteAll name.boundFaults
    let _ ← g.arrowBody false true
    return .arrow (← spanFrom start)
  return name

/-! ## Operands -/

/-- A regular expression, whose flags are known and each given once. -/
def noteFlags (place : Nat) (flags : String) : Parser Unit := do
  let rec noteRest : List Char → Parser Unit
    | [] => return
    | flag :: rest => do
      if !"dgimsuvy".toList.contains flag then noteAt place .regexFlags
      else if rest.contains flag then noteAt place (.repeatedRegexFlag flag)
      else noteRest rest
  noteRest flags.toList

/-- Reads the slash at hand again, as the beginning of a regular expression. What has been read
behind it is read anew. -/
def rereadAsRegex : Parser Unit :=
  modify fun state =>
    let step := state.lexer.rereadAsRegex
    let state := step.faults.foldl State.note { state with lexer := step.lexer }
    { state with current := step.lexeme, ahead := none }

/-- An operand that begins with a sign or a keyword. -/
def markedOperand (start : Nat) (canBeArrow : Bool) : Parser ExprSyntax := do
  if ← at? "[" then return ← g.arrayExpression
  if ← at? leftBrace then return ← g.objectExpression
  if ← at? "(" then return ← g.parenthesized canBeArrow none
  if ← at? backtick then
    g.template false
    return .constant (← spanFrom start)
  if ← eat "this" then return .other (← spanFrom start)
  if ← at? "function" then
    g.function false false true
    return .constant (← spanFrom start)
  if ← at? "class" then
    g.classFrom false false
    return .constant (← spanFrom start)
  if ← atAny ["null", "true", "false"] then
    bump
    return .constant (← spanFrom start)
  if (← at? "let") || (← at? "await") then return ← g.namedOperand start canBeArrow
  if ← at? "#" then
    bump
    let _ ← word
    return .other (← spanFrom start)
  failHere .expectedExpression

def operand : Parser ExprSyntax := do
  let start ← position
  let canBeArrow := (← get).arrowStart = some start
  if ← atAny ["/", "/="] then rereadAsRegex
  checkToken
  match ← token with
  | some (.string value raw) =>
    bump
    return .string (← spanFrom start) value raw
  | some (.number ..) =>
    bump
    return .number (← spanFrom start)
  | some (.bigint ..) =>
    bump
    return .constant (← spanFrom start)
  | some (.regex _ flags) =>
    bump
    noteFlags start flags
    return .constant (← spanFrom start)
  | some (.name text) =>
    if text = "async" then
      if let some expression ← g.asyncOperand canBeArrow then return expression
    if ← atName then return ← g.namedOperand start canBeArrow
    failHere .expectedExpression
  | _ => g.markedOperand start canBeArrow

/-! ## Members, calls and `new` -/

/-- `import` and what makes an expression of it. -/
def importOperand (callAllowed : Bool) : Parser ExprSyntax := do
  let start ← position
  expect "import"
  unless ← eat "." do
    return ← g.subscripts (.importing (← spanFrom start)) callAllowed true
  match ← word with
  | "meta" => g.subscripts (.operand (.other (← spanFrom start))) callAllowed true
  | "source" | "defer" => g.subscripts (.importing (← spanFrom start)) callAllowed true
  | _ => unexpected "meta"

/-- `new` and what it makes. Without arguments nothing follows it. -/
def newOperand (start : Nat) : Parser ExprSyntax := do
  bump
  if ← eat "." then
    unless ← eat "target" do unexpected "target"
    let context := (← get).context
    unless context.hasOwnTarget || context.inParameters || context.inClass do
      noteAt start .newTarget
    return ← g.subscripts (.operand (.other (← spanFrom start))) false true
  let callee ← g.memberExpression
  if ← endsWithArrow callee then return callee
  if let .optionalChain span _ := callee then failAt span.start .newOfChain
  if ← at? "<" then
    let _ ← within (fun context => { context with inTypedOperand := false }) do
      attempt do
        let arguments ← g.typeArguments
        return if ← at? "(" then some arguments else none
  if ← at? "(" then
    g.callArguments
    return ← g.subscripts (.operand (.call (← spanFrom start))) false true
  return .bareNew (← spanFrom start)

def memberStep : Parser ExprSyntax :=
  within (fun context => { context with inTypedOperand := true }) do
    let start ← position
    if ← at? "new" then return ← g.newOperand start
    if ← eat "super" then
      return ← g.subscripts (.super (← spanFrom start)) false true
    if ← at? "import" then return ← g.importOperand false
    let operand ← g.operand
    if ← endsWithArrow operand then return operand
    let arguments ← g.freeArguments?
    let operand ← instantiated operand.span.start operand arguments
    g.subscripts (.operand operand) false true

def leftHandSideStep : Parser ExprSyntax := do
  let start ← position
  if ← eat "super" then
    return ← g.subscripts (.super (← spanFrom start)) true true
  if ← at? "import" then return ← g.importOperand true
  let callee ← g.memberExpression
  if ← endsWithArrow callee then return callee
  let arguments ← do
    if ← atAny ["<", "<<"] then
      within (fun context => { context with inTypedOperand := false }) do
        attempt do
          let arguments ← g.typeArguments
          return if ← at? "(" then some arguments else none
    else pure none
  if let .bareNew _ := callee then
    if arguments.isSome then expect "("
    return callee
  if ← at? "(" then
    let call ← g.callFrom start (.operand callee)
    return ← g.subscripts (.operand call) true true
  return callee

/-! ## Operators -/

/-- `await` and its operand, behind the first word. It is a name where nothing follows it. -/
def awaitRest (start : Nat) : Parser ExprSyntax := do
  let span ← spanFrom start
  if ← at? "*" then failHere .awaitStar
  let context := (← get).context
  if !context.inAsync then
    if ← atAny [")", "]", ","] <||> atStatementEnd then
      noteAt start .reservedInAsync
      return .name span "await"
  if context.inFunction && !context.inAsync then noteHere .awaitInFunction
  if context.inParameters && !context.inFunction then noteHere .awaitParameter
  let operand ← g.unary
  return .awaiting (← spanFrom start) operand

def awaitExpression : Parser ExprSyntax := do
  let start ← position
  expect "await"
  g.awaitRest start

/-- `yield` and its operand, if it has one. -/
def yieldExpression : Parser ExprSyntax := do
  let start ← position
  expect "yield"
  let context := (← get).context
  if context.inParameters && !context.inFunction then failAt start .yieldParameter
  if ← atStatementEnd then return .other (← spanFrom start)
  let startsOperand ← do
    match ← token with
    | some (.string ..) | some (.number ..) | some (.bigint ..) | some (.regex ..)
    | some (.name _) | some (.template ..) => pure true
    | some token =>
      pure (["*", "/", "/=", "!", "(", "[", leftBrace, "++", "--", "~", "<", "+", "-", backtick,
        "this", "function", "class", "new", "null", "true", "false", "delete", "typeof", "void",
        "super", "import", "await", "yield"].any token.spells)
    | none => pure false
  if startsOperand then
    let _ ← eat "*"
    let _ ← g.assignment
  return .other (← spanFrom start)

/-- The fault of deleting an expression. -/
def noteDeleted (expression : ExprSyntax) : Parser Unit := do
  let rec inner : ExprSyntax → ExprSyntax
    | .parenthesized _ expression => inner expression
    | expression => expression
  if let .name span _ := expression then noteAt span.start .deletedIdentifier
  match inner expression with
  | .member .. | .element _ | .optionalChain _ false => return
  | operand => noteAt operand.span.start .deletedOperand

/-- An operand with the operators in front of it. -/
def unaryStep : Parser ExprSyntax := do
  let start ← position
  if ← eat "<" then
    let isConst ← eat "const"
    if isConst then expect ">"
    else
      inType do
        let _ ← g.type
        expect ">"
    let inner ← g.unary
    if isConst then return .other (← spanFrom start)
    return .asserted (← spanFrom start) .other inner
  if ← atAny ["++", "--"] then
    bump
    let operand ← g.unary
    noteAll operand.targetFaults
    return .operation (← spanFrom start) .update
  if ← atAny ["delete", "void", "typeof", "+", "-", "~", "!"] then
    let isDelete ← at? "delete"
    bump
    try
      let operand ← g.unary
      if isDelete then noteDeleted operand
    catch fault => noteAt fault.place fault.cause
    return .operation (← spanFrom start) .unary
  if ← at? "await" then return ← g.awaitExpression
  let operand ← g.leftHandSide
  if ← endsWithArrow operand then return operand
  if ← afterBreak then return operand
  if ← atAny ["++", "--"] then
    noteAll operand.targetFaults
    bump
    return .operation (← spanFrom start) .update
  return operand

/-- How tightly the operators bind that compare, `in`, `as` and the like among them. -/
def comparing : Nat := 7

/-- Whether an expression is a logical operation that cannot stand beside `??`. -/
def isLogical : ExprSyntax → Bool
  | .operation _ (.binary "&&") | .operation _ (.binary "||") => true
  | _ => false

/-- Whether an operand of `**` would have to be in parentheses. -/
def isLooserThanPower : ExprSyntax → Bool
  | .operation _ .unary | .awaiting _ _ => true
  | _ => false

/-- The faults of mixing `??` with logical operators. -/
def noteMixed (operator : String) (start : Nat) (left right : ExprSyntax) : Parser Unit := do
  if operator = "??" then
    if isLogical left then noteAt left.span.start .mixedCoalescing
    if isLogical right then noteAt right.span.start .mixedCoalescing
  if operator = "&&" || operator = "||" then
    if let .operation _ (.binary "??") := left then noteAt start .mixedCoalescing

/-- `as T`, `as const` or `satisfies T` behind an expression. -/
def castRest (inner : ExprSyntax) : Parser ExprSyntax := do
  let start := inner.span.start
  let isAs ← at? "as"
  let isConst ← (return isAs) <&&> ahead? "const"
  bump
  if isConst then
    bump
    return .other (← spanFrom start)
  let _ ← inType g.type
  return .asserted (← spanFrom start) (if isAs then .as else .other) inner

/-- One operator and its right operand; none if no operator follows that binds tightly enough. -/
def operatorStep (left : ExprSyntax) (least : Nat) : Parser (Option ExprSyntax) := do
  let start := left.span.start
  unless ← afterBreak do
    if (← at? "satisfies") || (comparing > least && (← at? "as")) then
      return some (← g.castRest left)
  checkToken
  let operator? ← do
    match ← token with
    | some token =>
      if token.spells "in" && (← get).context.inAllowed then pure (some ("in", comparing))
      else if token.spells "instanceof" then pure (some ("instanceof", comparing))
      else
        match token, token.precedence? with
        | .sign text, some precedence => pure (some (text, precedence))
        | _, _ => pure none
    | none => pure none
  match operator? with
  | some (operator, precedence) =>
    if precedence ≤ least then return none
    bump
    if operator = "**" && isLooserThanPower left then
      failAt (← get).previous.start .unaryPower
    let operand ← g.unary
    let right ← g.operators operand (if operator = "**" then precedence - 1 else precedence)
    noteMixed operator start left right
    return some (.operation ⟨start, right.span.stop⟩ (.binary operator))
  | none => return none

def operatorsStep (left : ExprSyntax) (least : Nat) : Parser ExprSyntax :=
  iterate (fun left => g.operatorStep left least) left

/-- Operands with operators between them. An operand that is missing in front of an operator is
noted down. -/
def binaryStep : Parser ExprSyntax := do
  let start ← position
  let left : ExprSyntax ←
    try g.unary
    catch fault => do
      let token ← needToken
      let isOperator := token.isBinaryOperator || token.spells "instanceof" ||
        (token.spells "in" && (← get).context.inAllowed)
      unless isOperator do throw fault
      noteHere .expectedExpression
      pure (.other ⟨start, start⟩)
  if ← endsWithArrow left then return left
  g.operators left 0

/-- A condition with its branches, or less. -/
def conditional : Parser ExprSyntax := do
  let start ← position
  let test ← g.binary
  if ← endsWithArrow test then return test
  if ← eat "?" then
    g.branches
    return .operation (← spanFrom start) .conditional
  return test

/-- An arrow function with type parameters, if one begins here. -/
def genericArrow? : Parser (Option ExprSyntax) := do
  unless ← at? "<" <&&> wordAhead do return none
  let start ← position
  awaitingNoColon do
    attempt do
      let _ ← g.typeParameters? false true
      match ← g.assignment with
      | .arrow _ => return some (.arrow (← spanFrom start))
      | _ => unexpected "("

def assignmentStep : Parser ExprSyntax := do
  if let some arrow ← g.genericArrow? then return arrow
  if (← get).context.inGenerator && (← at? "yield") then return ← g.yieldExpression
  let start ← position
  let token ← needToken
  let canBeArrow := match token with
    | .name _ => true
    | token => token.spells "(" || token.spells "yield"
  modify fun state => { state with arrowStart := if canBeArrow then some start else none }
  let target ← g.conditional
  if ← endsWithArrow target then return target
  match target with
  | .operation .. => return target
  | _ => g.assignmentRest start target

end Declutter.Syntax.Grammar
