import Declutter.Syntax.Patterns

/-!
# Types

The grammar of type expressions and of the members of interfaces. From loose to tight: a
conditional type; a function type, or a union of intersections of operands; an operand with its
operators in front and its brackets behind.
-/

namespace Declutter.Syntax.Grammar

open Declutter.Syntax.Parser

variable (g : Grammar)

/-- What can begin a type, as the message says it. -/
def typeOptions : String :=
  "an identifier, void, yield, null, await, break, a string literal, a numeric literal, true, " ++
    "false, \x60, -, import, this, typeof, \x7b, [, ("

/-- A type that is read for its extent only. -/
def unmodelledFrom (start : Nat) (form : Unmodelled) : Parser TypeSyntax := do
  return .unmodelled (← spanFrom start) form

/-! ## Arguments and parameters -/

/-- `<A, B>`; a shift operator in its place is split. -/
def typeArguments : Parser (List TypeSyntax) := do
  let arguments ← inType do
    forgettingBrackets do
      if ← at? "<<" then
        modify fun state =>
          let cut (lexeme : Lexeme) : Lexeme :=
            { lexeme with
              token := .sign "<"
              span := { lexeme.span with start := lexeme.span.start + 1 } }
          { state with current := state.current.map cut }
      else expect "<"
      commaList (at? ">") g.type
  modify fun state => { state with lexer := { state.lexer with operandAllowed := false } }
  expect ">"
  return arguments

/-- The fault of a modifier of a type parameter behind others. Some modifiers are only for the
parameters of some declarations. -/
def parameterModifierFault? (varianceAllowed constantAllowed : Bool) (before : List String)
    (text : String) : Option Cause :=
  if text = "const" then if constantAllowed then none else some .constantModifier
  else if text = "in" || text = "out" then
    if !varianceAllowed then some (.varianceModifier text)
    else if before.contains text then some (.repeatedModifier text)
    else if text = "in" && before.contains "out" then some (.modifierOrder "in" "out")
    else none
  else some (.typeModifier text)

/-- A type parameter. -/
def typeParameter (varianceAllowed constantAllowed : Bool) : Parser Unit := do
  let _ ← iterate
    (fun before => do
      let modifiers :=
        ["public", "private", "protected", "readonly", "abstract", "const", "override", "in",
          "out"]
      match ← modifier? modifiers false with
      | some text =>
        if let some cause := parameterModifierFault? varianceAllowed constantAllowed before text then
          noteAt (← get).previous.start cause
        return some (text :: before)
      | none => return none)
    []
  let _ ← word
  if ← eat "extends" then
    let _ ← g.type
  if ← eat "=" then
    let _ ← g.type

/-- `<A extends B = C>`; where each type parameter begins. -/
def typeParameterPlaces (varianceAllowed constantAllowed : Bool) : Parser (List Nat) :=
  inType do
    forgettingBrackets do
      expect "<"
      let places ← commaList (at? ">") do
        let start ← position
        g.typeParameter varianceAllowed constantAllowed
        return start
      expect ">"
      return places

/-- Type parameters, if there are any; whether there are. -/
def typeParameters? (varianceAllowed constantAllowed : Bool) : Parser Bool := do
  unless ← at? "<" do return false
  let _ ← g.typeParameterPlaces varianceAllowed constantAllowed
  return true

/-! ## Function types -/

/-- The current token as messages show one that may be missing. -/
def shownOptional : Parser String := do
  checkToken
  return match ← token with
    | some token => "Some(" ++ token.shown ++ ")"
    | none => "None"

/-- The type of a result behind its sign, or what a result says of a parameter. -/
def resultType (sign : String) : Parser Unit :=
  inType do
    unless ← eat sign do failHere (.expected sign (← shownOptional))
    let asserts ← at? "asserts" <&&> nameAhead
    if asserts then
      bump
      checkToken
    let isPredicate ← atName <&&> ahead? "is" <&&> (return !(← breakAhead))
    if asserts || isPredicate then
      let _ ← word
      if isPredicate then
        bump
        let _ ← g.type
    else
      let _ ← g.type

/-- Whether what follows an opening parenthesis can only be the parameters of a function. -/
def startsParameters : Parser Bool := do
  bump
  if ← atAny [")", "..."] then return true
  let _ ← eatParameterModifier
  if ← atWord then bump
  else if ← atAny ["[", leftBrace] then
    match ← attempt (return some (← g.pattern)) with
    | some _ => pure ()
    | none => return false
  else return false
  if ← atAny [":", ",", "?", "="] then return true
  eat ")" <&&> at? "=>"

def functionType (start : Nat) : Parser TypeSyntax := do
  let _ ← g.typeParameters? false true
  expect "("
  let _ ← g.signatureParameters
  g.resultType "=>"
  unmodelledFrom start .function

/-! ## Operands -/

/-- `A.B.C`, whose first part is any word. A dot with no word behind it ends the name, and `void`
cannot begin one. -/
def entityName (part : Parser String) : Parser (List String) := do
  let first ← word
  if first = "void" then noteAt (← spanFrom (← position)).start .expectedSemicolon
  let (parts, _) ← iterate
    (fun (parts, isDone) => do
      if isDone then return none
      unless ← eat "." do return none
      if (← at? "#") || (← atWord) then return some (parts ++ [← part], false)
      noteAt (← position) .expectedIdentifier
      return some (parts, true))
    ([first], false)
  return parts

/-- A name with its type arguments. -/
def typeReference (start : Nat) : Parser TypeSyntax := do
  let hasModifier ← eatParameterModifier
  let name ← entityName word
  let arguments ← do
    if !(← afterBreak) && (← atAny ["<", "<<"]) then g.typeArguments else pure []
  if hasModifier then noteAt start .parameterProperty
  return .reference (← spanFrom start) name arguments

/-- A type that begins with a word: one the language names, or a reference. -/
def namedType (start : Nat) (text : String) : Parser TypeSyntax := do
  if ← at? "asserts" <&&> ahead? "this" then
    bump
    bump
    if ← eat "is" then
      let _ ← inType g.type
    return ← unmodelledFrom start .other
  let isQualified ← ahead? "."
  if !isQualified then
    if let some word := Keyword.ofText? text then
      bump
      return .keyword (← spanFrom start) word
    if text = "intrinsic" then
      bump
      return ← unmodelledFrom start .intrinsic
  g.typeReference start

/-- A literal piece of a template. In a tagged template a bad escape is no fault. -/
def templatePiece (isTagged : Bool) : Parser Unit := do
  match ← needToken with
  | .template _ fault =>
    bump
    if let some fault := fault then
      unless isTagged do throw fault
  | _ => unexpected "template token"

/-- A template, with something to read in each substitution. -/
def templateOf (isTagged : Bool) (substitution : Parser Unit) : Parser Unit := do
  expect backtick
  templatePiece isTagged
  repeatWhile do
    if ← at? backtick then return false
    expect "$\x7b"
    substitution
    expect rightBrace
    templatePiece isTagged
    return true
  expect backtick

/-- `{ with: { … } }` -/
def importOptions : Parser Unit := do
  expect leftBrace
  expect "with"
  expect ":"
  let _ ← g.object
  let _ ← eat ","
  expect rightBrace

/-- `import("a", { with: { … } }).B<C>` -/
def importType : Parser Unit := do
  bump
  expect "("
  let place ← position
  match ← needToken with
  | .string .. => bump
  | _ =>
    bump
    noteAt place .expectedStringLiteral
  if ← eat "," <&&> at? leftBrace then g.importOptions
  expect ")"
  if ← eat "." then
    let _ ← entityName (identifier false false)
  if ← at? "<" then
    let _ ← g.typeArguments

/-- `typeof a.b<C>` -/
def typeQuery : Parser Unit := do
  bump
  if ← at? "import" then g.importType
  else
    let _ ← entityName word
  if !(← afterBreak) && (← at? "<") then
    let _ ← g.typeArguments

def tupleElement : Parser TupleElementSyntax := do
  let start ← position
  let label ← attempt do
    let _ ← eat "..."
    let _ ← word
    let _ ← eat "?"
    expect ":"
    return some ()
  if ← eat "..." then
    let type ← g.type
    return .mk (← spanFrom start) label.isSome .rest type
  let type ← g.type
  let form : TupleForm := if ← eat "?" then .optional else .plain
  return .mk (← spanFrom start) label.isSome form type

/-- Whether an element must be there though one before it may be missing. -/
def requiredAfterOptional : List TupleElementSyntax → Bool
  | [] => false
  | .mk _ _ .optional _ :: elements => elements.any fun
    | .mk _ _ .plain _ => true
    | _ => false
  | _ :: elements => requiredAfterOptional elements

def tupleType (start : Nat) : Parser TypeSyntax := do
  expect "["
  let elements ← commaList (at? "]") g.tupleElement
  expect "]"
  if requiredAfterOptional elements then failAt start .requiredAfterOptional
  return .tuple (← spanFrom start) elements

/-- Whether braces hold a mapped type. -/
def startsMapped : Parser Bool := do
  bump
  if (← eat "+") || (← eat "-") then return ← at? "readonly"
  let _ ← eat "readonly"
  unless ← eat "[" do return false
  unless ← atName do return false
  bump
  at? "in"

/-- `{ readonly [K in A as B]?: C }` -/
def mappedType (start : Nat) : Parser TypeSyntax := do
  expect leftBrace
  if ← atAny ["+", "-"] then
    bump
    expect "readonly"
  else
    let _ ← eat "readonly"
  expect "["
  let _ ← word
  inType do
    unless ← eat "in" do failHere (.unexpected (← shownOptional) "in")
    let _ ← g.type
  if ← eat "as" then
    let _ ← g.type
  expect "]"
  if ← atAny ["+", "-"] then
    bump
    expect "?"
  else
    let _ ← eat "?"
  if ← eat ":" then
    let _ ← g.type
  expectSemicolon
  expect rightBrace
  unmodelledFrom start .mapped

/-! ## Members -/

/-- The end of a member: a comma, or what ends a statement. -/
def expectMemberEnd : Parser Unit := do
  unless ← eat "," do expectSemicolon

/-- The name of a member. Behind a number or string its own members are read too. -/
def memberKey : Parser MemberKey := do
  if ← eat "[" then
    let _ ← g.assignment
    expect "]"
    return .computed
  match ← needToken with
  | .number .. | .string .. =>
    match ← g.memberExpression with
    | .string _ value _ => return .string value
    | .number span => return .number span
    | key => return .other key.span
  | _ =>
    let start ← position
    if ← at? "#" then
      let _ ← privateName
      let span ← spanFrom start
      noteAt start .privateMember
      return .other span
    return .word (← word)

/-- Whether a bracket begins an index signature. -/
def startsIndex : Parser Bool := do
  bump
  unless ← atName do return false
  bump
  atAny [":", ","]

/-- `[key: A]: B`, if it is one. -/
def indexMember? (start : Nat) (readonly : Bool) : Parser (Option MemberSyntax) := do
  unless ← at? "[" <&&> lookAhead startsIndex do return none
  expect "["
  let place ← position
  let parameter ← word
  if ← eat "," then noteAt place .indexParameters else expect ":"
  let key ← inType g.type
  expect "]"
  let value ← g.annotation?
  expectMemberEnd
  return some (.index (← spanFrom start) readonly parameter key value)

/-- `get a(): A` or `set a(b: A)`, if it is one. -/
def accessorMember? : Parser (Option MemberSyntax) :=
  attempt do
    let start ← position
    let _ ← modifier? ["readonly"] false
    let isGetter ← eat "get"
    unless isGetter do expect "set"
    let _ ← g.memberKey
    let _ ← eat "?"
    expect "("
    if isGetter then
      expect ")"
      let _ ← g.annotation?
    else
      let parameters ← g.signatureParameters
      if parameters.isEmpty then failHere .setterRequired
    expectMemberEnd
    return some (.signature (← spanFrom start))

/-- The parameters and the result of a call, construct or method signature. -/
def signature : Parser Unit := do
  let _ ← g.typeParameters? false true
  expect "("
  let _ ← g.signatureParameters
  if ← at? ":" then g.resultType ":"
  expectMemberEnd

/-- A property or a method, which cannot be read-only. -/
def namedMember (start : Nat) (readonly : Bool) : Parser MemberSyntax := do
  let key ← g.memberKey
  let isOptional ← eat "?"
  if ← (return !readonly) <&&> atAny ["(", "<"] then
    g.signature
    return .method (← spanFrom start)
  let type ← g.annotation?
  expectMemberEnd
  return .property (← spanFrom start) readonly key isOptional type

def member : Parser MemberSyntax := do
  let start ← position
  if ← atAny ["(", "<"] then
    g.signature
    return .signature (← spanFrom start)
  let startsConstruct : Parser Bool := do
    bump
    atAny ["(", "<"]
  if ← at? "new" <&&> lookAhead startsConstruct then
    bump
    g.signature
    return .signature (← spanFrom start)
  let readonly := (← modifier? ["readonly"] false).isSome
  if let some index ← g.indexMember? start readonly then return index
  if let some accessor ← g.accessorMember? then return accessor
  g.namedMember start readonly

/-- The members between braces. -/
def members : Parser (List MemberSyntax) := do
  expect leftBrace
  let members ← collect do
    if ← at? rightBrace then return none
    return some (← g.member)
  expect rightBrace
  return members

/-! ## Operands, operators and compounds -/

/-- A type that begins with a sign or a keyword. -/
def markedType (start : Nat) : Parser TypeSyntax := do
  if ← at? backtick then
    templateOf false do
      let _ ← g.type
    unmodelledFrom start .bigOrTemplate
  else if ← eat "-" then
    match ← needToken with
    | .number .. =>
      bump
      return .number (← spanFrom start)
    | .bigint .. =>
      bump
      unmodelledFrom start .bigOrTemplate
    | _ => unexpected "numeric literal or bigint literal"
  else if ← at? "import" then
    g.importType
    unmodelledFrom start .other
  else if ← eat "this" then
    if !(← afterBreak) && (← at? "is") then
      bump
      let _ ← inType g.type
    unmodelledFrom start .other
  else if ← at? "typeof" then
    g.typeQuery
    unmodelledFrom start .other
  else if ← at? leftBrace then
    if ← lookAhead startsMapped then g.mappedType start
    else
      let members ← g.members
      return .literal (← spanFrom start) members
  else if ← at? "[" then g.tupleType start
  else if ← eat "(" then
    let inner ← g.type
    expect ")"
    return .parenthesized (← spanFrom start) inner
  else unexpected typeOptions

/-- The keywords that are read as names where a type is expected. -/
def typeWords : List String := ["void", "yield", "null", "await", "break"]

def primaryType : Parser TypeSyntax := do
  let start ← position
  match ← needToken with
  | .string value _ =>
    bump
    return .string (← spanFrom start) value
  | .number .. =>
    bump
    return .number (← spanFrom start)
  | .bigint .. =>
    bump
    unmodelledFrom start .bigOrTemplate
  | .name text => g.namedType start text
  | .keyword text =>
    if typeWords.contains text then g.namedType start text
    else if text = "true" || text = "false" then
      bump
      return .boolean (← spanFrom start) (text = "true")
    else g.markedType start
  | _ => g.markedType start

/-- A type with the brackets behind it. -/
def postfixType : Parser TypeSyntax := do
  let start ← position
  let type ← g.primaryType
  iterate
    (fun type => do
      if ← afterBreak then return none
      unless ← eat "[" do return none
      if ← eat "]" then return some (.array (← spanFrom start) type)
      let _ ← g.type
      expect "]"
      return some (← unmodelledFrom start .indexedAccess))
    type

/-- `infer A extends B` -/
def inferredType (start : Nat) : Parser TypeSyntax := do
  bump
  let _ ← word
  let _ ← attempt do
    expect "extends"
    let type ← g.plainType
    if (← get).context.noConditional then return some type
    return if ← at? "?" then none else some type
  unmodelledFrom start .other

/-- A type with the operators in front of it. -/
def operandType : Parser TypeSyntax := do
  let start ← position
  if ← atAny ["keyof", "unique", "readonly"] then
    bump
    let _ ← g.typeOperand
    unmodelledFrom start .typeOperator
  else if ← at? "infer" then g.inferredType start
  else
    let _ ← needToken
    g.postfixType

/-- Types with a sign between them, and perhaps one in front. -/
def compoundType (sign : String) (make : Span → List TypeSyntax → TypeSyntax)
    (member : Parser TypeSyntax) : Parser TypeSyntax := do
  let start ← position
  let _ ← eat sign
  let first ← member
  unless ← at? sign do return first
  let others ← collect do
    if ← eat sign then return some (← member)
    return none
  return make (← spanFrom start) (first :: others)

def unionType : Parser TypeSyntax :=
  compoundType "|" .union (compoundType "&" .intersection g.operandType)

def plainTypeStep : Parser TypeSyntax := do
  let start ← position
  if ← at? "<" <||> (at? "(" <&&> lookAhead g.startsParameters) then
    return ← g.functionType start
  if ← (at? "abstract" <&&> ahead? "new") <||> at? "new" then
    let _ ← eat "abstract"
    expect "new"
    return ← g.functionType start
  g.unionType

/-- A type, conditional ones included. -/
def typeStep : Parser TypeSyntax :=
  within (fun context => { context with noConditional := false }) do
    let start ← position
    let type ← g.plainTypeStep
    if ← afterBreak then return type
    unless ← eat "extends" do return type
    let _ ← within (fun context => { context with noConditional := true }) g.plainType
    expect "?"
    let _ ← g.type
    expect ":"
    let _ ← g.type
    unmodelledFrom start .conditional

end Declutter.Syntax.Grammar
