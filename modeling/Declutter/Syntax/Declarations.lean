import Declutter.Syntax.Expressions

/-!
# Declarations

Interfaces, aliases, enumerations, namespaces and variables. A declaration begins with a word
that is a name elsewhere; `declarationNamed?` decides, once the word is read, whether it is one.
-/

namespace Declutter.Syntax.Grammar

open Declutter.Syntax.Parser

variable (g : Grammar)

/-! ## Interfaces and aliases -/

/-- The words that no interface can be called. -/
def refusedInterfaceNames : List String :=
  ["string", "null", "number", "object", "any", "unknown", "boolean", "bigint", "symbol", "void",
    "never", "intrinsic"]

/-- An interface from its name on. -/
def interfaceDeclaration (start : Nat) : Parser ItemSyntax := do
  let name ← word
  if refusedInterfaceNames.contains name then
    noteAt (← get).previous.start .interfaceName
  let isGeneric ← g.typeParameters? true false
  let heritage ← do
    if ← eat "extends" then g.heritageList else pure []
  if ← at? "extends" then
    noteHere .repeatedExtends
    repeatWhile do
      if (← atEnd) || (← at? leftBrace) then return false
      bump
      return true
  let members ← inType g.members
  let span ← spanFrom start
  return if isGeneric then .other span else .interface span [] name heritage members

/-- An alias from its name on. -/
def aliasDeclaration (start : Nat) : Parser ItemSyntax := do
  let name ← word
  let isGeneric ← g.typeParameters? true false
  let type ← inType do
    unless ← eat "=" do failHere (.unexpected (← shownOptional) "=")
    g.type
  expectSemicolon
  let span ← spanFrom start
  return if isGeneric then .other span else .alias span [] name type

/-! ## Enumerations -/

/-- A member of an enumeration. A token that cannot follow its name is passed by as if it were a
comma. -/
def enumMember : Parser Unit := do
  let start ← position
  match ← needToken with
  | .string .. => bump
  | .number .. | .bigint .. =>
    bump
    noteAt start .numericEnumMember
  | _ =>
    if ← eat "[" then
      let _ ← g.expression
      noteAt start .computedEnumMember
      expect "]"
    else
      let _ ← word
  if ← eat "=" then
    let _ ← g.assignment
  else
    unless ← atAny [",", rightBrace] do
      let place ← position
      bump
      modify fun state =>
        { state with current := some ⟨.sign ",", state.previous, false⟩ }
      noteAt place .expectedSemicolon

/-- An enumeration from its name on. -/
def enumDeclaration (start : Nat) : Parser ItemSyntax := do
  let _ ← word
  expect leftBrace
  let missing : Parser Unit := do noteHere (.expected "," (← shownToken))
  let _ ← listUpTo (at? rightBrace) missing g.enumMember
  expect rightBrace
  return .other (← spanFrom start)

/-! ## Namespaces -/

def namespaceBody : Parser Unit := do
  expect leftBrace
  let _ ← itemsToBrace g.item

/-- A namespace from its name on, which can have several parts. -/
def namespaceDeclaration (start : Nat) : Parser ItemSyntax := do
  let _ ← word
  repeatWhile do
    unless ← eat "." do return false
    let _ ← word
    return true
  g.namespaceBody
  return .other (← spanFrom start)

/-- A module that is named by a string, or `global`. -/
def externalModule (start : Nat) : Parser ItemSyntax := do
  if ← at? "global" then bump
  else
    match ← needToken with
    | .string .. => bump
    | _ => unexpected "global or a string literal"
  if ← at? leftBrace then g.namespaceBody else expectSemicolon
  return .other (← spanFrom start)

/-! ## Variables -/

/-- One variable, or one pattern of them. -/
structure Declarator where
  pattern : PatternSyntax
  isTyped : Bool
  hasValue : Bool

/-- One variable, or one pattern of them, with its type and its value. -/
def declarator (inFor isConst isVar : Bool) : Parser Declarator := do
  let start ← position
  let pattern ← g.patternStep isVar
  if let .name _ := pattern.form then
    let _ ← eat "!"
  let isTyped := (← g.annotation?).isSome
  let endsHead ← (return inFor) <&&> atAny ["in", "of"]
  if endsHead then return ⟨pattern, isTyped, false⟩
  if ← eat "=" then
    let _ ← g.assignment
    return ⟨pattern, isTyped, true⟩
  unless (← get).context.inDeclare do
    if isConst then noteAt start .constInitializer
    else
      match pattern.form with
      | .name _ => pure ()
      | _ => failAt start .patternInitializer
  return ⟨pattern, isTyped, false⟩

/-- Variables with commas between them. Where none follows a comma or the keyword in front of them,
that is noted down. -/
def declarators (keyword : Span) (declarator : Parser Declarator) : Parser (List Declarator) := do
  let (read, _) ← iterate
    (fun (read, isFirst) => do
      unless isFirst do
        unless ← eat "," do return none
      if (← at? ";") || (← atEnd) then
        let previous := (← get).previous
        noteAt (if previous = keyword then previous.stop else previous.start) .trailingComma
        return none
      return some ((← declarator) :: read, false))
    ([], true)
  return read.reverse

/-- Passes by what follows a declaration up to where a statement can end. -/
def skipToSemicolon : Parser Unit := do
  try
    let _ ← g.expression
  catch _ => pure ()
  repeatWhile do
    if ← eatSemicolon then return false
    bump
    return true

/-- Whether the head of a `for` goes on as if its variable had been left out. -/
def isEmptyHead : Parser Bool := do
  unless ← atAny ["of", "in"] do return false
  try
    lookAhead do
      bump
      let _ ← g.assignment
      expect ")"
      return true
  catch _ => return false

/-- The variables behind `var`, `let` or `const`. -/
def variableList (inFor : Bool) : Parser (List Declarator) := do
  let isVar ← at? "var"
  let isConst ← at? "const"
  bump
  let keyword := (← get).previous
  if inFor then
    if ← g.isEmptyHead then
      noteAt keyword.stop .emptyDeclaration
      return []
  let allowIn (context : Context) : Context :=
    { context with inAllowed := context.inAllowed || !isVar || !inFor }
  declarators keyword (within allowIn (g.declarator inFor isConst isVar))

/-- `var a = 1, b;` -/
def variableStatement (start : Nat) : Parser ItemSyntax := do
  let _ ← g.variableList false
  unless ← eatSemicolon do
    noteHere .expectedSemicolon
    g.skipToSemicolon
  return .other (← spanFrom start)

/-- `using a = b`, if it begins here. No semicolon belongs to it. -/
def usingDeclaration? (start : Nat) : Parser (Option ItemSyntax) := do
  if (← breakAhead) || !(← nameAhead) then return none
  bump
  let keyword := (← get).previous
  for declared in ← declarators keyword (g.declarator false false true) do
    match declared.pattern.form with
    | .name _ => pure ()
    | _ => noteAt start .usingName
    unless declared.hasValue do noteAt start .usingInitializer
  return some (.other (← spanFrom start))

/-- Whether what follows `let` is bound by it. -/
def letBinds : Parser Bool := do
  match ← tokenAhead with
  | some token =>
    match token with
    | .name _ => return true
    | .keyword text => return ["let", "yield", "await"].contains text
    | .sign text => return text = "[" || text = leftBrace
    | _ => return false
  | none => return false

/-! ## Declarations by their first word -/

/-- The declaration that a word begins. The word is the current token, or the one before it if it
has been read as a name; then it must be clear from what follows that it is no name. -/
def declarationNamed? (start : Nat) (text : String) (isCurrent : Bool) :
    Parser (Option ItemSyntax) := do
  let begin (follows : Parser Bool) : Parser Bool := do
    if isCurrent then
      bump
      return true
    follows
  match text with
  | "abstract" =>
    if ← begin (at? "class" <&&> (return !(← afterBreak))) then
      return some (← g.classDeclaration start true true)
  | "enum" =>
    if ← begin atName then return some (← g.enumDeclaration start)
  | "interface" =>
    if ← begin atName then return some (← g.interfaceDeclaration start)
  | "module" =>
    if !(← afterBreak) then
      if isCurrent then bump
      if let .string .. ← needToken then return some (← g.externalModule start)
      if isCurrent || (← atName) then return some (← g.namespaceDeclaration start)
  | "namespace" =>
    if ← begin atName then return some (← g.namespaceDeclaration start)
  | "type" =>
    if ← begin ((return !(← afterBreak)) <&&> atName) then
      return some (← g.aliasDeclaration start)
  | _ => pure ()
  return none

/-- What follows `declare`, if it is declared by it. -/
def declared? (start : Nat) : Parser (Option ItemSyntax) := do
  if (← get).context.inDeclare then noteAt start .nestedDeclare
  let item ← within (fun context => { context with inDeclare := true }) do
    if ← at? "function" then return some (← g.functionDeclaration true)
    if ← at? "class" then return some (← g.classDeclaration start true false)
    if ← at? "const" <&&> ahead? "enum" then
      bump
      bump
      return some (← g.enumDeclaration start)
    if ← atAny ["const", "var", "let"] then return some (← g.variableStatement start)
    if ← at? "global" then return some (← g.externalModule start)
    match (← token).bind (·.word?) with
    | some text => g.declarationNamed? start text true
    | none => return none
  return item.map fun item => item.modified .declared ⟨start, item.span.stop⟩

end Declutter.Syntax.Grammar
