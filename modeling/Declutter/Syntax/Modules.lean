import Declutter.Syntax.Statements

/-!
# Imports and exports

What a module takes from others and gives to them. An exported declaration is tried first, and
noted down is nothing of it: if it is refused, the export is read as a list of names.
-/

namespace Declutter.Syntax.Grammar

open Declutter.Syntax.Parser

variable (g : Grammar)

/-- A name in a list of imports or exports. -/
inductive ListedName where
  | word (place : Nat) (text : String)
  | string (place : Nat) (value : String)

def listedName : Parser ListedName := do
  checkToken
  let place ← position
  match ← token with
  | some (.string value _) =>
    bump
    return .string place value
  | some token =>
    match token.word? with
    | some text =>
      bump
      return .word place text
    | none => unexpected "identifier or string"
  | none => unexpected "identifier or string"

/-- The attributes of an import or export, and its end. -/
def attributesAndEnd : Parser Unit := do
  checkToken
  if !(← afterBreak) && (← atAny ["assert", "with"]) then
    bump
    let _ ← g.object
  expectSemicolon

/-- `from "name";` -/
def fromClause : Parser Unit := do
  expect "from"
  match ← needToken with
  | .string .. => bump
  | _ => unexpected "a string literal"
  g.attributesAndEnd

/-- Names between braces, a comma between each two. -/
def braceList {α : Type} (item : Parser α) : Parser (List α) := do
  let items ← iterate
    (fun (items, isDone) => do
      if isDone then return none
      if (← atEnd) || (← at? rightBrace) then return none
      let item ← item
      if ← at? rightBrace then return some (item :: items, true)
      expect ","
      return some (item :: items, false))
    ([], false)
  expect rightBrace
  return items.1.reverse

/-! ## Imports -/

def isReservedWord (text : String) : Bool :=
  keywords.contains text || moduleReserved.contains text

/-- `A.B.C` or `require("a")`, to which an import is equal. -/
def importEquals (start : Nat) : Parser ItemSyntax := do
  expect "="
  if ← at? "require" <&&> ahead? "(" then
    bump
    bump
    match ← needToken with
    | .string .. => bump
    | _ => unexpected "a string literal"
    expect ")"
  else
    let _ ← entityName (identifier false false)
  expectSemicolon
  return .other (← spanFrom start)

/-- What the word `type` is in a list. -/
inductive ListedType where
  /-- A name that `as` follows and another name behind that. -/
  | renamed
  /-- What says that the name behind it is that of a type; the name, unless all is read. -/
  | modifier (name : Option ListedName)

/-- Reads what stands behind the word `type` in a list, if that is a word again. -/
def listedType (rename : Parser String) : Parser ListedType := do
  let place ← position
  let text ← word
  if text ≠ "as" then return .modifier (some (.word place text))
  unless ← atWord do return .modifier none
  let second ← rename
  if second ≠ "as" || !(← atWord) then return .renamed
  let _ ← rename
  return .modifier none

/-- A name in a list of imports, and the one it is known by. -/
def importSpecifier (typeOnly : Bool) : Parser Unit := do
  let start ← position
  let rename : Parser String := bindingName true
  let renameIf (cause : Cause) (isRefused : Bool) : Parser Unit := do
    if ← eat "as" then
      let _ ← rename
    else if isRefused then failAt start cause
  let plain (text : String) : Parser Unit := renameIf .reservedImport (isReservedWord text)
  match ← listedName with
  | .word place text =>
    unless text = "type" && (← atWord) do return ← plain text
    if let .modifier name ← listedType rename then
      if typeOnly then noteAt place .typedImportName
      if let some (.word _ text) := name then plain text
  | .string _ value => renameIf (.importedString value) true

/-- When an import is carried out. -/
inductive ImportPhase where
  | evaluation
  | source
  | deferral
  deriving DecidableEq

def ImportPhase.ofWord? : String → Option ImportPhase
  | "source" => some .source
  | "defer" => some .deferral
  | _ => none

/-- What stands in front of the lists of an import. -/
inductive ImportHead where
  /-- The import of a whole namespace under a name. -/
  | equals
  | lists (typeOnly : Bool) (phase : ImportPhase)

/-- The name that a module's default is imported by, with the words in front of it. Such a word is
the name itself if no other follows it. -/
def importHead : Parser ImportHead := do
  unless ← atName do return .lists false .evaluation
  let first ← bindingName true
  let mut typeOnly := false
  let mut name := first
  if first = "type" then
    if ← atAny ["*", leftBrace] then return .lists true .evaluation
    if ← atName then
      if !(← at? "from") || (← ahead? "from") then
        typeOnly := true
        name ← bindingName true
      else if ← ahead? "=" then
        typeOnly := true
        name ← word
  if ← at? "=" then return .equals
  let mut phase := ImportPhase.evaluation
  if let some named := ImportPhase.ofWord? name then
    if ← atAny ["*", leftBrace] then return .lists typeOnly named
    if ((← atName) && !(← at? "from")) || (← ahead? "from") then
      phase := named
      let _ ← bindingName true
  unless ← at? "from" do expect ","
  return .lists typeOnly phase

/-- An import. Only what is evaluated at once can be listed by names. -/
def importItem : Parser ItemSyntax := do
  let start ← position
  if ← ahead? "." <||> ahead? "(" then
    let _ ← g.expression
    let _ ← eatSemicolon
    return .other (← spanFrom start)
  bump
  checkToken
  if let some (.string ..) ← token then
    bump
    g.attributesAndEnd
    return .other (← spanFrom start)
  match ← importHead with
  | .equals => importEquals start
  | .lists typeOnly phase =>
    if phase ≠ .source && (← at? "*") then
      bump
      expect "as"
      let _ ← bindingName true
    else if phase = .evaluation && (← at? leftBrace) then
      bump
      let _ ← braceList (importSpecifier typeOnly)
    g.fromClause
    return .other (← spanFrom start)

/-! ## Exports -/

/-- A name in a list of exports: its own, in front of the one it is exported by. -/
def exportSpecifier (typeOnly : Bool) : Parser ListedName := do
  let plain (name : ListedName) : Parser ListedName := do
    if ← eat "as" then
      let _ ← listedName
    return name
  let name ← listedName
  match name with
  | .word place "type" =>
    unless ← atWord do return ← plain name
    match ← listedType word with
    | .renamed => return name
    | .modifier inner =>
      if typeOnly then noteAt place .typedExportName
      match inner with
      | some inner => plain inner
      | none => return name
  | _ => plain name

/-- The words that nothing of a module's own can be called. -/
def refusedExportNames : List String :=
  ["break", "case", "catch", "class", "const", "continue", "debugger", "default", "delete", "do",
    "else", "enum", "export", "extends", "false", "finally", "for", "function", "if", "import",
    "in", "instanceof", "new", "null", "package", "return", "super", "switch", "this", "throw",
    "true", "try", "typeof", "var", "void", "while", "with"]

/-- `{ a, b as c } from "name";`, in which the origin can be missing. -/
def exportList (typeOnly : Bool) : Parser Unit := do
  expect leftBrace
  let names ← braceList (exportSpecifier typeOnly)
  if ← at? "from" then return ← g.fromClause
  for name in names do
    match name with
    | .word place text =>
      if refusedExportNames.contains text then noteAt place (.exportedReserved text)
    | .string place _ => noteAt place .exportedString
  let _ ← eatSemicolon

/-- What stands behind `export default`. -/
def exportDefault (start : Nat) : Parser ItemSyntax := do
  if ← at? "abstract" <&&> ahead? "class" <&&> (return !(← breakAhead)) then
    bump
    return ← g.classDeclaration start false true
  if ← at? "abstract" <&&> ahead? "interface" then
    noteHere .abstractModifier
    bump
  if ← at? "interface" then
    let place ← position
    bump
    let item ← g.interfaceDeclaration place
    return item.modified .defaulted item.span
  if ← at? "class" then return ← g.classDeclaration start false false
  if (← atAsyncFunction) || (← at? "function") then
    return ← g.functionDeclaration false
  let _ ← allowingIn g.assignment
  expectSemicolon
  return .other (← spanFrom start)

/-- A declaration that stands behind `export` like anywhere else. -/
def exportedDeclaration? : Parser (Option ItemSyntax) := do
  let start ← position
  if ← at? "class" then return some (← g.classDeclaration start true false)
  if (← atAsyncFunction) || (← at? "function") then
    return some (← g.functionDeclaration true)
  if ← at? "const" <&&> ahead? "enum" then
    bump
    bump
    return some (← g.enumDeclaration start)
  if ← atAny ["var", "const"] <||> (at? "let" <&&> letBinds) then
    return some (← g.variableStatement start)
  return none

/-- `export * from "name";`, `export * as a from "name";` or a list of names. -/
def exportNames (start : Nat) (typeOnly : Bool) : Parser ItemSyntax := do
  if ← at? "*" then
    let isNamed ← ahead? "as"
    bump
    if isNamed then
      bump
      let _ ← listedName
    g.fromClause
  else g.exportList typeOnly
  return .other (← spanFrom start)

def exportItem : Parser ItemSyntax := do
  let start ← position
  bump
  let declareStart ← position
  let _ ← needToken
  let exported (item : ItemSyntax) : Parser ItemSyntax :=
    return item.modified .exported (← spanFrom start)
  if ← eat "declare" then
    if let some item ← g.declared? declareStart then return ← exported item
  if let some text := (← token).bind (·.word?) then
    let place ← position
    if let some item ← attempt (g.declarationNamed? place text true) then return ← exported item
  if ← eat "import" then
    if ← at? "type" <&&> nameAhead then bump
    let _ ← word
    return ← importEquals start
  if ← eat "=" then
    let _ ← g.expression
    expectSemicolon
    return .other (← spanFrom start)
  if ← eat "as" then
    expect "namespace"
    let _ ← identifier false false
    expectSemicolon
    return .other (← spanFrom start)
  let typeOnly ← eat "type"
  unless typeOnly do
    if ← eat "default" then return ← exported (← g.exportDefault start)
    if let some item ← g.exportedDeclaration? then return ← exported item
  g.exportNames start typeOnly

/-- A statement, an import or an export. -/
def itemStep : Parser ItemSyntax := do
  if ← at? "import" then return ← g.importItem
  if ← at? "export" then return ← g.exportItem
  g.plainStatement true

end Declutter.Syntax.Grammar
