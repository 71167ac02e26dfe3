import Declutter.Syntax.Grammar
import Declutter.Syntax.Targets

/-!
# Names

Words are names in some places and not in others. `word` takes any of them; `identifier` and
`bindingName` take those that can stand for a value.
-/

namespace Declutter.Syntax.Parser

/-- The words that may be read as names only to be refused. -/
def strictlyReserved : List String :=
  ["enum", "yield", "let", "static", "implements", "interface", "package", "private", "protected",
    "public"]

/-- Reads a name. The words that strict code reserves are noted down, and most keywords end the
reading. A field of a class has no `arguments`. -/
def identifier (yieldAllowed awaitAllowed : Bool) : Parser String := do
  let text ← word
  let place := (← get).previous.start
  let context := (← get).context
  if strictlyReserved.contains text then noteAt place (.reservedIdentifier text)
  if text = "arguments" && context.inClassField then noteAt place .fieldArguments
  if text = "await" then noteAt place .reservedInAsync
  if text = "await" && context.inDeclare then return text
  if text = "await" && context.inStaticBlock then failAt place .expectedIdentifierWord
  if text = "await" then failAt place .reservedInAsync
  if text = "yield" && yieldAllowed then return text
  if text = "await" && awaitAllowed then return text
  if keywords.contains text && text != "this" && text != "let" then
    failAt place .expectedIdentifierWord
  return text

/-- Reads a name that a value is bound to. -/
def bindingName (letAllowed : Bool) : Parser String := do
  if !letAllowed && (← at? "let") then
    unexpected "let is reserved in const, let, class declaration"
  let text ← identifier true true
  if isRestricted text then noteAt (← get).previous.start .boundEval
  return text

/-- Reads `#` and the word that must follow it at once. -/
def privateName : Parser String := do
  let start ← position
  expect "#"
  let stop ← previousStop
  if (← position) != stop then failAt start .spaceAfterHash
  word

/-- Reads the name of a member behind a dot: none if it is private. -/
def memberName : Parser (Option String) := do
  if ← at? "#" then
    let _ ← privateName
    return none
  return some (← word)

/-! ## Modifiers -/

/-- Whether a member can begin here, so that the word before it is a modifier. -/
def canFollowModifier : Parser Bool := do
  if ← afterBreak then return false
  match ← token with
  | some (.string ..) | some (.number ..) | some (.bigint ..) => return true
  | some token => return token.word?.isSome || ["[", leftBrace, "*", "...", "#"].any token.spells
  | none => return false

/-- Reads a modifier out of a list, if a member follows it. `static` in front of a brace begins a
block and may be left alone. -/
def modifier? (allowed : List String) (blockAllowed : Bool) : Parser (Option String) := do
  match (← needToken).word? with
  | some text =>
    if !allowed.contains text then return none
    if blockAllowed && text = "static" && (← ahead? leftBrace) then return none
    attempt do
      bump
      return if ← canFollowModifier then some text else none
  | none => return none

/-- Reads the modifier of a parameter, if there is one. In front of the end of a line it is noticed
but not passed by. -/
def eatParameterModifier : Parser Bool := do
  let modifiers := ["public", "protected", "private", "readonly"]
  if ← atAny modifiers then
    if (← wordAhead) || (← ahead? leftBrace) || (← ahead? "[") then
      let _ ← modifier? modifiers false
      return true
  return false

/-- Reads who can see a member, if that is said. The modifiers of type parameters are noted down
and count for nothing. -/
def access? : Parser (Option String) := do
  match ← modifier? ["public", "protected", "private", "in", "out"] false with
  | some text =>
    if text = "in" || text = "out" then
      noteAt (← get).previous.start (.varianceModifier text)
      return none
    return some text
  | none => return none

end Declutter.Syntax.Parser
