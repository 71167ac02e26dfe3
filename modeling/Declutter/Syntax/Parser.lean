import Declutter.Syntax.Lexer

/-!
# Parsers

A parser reads lexemes and gives a value or a fault. Lexemes are read from the text one at a
time, when they are first looked at, because how a text is cut into lexemes depends on where in
the grammar one is. At most one lexeme behind the current one is known.

A fault that a parser throws ends the reading. One that it notes down lets it go on; the text is
refused all the same. A trial notes nothing down, and if it fails nothing of it remains but the
comments that it put down at the end of the text.
-/

namespace Declutter.Syntax

/-- Where in the grammar one is. -/
structure Context where
  /-- Whether `<` and `>` enclose type arguments. -/
  inType : Bool
  /-- Whether `<` and `>` make up operators all the same, in an expression inside of a type. -/
  inTypedOperand : Bool
  /-- Whether faults are not noted down. -/
  silent : Bool
  /-- Whether `extends` cannot make a conditional type. -/
  noConditional : Bool
  inDeclare : Bool
  inAsync : Bool
  inGenerator : Bool
  inFunction : Bool
  inParameters : Bool
  /-- Whether a function that is no arrow function is around. -/
  hasOwnTarget : Bool
  breakAllowed : Bool
  continueAllowed : Bool
  /-- Whether `in` is an operator. -/
  inAllowed : Bool
  inConditional : Bool
  /-- Whether the expression must be followed by a colon. -/
  awaitsColon : Bool
  inStaticBlock : Bool
  inClass : Bool
  /-- Whether no function is around inside of the class. -/
  inClassField : Bool
  /-- Whether the class extends another. -/
  hasBase : Bool
  /-- Whether a `for` begins, which may go through items. -/
  inForHead : Bool
  /-- Whether the items of that `for` are awaited. -/
  inAwaitHead : Bool
  deriving DecidableEq, Repr, Inhabited

namespace Context

/-- The context at the beginning of a text. -/
def outermost : Context :=
  { inType := false
    inTypedOperand := false
    silent := false
    noConditional := false
    inDeclare := false
    inAsync := false
    inGenerator := false
    inFunction := false
    inParameters := false
    hasOwnTarget := false
    breakAllowed := false
    continueAllowed := false
    inAllowed := false
    inConditional := false
    awaitsColon := false
    inStaticBlock := false
    inClass := false
    inClassField := false
    hasBase := false
    inForHead := false
    inAwaitHead := false }

end Context

/-- What remains of a reading even if a trial fails: the faults noted down, the last one first,
and the comments that have been put down. -/
structure Journal where
  faults : List Fault
  comments : List Comment
  deriving DecidableEq, Repr, Inhabited

structure State where
  lexer : Lexer
  /-- The current lexeme, if it has been read. -/
  current : Option Lexeme
  /-- The lexeme behind it, if it has been read. -/
  ahead : Option Lexeme
  /-- Where the last lexeme passed by lies. -/
  previous : Span
  context : Context
  /-- Where the expression begins that can be an arrow function. -/
  arrowStart : Option Nat
  /-- The labels of the enclosing statements. -/
  labels : List String
  journal : Journal
  /-- How often a repetition can be gone through: more often than the text has characters. -/
  limit : Nat
  deriving Inhabited

abbrev Parser := EStateM Fault State

/-! ## Reading lexemes -/

namespace State

def mode (state : State) : LexMode :=
  ⟨state.context.inType && !state.context.inTypedOperand⟩

/-- Notes down a fault. -/
def note (state : State) (fault : Fault) : State :=
  if state.context.silent then state
  else { state with journal := { state.journal with faults := fault :: state.journal.faults } }

/-- Puts down the comments that the lexer holds. -/
def putDownComments (state : State) : State :=
  { state with
    lexer := { state.lexer with comments := [] }
    journal :=
      { state.journal with comments := state.journal.comments ++ state.lexer.comments.reverse } }

/-- Reads a lexeme from the text. At its end the comments are put down. -/
def read (state : State) : Option Lexeme × State :=
  let step := state.lexer.next state.mode
  let state := step.faults.foldl note { state with lexer := step.lexer }
  (step.lexeme, if step.isEnd then state.putDownComments else state)

/-- Sees to it that the current lexeme has been read. -/
def fetch (state : State) : Option Lexeme × State :=
  match state.current, state.ahead with
  | some lexeme, _ => (some lexeme, state)
  | none, some lexeme => (some lexeme, { state with current := some lexeme, ahead := none })
  | none, none =>
    let (lexeme, state) := state.read
    (lexeme, { state with current := lexeme })

/-- Sees to it that the lexeme behind the current one has been read, if there is a current one. -/
def fetchAhead (state : State) : Option Lexeme × State :=
  match state.fetch with
  | (none, state) => (none, state)
  | (some _, state) =>
    match state.ahead with
    | some lexeme => (some lexeme, state)
    | none =>
      let (lexeme, state) := state.read
      (lexeme, { state with ahead := lexeme })

end State

namespace Parser

def lexeme : Parser (Option Lexeme) := fun state =>
  let (lexeme, state) := state.fetch
  .ok lexeme state

/-- The current token, none at the end of the text. -/
def token : Parser (Option Token) := return (← lexeme).map (·.token)

/-- The lexeme behind the current one. At the end of the text there is none. -/
def lexemeAhead : Parser (Option Lexeme) := fun state =>
  let (lexeme, state) := state.fetchAhead
  .ok lexeme state

def tokenAhead : Parser (Option Token) := return (← lexemeAhead).map (·.token)

/-- The end of the last lexeme passed by. -/
def previousStop : Parser Nat := return (← get).previous.stop

/-- Where the current lexeme lies; at the end of the text, where the last one lies. -/
def here : Parser Span := do
  match ← lexeme with
  | some lexeme => return lexeme.span
  | none => return (← get).previous

/-- Where the current lexeme begins; at the end of the text, where the last one ends. -/
def position : Parser Nat := do
  match ← lexeme with
  | some lexeme => return lexeme.span.start
  | none => previousStop

/-- The stretch from a place to the end of the last lexeme. -/
def spanFrom (start : Nat) : Parser Span := do
  let stop ← previousStop
  return ⟨min start stop, max start stop⟩

/-- Passes by the current lexeme. At the end of the text nothing happens. -/
def bump : Parser Unit := do
  match ← lexeme with
  | some lexeme => modify fun state => { state with current := none, previous := lexeme.span }
  | none => return

/-- Whether a line ends before the current lexeme. The end of the text counts as one. -/
def afterBreak : Parser Bool := return ((← lexeme).map (·.afterBreak)).getD true

/-- Whether a line ends between the current lexeme and the next. -/
def breakAhead : Parser Bool := return ((← lexemeAhead).map (·.afterBreak)).getD true

/-! ## Faults -/

/-- Notes a fault down, and a malformed current token before it. -/
def noteAt (place : Nat) (cause : Cause) : Parser Unit := do
  unless (← get).context.silent do
    if let some (.malformed fault) ← token then
      bump
      modify (·.note fault)
    modify (·.note ⟨cause, place⟩)

/-- Ends the reading with a fault at a place. -/
def failAt {α : Type} (place : Nat) (cause : Cause) : Parser α := do
  if let some (.malformed fault) ← token then
    bump
    modify (·.note fault)
  throw ⟨cause, place⟩

/-- Notes a fault down at the current lexeme. -/
def noteHere (cause : Cause) : Parser Unit := do noteAt (← here).start cause

/-- Ends the reading with a fault at the current lexeme. -/
def failHere {α : Type} (cause : Cause) : Parser α := do failAt (← here).start cause

/-- Ends the reading if the current token is malformed. -/
def checkToken : Parser Unit := do
  if let some (.malformed fault) ← token then throw fault

/-- The current token, of which there must be one. -/
def needToken : Parser Token := do
  checkToken
  match ← token with
  | some token => return token
  | none => throw ⟨.endOfText, ← previousStop⟩

/-- Whether the text is at its end. -/
def atEnd : Parser Bool := do
  checkToken
  return (← token).isNone

def shownToken : Parser String := return ((← token).map (·.shown)).getD "<eof>"

/-- Ends the reading, since the current token is none of those that can stand here. -/
def unexpected {α : Type} (options : String) : Parser α := do
  failHere (.unexpected (← shownToken) options)

/-! ## Tokens by their spelling -/

/-- Whether the current token is a certain word or sign. -/
def at? (text : String) : Parser Bool := return (← token).any (·.spells text)

def atAny (texts : List String) : Parser Bool :=
  return (← token).any fun token => texts.any token.spells

/-- Whether the token behind the current one is a certain word or sign. -/
def ahead? (text : String) : Parser Bool := return (← tokenAhead).any (·.spells text)

def eat (text : String) : Parser Bool := do
  if ← at? text then
    bump
    return true
  return false

def expect (text : String) : Parser Unit := do
  unless ← eat text do failHere (.expected text (← shownToken))

/-- Whether the current token is a word. -/
def atWord : Parser Bool := return (← token).any (·.word?.isSome)

def wordAhead : Parser Bool := return (← tokenAhead).any (·.word?.isSome)

/-- Whether the current token is a word that can be a name of its own. -/
def atName : Parser Bool := return (← token).any (·.isBindable)

def nameAhead : Parser Bool := return (← tokenAhead).any (·.isBindable)

/-- Whether a statement can end here: at a semicolon, a closing brace, the end of a line or of
the text. -/
def atStatementEnd : Parser Bool := do
  if ← atAny [";", rightBrace] then return true
  afterBreak

/-- Ends a statement here, if one can end here. -/
def eatSemicolon : Parser Bool := do
  if ← eat ";" then return true
  atStatementEnd

def expectSemicolon : Parser Unit := do
  unless ← eatSemicolon do failHere (.expected ";" (← shownToken))

/-- Reads a word, whichever it is. -/
def word : Parser String := do
  match (← needToken).word? with
  | some text =>
    bump
    return text
  | none => failHere .expectedIdentifierWord

/-! ## Contexts, trials and repetitions -/

/-- Runs a parser in a changed context, which ends with it. -/
def within {α : Type} (change : Context → Context) (parser : Parser α) : Parser α :=
  fun state =>
    match parser { state with context := change state.context } with
    | .ok value after => .ok value { after with context := state.context }
    | .error fault after => .error fault { after with context := state.context }

def inType {α : Type} (parser : Parser α) : Parser α :=
  within (fun context => { context with inType := true, inTypedOperand := false }) parser

/-- Runs a parser as if no colon had to follow. -/
def awaitingNoColon {α : Type} (parser : Parser α) : Parser α :=
  within (fun context => { context with awaitsColon := false }) parser

def allowingIn {α : Type} (parser : Parser α) : Parser α :=
  within (fun context => { context with inAllowed := true }) parser

/-- Runs a parser as if only the outermost bracket were open. -/
def forgettingBrackets {α : Type} (parser : Parser α) : Parser α := fun state =>
  let brackets := state.lexer.brackets
  let outermost := brackets.drop (brackets.length - 1)
  match parser { state with lexer := { state.lexer with brackets := outermost } } with
  | .ok value after => .ok value { after with lexer := { after.lexer with brackets } }
  | .error fault after => .error fault { after with lexer := { after.lexer with brackets } }

/-- Tries a parser. If it fails or gives nothing, the reading goes on where it began. -/
def attempt {α : Type} (parser : Parser (Option α)) : Parser (Option α) := fun state =>
  match parser { state with context := { state.context with silent := true } } with
  | .ok (some value) after =>
    .ok (some value)
      { after with context := { after.context with silent := state.context.silent } }
  | .ok none after => .ok none { state with journal := after.journal }
  | .error _ after => .ok none { state with journal := after.journal }

/-- Looks ahead with a parser, whose faults are thrown. -/
def lookAhead {α : Type} (parser : Parser α) : Parser α := fun state =>
  match parser { state with context := { state.context with silent := true } } with
  | .ok value after => .ok value { state with journal := after.journal }
  | .error fault after => .error fault { state with journal := after.journal }

/-- Repeats a step as long as it gives a new value, at most a number of times. -/
def iterateUpTo {α : Type} (step : α → Parser (Option α)) : (limit : Nat) → α → Parser α
  | 0, _ => do throw ⟨.endOfText, ← previousStop⟩
  | limit + 1, value => do
    match ← step value with
    | some next => iterateUpTo step limit next
    | none => return value

/-- Repeats a step as long as it gives a new value. -/
def iterate {α : Type} (step : α → Parser (Option α)) (start : α) : Parser α := do
  iterateUpTo step (← get).limit start

/-- Collects items as long as there are any. -/
def collect {α : Type} (item : Parser (Option α)) : Parser (List α) := do
  let items ← iterate (fun items => return (← item).map (· :: items)) []
  return items.reverse

/-- Repeats a parser as long as it says so. -/
def repeatWhile (step : Parser Bool) : Parser Unit :=
  iterate (fun _ => return if ← step then some () else none) ()

/-- Collects items up to a closing token. Between two items stands a comma; where it is missing,
`missing` says what happens. -/
def listUpTo {α : Type} (closed : Parser Bool) (missing : Parser Unit) (item : Parser α) :
    Parser (List α) := do
  let (items, _) ← iterate
    (fun (items, isDone) => do
      if isDone then return none
      if ← closed then return none
      let items := (← item) :: items
      if ← eat "," then return some (items, false)
      if ← closed then return some (items, true)
      missing
      return some (items, false))
    ([], false)
  return items.reverse

/-- Collects items up to a closing token, a comma between each two. -/
def commaList {α : Type} (closed : Parser Bool) (item : Parser α) : Parser (List α) :=
  listUpTo closed (expect ",") item

end Parser

end Declutter.Syntax
