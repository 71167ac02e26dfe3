import Declutter.Syntax.Gap
import Declutter.Syntax.Literal
import Declutter.Text.Visible

/-!
# The lexer

`Lexer.next` reads one token. Two things depend on what has been read before: a slash begins a
regular expression where an operand can stand, and what follows a brace is part of a template if
the brace closes a substitution. Both are decided from the brackets that are open.
-/

namespace Declutter.Syntax

/-- A bracket, or something like one, that is open. -/
inductive Bracket where
  | statementBrace
  | expressionBrace
  | statementParen (isFor : Bool)
  | expressionParen
  | substitution
  | template (start : Nat)
  | functionHead
  | classHead
  deriving DecidableEq, Repr, Inhabited

/-- What closes a bracket ends an operand. -/
def Bracket.isOperand : Bracket → Bool
  | .statementBrace | .statementParen _ => false
  | _ => true

/-- How signs and templates are read at the moment. -/
structure LexMode where
  /-- Whether `<` and `>` stand alone, since they enclose type arguments. -/
  singleAngles : Bool
  deriving DecidableEq, Repr, Inhabited

structure Lexer where
  cursor : Cursor
  /-- Where the last token began. -/
  tokenStart : Cursor
  operandAllowed : Bool
  /-- The open brackets, the innermost first. -/
  brackets : List Bracket
  last : Option Token
  hasBreak : Bool
  hadBreak : Bool
  /-- Whether no token has been read. -/
  isFirst : Bool
  /-- The comments read, the last one first. -/
  comments : List Comment
  deriving DecidableEq, Repr, Inhabited

namespace Lexer

/-- The lexer at the beginning of a text. -/
def ofText (cs : List Char) : Lexer :=
  { cursor := ⟨cs, 0⟩
    tokenStart := ⟨cs, 0⟩
    operandAllowed := true
    brackets := [.statementBrace]
    last := none
    hasBreak := false
    hadBreak := false
    isFirst := true
    comments := [] }

/-! ## What a token says about the next one -/

def isSign (token : Option Token) (text : String) : Bool := token = some (.sign text)

def isKeyword (token : Option Token) (word : String) : Bool := token = some (.keyword word)

/-- Whether a token is neither a keyword nor one of the signs that the lexer tells apart. -/
def isOrdinary : Token → Bool
  | .keyword _ | .template _ _ => false
  | .sign text =>
    !([".", ":", "\x7b", ")", ";", "=>"].contains text || (binaryOperators.lookup text).isSome)
  | _ => true

/-- Whether a brace behind the last token opens a block. -/
def opensBlock (lexer : Lexer) : Bool :=
  let current := lexer.brackets.head?
  let last := lexer.last
  if isSign last ":" && current = some .statementBrace then true
  else if isSign last ":" && current = some .expressionBrace then false
  else if isKeyword last "return" || isKeyword last "yield" then lexer.hasBreak
  else if isKeyword last "else" || isSign last ";" || last = none || isSign last ")" then true
  else if isSign last "\x7b" then current = some .statementBrace
  else if isSign last "<" || isSign last ">" || isSign last "=>" then true
  else
    match last with
    | some token =>
      (lexer.hasBreak && isOrdinary token && !token.expectsOperand) || !lexer.operandAllowed
    | none => true

/-- Closes the innermost bracket, of which the outermost stays open. -/
def closeBracket (lexer : Lexer) : Lexer :=
  match lexer.brackets with
  | closed :: outer :: rest =>
    if closed = .statementBrace && (outer = .functionHead || outer = .classHead) then
      { lexer with brackets := rest, operandAllowed := false }
    else if closed = .substitution then
      let inTemplate := match outer with
        | .template _ => true
        | _ => false
      { lexer with brackets := outer :: rest, operandAllowed := !inTemplate }
    else { lexer with brackets := outer :: rest, operandAllowed := !closed.isOperand }
  | _ => { lexer with operandAllowed := true }

def push (lexer : Lexer) (bracket : Bracket) (operandAllowed : Bool) : Lexer :=
  { lexer with brackets := bracket :: lexer.brackets, operandAllowed }

/-- Takes note of a keyword that begins a function or a class. -/
def noteBody (lexer : Lexer) (bracket : Bracket) : Lexer :=
  if lexer.operandAllowed && !lexer.opensBlock then lexer.push bracket false
  else { lexer with operandAllowed := false }

def noteSign (lexer : Lexer) (text : String) (start : Nat) : Lexer :=
  let current := lexer.brackets.head?
  if text = ")" || text = "\x7d" then lexer.closeBracket
  else if text = ":" && (current = some .functionHead || current = some .classHead) then
    { lexer with brackets := lexer.brackets.drop 1, operandAllowed := true }
  else if text = "\x7b" then
    lexer.push (if lexer.opensBlock then .statementBrace else .expressionBrace) true
  else if text = "$\x7b" then lexer.push .substitution true
  else if text = "(" then
    let isHead := ["if", "with", "while"].any (isKeyword lexer.last ·)
    lexer.push
      (if isHead then .statementParen false
        else if isKeyword lexer.last "for" then .statementParen true else .expressionParen)
      true
  else if text = "++" || text = "--" then lexer
  else if text = "\x60" then
    match lexer.brackets with
    | .template _ :: rest => { lexer with brackets := rest, operandAllowed := false }
    | _ => lexer.push (.template start) false
  else { lexer with operandAllowed := (Token.sign text).expectsOperand }

/-- Takes note of a token that has been read. -/
def note (lexer : Lexer) (token : Token) (start : Nat) : Lexer :=
  let noted : Lexer := match token with
    | .keyword word =>
      if isSign lexer.last "." then { lexer with operandAllowed := false }
      else if word = "function" then lexer.noteBody .functionHead
      else if word = "class" then lexer.noteBody .classHead
      else { lexer with operandAllowed := token.expectsOperand }
    | .name word =>
      if word = "of" && lexer.brackets.head? = some (.statementParen true) then
        { lexer with operandAllowed := !((lexer.last.map (·.expectsOperand)).getD false) }
      else
        let declares := ["let", "const", "var"].any (isKeyword lexer.last ·)
        { lexer with operandAllowed := declares && lexer.hadBreak }
    | .sign text => lexer.noteSign text start
    | _ => { lexer with operandAllowed := false }
  { noted with last := some token, hadBreak := lexer.hasBreak }

/-! ## Reading a token -/

/-- The signs, each in front of the signs it begins with. -/
def signs : List String :=
  [">>>=", "...", "===", "!==", "**=", "<<=", ">>=", ">>>", "&&=", "||=", "??=", "=>", "==", "!=",
    "**", "*=", "%=", "+=", "-=", "++", "--", "<<", ">>", "<=", ">=", "&&", "||", "??", "&=", "|=",
    "^=", "(", ")", "[", "]", "\x7b", "\x7d", ";", ",", ":", "?", "~", "@", "#", "=", "!", "*",
    "%", "+", "-", "<", ">", "&", "|", "^", ".", "\x60"]

/-- The longest sign in front of a text. -/
def signOf? (mode : LexMode) (cs : List Char) : Option String :=
  match cs with
  | '<' :: _ => if mode.singleAngles then some "<" else signs.find? fun s => s.toList.isPrefixOf cs
  | '>' :: _ => if mode.singleAngles then some ">" else signs.find? fun s => s.toList.isPrefixOf cs
  | _ => signs.find? fun s => s.toList.isPrefixOf cs

/-- The token in front of a text that begins with no blank. -/
def scanToken (mode : LexMode) (operandAllowed : Bool) (offset : Nat) (c : Char)
    (cs : List Char) : Scan :=
  if startsWord c || c = '\\' then Word.ofText offset (c :: cs)
  else if c = '"' || c = '\'' then Quoted.ofText offset c cs
  else if c.isDigit || (c = '.' && (cs.head?.map Char.isDigit).getD false) then
    Numeral.ofText offset (c :: cs)
  else if c = '/' then
    if operandAllowed then regexOfText offset cs
    else if cs.head? = some '=' then ⟨.sign "/=", 2, []⟩
    else ⟨.sign "/", 1, []⟩
  else
    match signOf? mode (c :: cs) with
    | some text => ⟨.sign text, text.length, []⟩
    | none => ⟨.malformed ⟨.unexpectedCharacter (Text.visibleQuoted c), offset⟩, 1, []⟩

/-- How many characters the opening of an old-style comment has, if one begins here. -/
def legacyComment? (lexer : Lexer) (mode : LexMode) : Option Nat :=
  match lexer.cursor.rest with
  | '<' :: '!' :: '-' :: '-' :: _ => if mode.singleAngles then none else some 4
  | '-' :: '-' :: '>' :: _ => if lexer.hasBreak then some 3 else none
  | _ => none

/-- Whether one of the lines begins here that mark where two versions of a text differ. -/
def atConflictMarker (lexer : Lexer) (mode : LexMode) : Bool :=
  let isNext (text : String) : Bool := text.toList.isPrefixOf lexer.cursor.rest
  lexer.hasBreak &&
    (isNext "=======" ||
      (!mode.singleAngles && (isNext "<<<<<<< " || isNext ">>>>>>> ")))

/-- What a reading gives: the token, if there is one, the lexer behind it, and faults that do not
stop the reading. -/
structure Step where
  lexeme : Option Lexeme
  lexer : Lexer
  faults : List Fault
  /-- Whether nothing is left of the text. A NUL is taken for the end, but text may follow it. -/
  isEnd : Bool
  deriving Repr, Inhabited

def addGap (lexer : Lexer) (gap : Gap) : Lexer :=
  { lexer with
    cursor := gap.stop
    hasBreak := lexer.hasBreak || gap.hasBreak
    comments := gap.comments.reverse ++ lexer.comments }

/-- Puts a token into its place. -/
def emit (lexer : Lexer) (start : Cursor) (token : Token) (stop : Cursor) (faults : List Fault) :
    Step :=
  let lexer := { lexer with cursor := stop, tokenStart := start }.note token start.offset
  ⟨some ⟨token, ⟨start.offset, stop.offset⟩, lexer.hasBreak⟩, lexer, faults, false⟩

/-- Reads the token at the cursor, old-style comments and marks of a conflict in front of it left
out. -/
def readToken (mode : LexMode) (start : Cursor) : (fuel : Nat) → Lexer → Step
  | 0, lexer => ⟨none, lexer, [], true⟩
  | fuel + 1, lexer =>
    match lexer.cursor.rest with
    | [] => ⟨none, lexer, [], true⟩
    | '\x00' :: _ => ⟨none, { lexer with cursor := lexer.cursor.advance }, [], false⟩
    | c :: cs =>
      match lexer.legacyComment? mode with
      | some length =>
        let gap := Gap.behindLineComment lexer.cursor.offset (lexer.cursor.skip length)
        let step := readToken mode start fuel (lexer.addGap gap)
        { step with faults := ⟨.legacyComment, lexer.cursor.offset⟩ :: step.faults }
      | none =>
        if lexer.atConflictMarker mode then
          let gap := Gap.behindLineComment lexer.cursor.offset (lexer.cursor.skip 7)
          let step := readToken mode start fuel (lexer.addGap gap)
          { step with faults := ⟨.conflictMarker, lexer.cursor.offset⟩ :: step.faults }
        else
          let scan := scanToken mode lexer.operandAllowed lexer.cursor.offset c cs
          lexer.emit start scan.token (lexer.cursor.skip scan.length) scan.faults

/-- Reads a piece of a template that began at `templateStart`. -/
def readTemplate (lexer : Lexer) (templateStart : Nat) : Step :=
  let start := lexer.cursor
  let behindPart := match lexer.last with
    | some (.template _ _) => true
    | _ => false
  match start.rest, behindPart with
  | '\x60' :: _, true => lexer.emit start (.sign "\x60") start.advance []
  | '$' :: '\x7b' :: _, true => lexer.emit start (.sign "$\x7b") (start.skip 2) []
  | rest, _ =>
    let part := TemplatePart.scan 0 start.offset rest
    let lexer := { lexer with hasBreak := lexer.hasBreak || part.hasBreak }
    let token : Token :=
      if part.isClosed then .template (start.take part.length) part.bad
      else .malformed ⟨.unterminatedTemplate, templateStart⟩
    lexer.emit start token (start.skip part.length) part.faults

/-- Reads the next token. -/
def next (lexer : Lexer) (mode : LexMode) : Step :=
  match lexer.isFirst, lexer.cursor.rest with
  | true, '#' :: '!' :: cs =>
    let length := (cs.takeWhile (!isLineEnd ·)).length + 2
    lexer.emit lexer.cursor .shebang (lexer.cursor.skip length) []
  | isFirst, rest =>
    let lexer := { lexer with hasBreak := isFirst, isFirst := false }
    match lexer.brackets with
    | .template start :: _ =>
      if rest.isEmpty then ⟨none, lexer, [], true⟩ else lexer.readTemplate start
    | _ =>
      let gap := Gap.before lexer.cursor
      match gap.unterminated with
      | some start =>
        (lexer.addGap gap).emit lexer.cursor (.malformed ⟨.unterminatedComment, start⟩) gap.stop []
      | none =>
        let lexer := lexer.addGap gap
        readToken mode lexer.cursor (lexer.cursor.rest.length + 1) lexer

/-- Reads a regular expression where the last token, a slash, began. -/
def rereadAsRegex (lexer : Lexer) : Step :=
  let start := lexer.tokenStart
  let scan := regexOfText start.offset (start.rest.drop 1)
  lexer.emit start scan.token (start.skip scan.length) scan.faults

end Lexer

end Declutter.Syntax
