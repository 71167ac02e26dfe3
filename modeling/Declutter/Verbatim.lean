import Declutter.Identifier
import Declutter.Text.Blank
import Declutter.Text.Slice
import Declutter.Tree.Basic

/-!
# Words in verbatim text

A statement kept as text still mentions types. `lexemes` cuts the text into quoted strings,
comments, words and single other characters, so that a word inside quotes or a comment is no word
of the statement. A word behind a single `.` is a member access and names no type.

`rename` replaces one word by another, `words` lists them, and `declaredName?` reads off the name
of a declaration kept as text.
-/

namespace Declutter.Verbatim

/-- A piece of verbatim text. -/
inductive Lexeme where
  | word (text : List Char)
  /-- Text in which nothing is a word: a quoted string, a template without regard for its
  substitutions, or a comment. -/
  | inert (text : List Char)
  | other (c : Char)
  deriving DecidableEq, Repr

def Lexeme.text : Lexeme → List Char
  | .word text | .inert text => text
  | .other c => [c]

/-- How many characters a quoted text takes up behind its opening `quote`, the closing one
included. A backslash takes the next character with it, unless that is a line end; `multiline`
text may go over line ends that are not escaped. -/
def quotedLength (quote : Char) (multiline : Bool) : List Char → Option Nat
  | [] => none
  | '\\' :: c :: cs =>
    if c = '\n' then none else (quotedLength quote multiline cs).map (· + 2)
  | c :: cs =>
    if c = quote then some 1
    else if c = '\\' || (c = '\n' && !multiline) then none
    else (quotedLength quote multiline cs).map (· + 1)

/-- How many characters a block comment takes up behind its opening. -/
def blockCommentLength : List Char → Option Nat
  | [] => none
  | '*' :: '/' :: _ => some 2
  | _ :: cs => (blockCommentLength cs).map (· + 1)

/-- The length of a quoted text or comment at the front of a text. -/
def inertLength : List Char → Option Nat
  | '"' :: cs => (quotedLength '"' false cs).map (· + 1)
  | '\'' :: cs => (quotedLength '\'' false cs).map (· + 1)
  | '\x60' :: cs => (quotedLength '\x60' true cs).map (· + 1)
  | '/' :: '/' :: cs => some (2 + (cs.takeWhile (· ≠ '\n')).length)
  | '/' :: '*' :: cs => (blockCommentLength cs).map (· + 2)
  | _ => none

/-- The lexeme in front of `cs`, the text behind `c`. -/
def firstLexeme (c : Char) (cs : List Char) : Lexeme :=
  match inertLength (c :: cs) with
  | some n => .inert ((c :: cs).take n)
  | none => if isWordStart c then .word (c :: cs.takeWhile isWordPart) else .other c

/-- The lexemes of a text of which the first `skip` characters are already part of one. -/
def lexemesAfter : (skip : Nat) → List Char → List Lexeme
  | _, [] => []
  | skip + 1, _ :: cs => lexemesAfter skip cs
  | 0, c :: cs =>
    let lexeme := firstLexeme c cs
    lexeme :: lexemesAfter (lexeme.text.length - 1) cs

/-- The pieces of a text, in order. -/
def lexemes (text : List Char) : List Lexeme := lexemesAfter 0 text

/-- Whether a word that follows this text, given back to front, is a member access: a `.` stands
before it, blanks apart, and is not the end of `...`. -/
def endsInAccess (before : List Char) : Bool :=
  match before.dropWhile Text.isBlank with
  | '.' :: '.' :: '.' :: _ => false
  | '.' :: _ => true
  | _ => false

/-- The pieces of a text, each with whether it is a word that can name a type. -/
def markedFrom (before : List Char) : List Lexeme → List (Lexeme × Bool)
  | [] => []
  | lexeme :: rest =>
    let names := match lexeme with
      | .word _ => !endsInAccess before
      | _ => false
    (lexeme, names) :: markedFrom (lexeme.text.reverse ++ before) rest

def marked (text : List Char) : List (Lexeme × Bool) := markedFrom [] (lexemes text)

def wordsFrom (offset : Nat) : List (Lexeme × Bool) → List (Nat × String)
  | [] => []
  | (lexeme, names) :: rest =>
    let later := wordsFrom (offset + Text.byteLength lexeme.text) rest
    if names then (offset, String.ofList lexeme.text) :: later else later

/-- The words of a text that can name a type, with their byte offsets. -/
def words (text : String) : List (Nat × String) := wordsFrom 0 (marked text.toList)

/-- The text with the word `old` replaced by `new` wherever it can name a type. -/
def rename (text old new : String) : String :=
  String.ofList <| (marked text.toList).flatMap fun (lexeme, names) =>
    if names && lexeme.text = old.toList then new.toList else lexeme.text

/-! ## Declarations kept as text -/

/-- The text behind `word` and at least one blank. -/
def dropWord? (word : String) (cs : List Char) : Option (List Char) :=
  if word.toList.isPrefixOf cs then
    match cs.drop word.length with
    | c :: rest => if Text.isBlank c then some (Text.trimStart rest) else none
    | [] => none
  else none

def dropOptional (word : String) (cs : List Char) : List Char := (dropWord? word cs).getD cs

/-- The name of an enum, class, namespace, alias or interface that a text declares, behind the
modifiers such a declaration may have. -/
def declaredName? (text : String) : Option String :=
  let cs := dropOptional "declare" (dropOptional "default" (dropOptional "export" text.toList))
  let cs := (dropWord? "const" cs <|> dropWord? "abstract" cs).getD cs
  let behind := ["enum", "class", "namespace", "module", "type", "interface"].findSome? fun word =>
    dropWord? word cs
  match behind with
  | some (c :: rest) =>
    if isWordStart c then some (String.ofList (c :: rest.takeWhile isWordPart)) else none
  | _ => none

end Declutter.Verbatim

namespace Declutter

/-- The name a statement declares at the top of a file, if it declares a type. -/
def Statement.declaredName? : Statement → Option String
  | .verbatim v => Verbatim.declaredName? v.text
  | other => other.name?

/-- The names of all types declared at the top of a file, in file order. -/
def SourceFile.declaredNames (file : SourceFile) : List String :=
  file.statements.filterMap (·.declaredName?)

/-- Puts a name in its place among different names in the order of their code points. -/
def insertName (name : String) : List String → List String
  | [] => [name]
  | other :: names =>
    if name < other then name :: other :: names
    else if name = other then other :: names
    else other :: insertName name names

/-- The names declared at the top of a file, each once and in the order of their code points. -/
def SourceFile.nameIndex (file : SourceFile) : List String :=
  file.declaredNames.foldr insertName []

end Declutter
