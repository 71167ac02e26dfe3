import Declutter.Error
import Declutter.Syntax.Source
import Declutter.Text.Blank
import Declutter.Text.Lines
import Declutter.Text.Slice

/-!
# Reading declaration files

`SourceFile.ofText` makes a declaration tree of a source text. Aliases and interfaces without type
parameters become declarations, all other statements are kept as text, and a declaration with a
type that trees have no place for is refused.

Comments are handed out by place. A statement or member gets every comment that ends before it
begins and has not been handed out; the comments inside of it that none of its members got are
left out.
-/

namespace Declutter

/-- The forms that no declaration tree has a place for. -/
inductive Unsupported where
  | heritageMember
  | heritageExpression
  | computedName
  | keyForm
  | untypedProperty
  | indexForm
  | method
  | signature
  | labelledElement
  | type (form : Syntax.Unmodelled)
  deriving DecidableEq, Repr, Inhabited

def Unsupported.message : Unsupported → String
  | .heritageMember => "computed heritage names are not supported"
  | .heritageExpression => "heritage expressions are not supported"
  | .computedName => "computed property names are not supported"
  | .keyForm => "property keys of this kind are not supported"
  | .untypedProperty => "properties without a type are not supported"
  | .indexForm => "index signatures of this shape are not supported"
  | .method => "method signatures are not supported"
  | .signature => "call, construct and accessor signatures are not supported"
  | .labelledElement => "labelled tuple elements are not supported"
  | .type .intrinsic => "intrinsic types are not supported"
  | .type .bigOrTemplate => "bigint and template literal types are not supported"
  | .type .typeOperator => "type operators are not supported"
  | .type .function => "function types are not supported"
  | .type .conditional => "conditional types are not supported"
  | .type .mapped => "mapped types are not supported"
  | .type .indexedAccess => "indexed access types are not supported"
  | .type .other => "types of this kind are not supported"

namespace Reading

open Syntax

/-- A form that is not supported, and where it begins. -/
structure Refusal where
  reason : Unsupported
  place : Nat
  deriving DecidableEq, Repr, Inhabited

/-- Reads with the comments at hand that have not been handed out, in order. -/
abbrev Reader := StateT (List Comment) (Except Refusal)

def refuse {α : Type} (reason : Unsupported) (span : Span) : Reader α :=
  throw ⟨reason, span.start⟩

/-! ## Comments -/

/-- A block comment with its lines moved to the left, one space in front of a star. -/
def alignedBlock (text : List Char) : List Char :=
  match Text.lines text with
  | [] => []
  | first :: rest =>
    let aligned (line : List Char) : List Char :=
      let line := Text.trim line
      if line.head? = some '*' then '\n' :: ' ' :: line else '\n' :: line
    Text.trimEnd first ++ rest.flatMap aligned

/-- The text of a comment as a tree holds it. -/
def commentText (source : List Char) (comment : Comment) : String :=
  let text := Text.slice source comment.span.start comment.span.stop
  String.ofList (if comment.isBlock then alignedBlock text else Text.trimEnd text)

/-- Takes the comments that end before a place. -/
def takeComments (source : List Char) (place : Nat) : Reader (List String) := do
  let comments ← get
  let (taken, left) := comments.span (·.span.stop ≤ place)
  set left
  return taken.map (commentText source)

/-- Leaves out the comments that begin before a place. -/
def dropComments (place : Nat) : Reader Unit :=
  modify fun comments => comments.dropWhile (·.span.start < place)

/-! ## Types and members -/

def textOf (source : List Char) (span : Span) : String :=
  String.ofList (Text.slice source span.start span.stop)

/-- A compound of types; a single one is itself. -/
def compound (make : List TypeNode → TypeNode) : List TypeNode → TypeNode
  | [type] => type
  | types => make types

/-- The name of a property. A number is named as it is written. -/
def propertyName (source : List Char) (span : Span) : MemberKey → Reader String
  | .word text | .string text => return text
  | .number place => return textOf source place
  | .computed => refuse .computedName span
  | .other place => refuse .keyForm place

mutual

def typeNode (source : List Char) : TypeSyntax → Reader TypeNode
  | .keyword _ word => return .keyword word
  | .string _ value => return .literal (.string value)
  | .number span => return .literal (.number (textOf source span))
  | .boolean _ value => return .literal (.boolean value)
  | .reference _ name arguments =>
    return .reference (".".intercalate name) (← typeNodes source arguments)
  | .array _ element => return .array (← typeNode source element)
  | .tuple _ elements => return .tuple (← tupleElements source elements)
  | .union _ members => return compound .union (← typeNodes source members)
  | .intersection _ members => return compound .intersection (← typeNodes source members)
  | .parenthesized _ inner => return .parenthesized (← typeNode source inner)
  | .literal _ members => return .typeLiteral (← typeMembers source members)
  | .unmodelled span form => refuse (.type form) span

def typeNodes (source : List Char) : List TypeSyntax → Reader (List TypeNode)
  | [] => return []
  | type :: types => return (← typeNode source type) :: (← typeNodes source types)

def tupleElements (source : List Char) : List TupleElementSyntax → Reader (List TupleElement)
  | [] => return []
  | .mk span labelled form type :: elements => do
    if labelled then refuse .labelledElement span
    let type ← typeNode source type
    let element : TupleElement := ⟨type, form = .optional, form = .rest⟩
    return element :: (← tupleElements source elements)

def typeMember (source : List Char) (leadingComments : List String) :
    MemberSyntax → Reader TypeMember
  | .property span readonly key optional type => do
    let name ← propertyName source span key
    match type with
    | some type =>
      let type ← typeNode source type
      return .property { leadingComments, readonly, name, optional, type }
    | none => refuse .untypedProperty span
  | .index span readonly parameter key value => do
    match value with
    | some value =>
      let key ← typeNode source key
      let value ← typeNode source value
      return .index { leadingComments, readonly, parameter, key, value }
    | none => refuse .indexForm span
  | .method span => refuse .method span
  | .signature span => refuse .signature span

def typeMembers (source : List Char) : List MemberSyntax → Reader (List TypeMember)
  | [] => return []
  | member :: members => do
    let leadingComments ← takeComments source member.span.start
    let node ← typeMember source leadingComments member
    dropComments member.span.stop
    return node :: (← typeMembers source members)

end

/-! ## Statements -/

/-- `A` or `A.B` as an expression. -/
def heritageName : ExprSyntax → Reader String
  | .name _ word => return word
  | .member span object property => do
    match property with
    | some property => return (← heritageName object) ++ "." ++ property
    | none => refuse .heritageMember span
  | expression => refuse .heritageExpression expression.span

def heritage (source : List Char) : List HeritageSyntax → Reader (List TypeNode)
  | [] => return []
  | item :: items => do
    let name ← heritageName item.expression
    let type := TypeNode.reference name (← typeNodes source item.arguments)
    return type :: (← heritage source items)

/-- The text of a statement, with a semicolon that ends it but is no part of it. -/
def verbatimText (source : List Char) (span : Span) : String :=
  let text := Text.slice source span.start span.stop
  let behind := Text.dropBytes span.stop source
  let gap := behind.takeWhile Text.isBlank
  if text.getLast? ≠ some ';' && (behind.drop gap.length).head? = some ';' then
    String.ofList (text ++ gap ++ [';'])
  else String.ofList text

/-- A statement; the empty one is none. -/
def statement (source : List Char) (item : ItemSyntax) : Reader (Option Statement) := do
  if let .empty _ := item then return none
  let leadingComments ← takeComments source item.span.start
  let read : Statement ← match item with
    | .alias _ modifiers name type => do
      let type ← typeNode source type
      pure (.typeAlias { leadingComments, modifiers, name, type })
    | .interface _ modifiers name parents members => do
      let heritage ← heritage source parents
      let members ← typeMembers source members
      pure (.interface { leadingComments, modifiers, name, heritage, members })
    | .empty span | .directive span _ | .other span =>
      pure (.verbatim { leadingComments, text := verbatimText source span })
  dropComments item.span.stop
  return some read

def statements (source : List Char) : List ItemSyntax → Reader (List Statement)
  | [] => return []
  | item :: items => do
    let first ← statement source item
    let rest ← statements source items
    return first.toList ++ rest

/-! ## Places -/

/-- Line and column of a byte. A line ends at `\n`, at `\r\n` and at `\r`. -/
def placeFrom (line column : Nat) : (offset : Nat) → List Char → Place
  | 0, _ => ⟨line, column⟩
  | _, [] => ⟨line, column⟩
  | offset + 1, c :: cs =>
    let left := offset + 1 - c.utf8Size
    if c = '\n' || (c = '\r' && cs.head? ≠ some '\n') then placeFrom (line + 1) 1 left cs
    else placeFrom line (column + 1) left cs
  termination_by _ cs => cs.length

def placeAt (text : List Char) (offset : Nat) : Place := placeFrom 1 1 offset text

/-- A text without the mark that can stand at its beginning. -/
def withoutMark : List Char → List Char
  | '\uFEFF' :: cs => cs
  | cs => cs

end Reading

/-- Reads a declaration file. A fault of syntax anywhere counts before a form that is not
supported. What is taken over as text is counted off from the beginning of the file, a mark of
its encoding included. -/
def SourceFile.ofText (text : String) : Except Error SourceFile := do
  let source := text.toList
  let parsed := Reading.withoutMark source
  let refused (place : Nat) (message : String) : Error :=
    .syntaxError (Reading.placeAt parsed place) message
  let tree ← (Syntax.Source.parse parsed).mapError fun fault =>
    refused fault.place fault.cause.message
  let (statements, comments) ←
    ((Reading.statements source tree.items).run tree.comments).mapError fun refusal =>
      refused refusal.place refusal.reason.message
  return ⟨statements, comments.map (Reading.commentText source)⟩

end Declutter
