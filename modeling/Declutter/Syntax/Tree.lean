import Declutter.Syntax.Fault
import Declutter.Tree.Basic

/-!
# Syntax trees

What the grammar reads from a text, each piece with the stretch of text it was read from. Types,
members and top-level items are kept whole, since declaration trees are made from them. Of an
expression only so much is kept as decides how the text around it reads: whether it can be
assigned to, whether it can be a parameter list, and whether it is the name of a type.
-/

namespace Declutter.Syntax

/-! ## Types -/

/-- The types that declaration trees have no place for. -/
inductive Unmodelled where
  | intrinsic
  | bigOrTemplate
  | typeOperator
  | function
  | conditional
  | mapped
  | indexedAccess
  /-- `this`, queries, imported types, predicates and inferred types. -/
  | other
  deriving DecidableEq, Repr, Inhabited

/-- How a position of a tuple is written. -/
inductive TupleForm where
  | plain
  | optional
  | rest
  deriving DecidableEq, Repr, Inhabited

/-- What a member is called. -/
inductive MemberKey where
  | word (text : String)
  | string (value : String)
  | number (span : Span)
  | computed
  | other (span : Span)
  deriving DecidableEq, Repr, Inhabited

mutual

inductive TypeSyntax where
  | keyword (span : Span) (word : Keyword)
  | string (span : Span) (value : String)
  | number (span : Span)
  | boolean (span : Span) (value : Bool)
  /-- A possibly qualified name, its parts in order. -/
  | reference (span : Span) (name : List String) (arguments : List TypeSyntax)
  | array (span : Span) (element : TypeSyntax)
  | tuple (span : Span) (elements : List TupleElementSyntax)
  | union (span : Span) (members : List TypeSyntax)
  | intersection (span : Span) (members : List TypeSyntax)
  | parenthesized (span : Span) (inner : TypeSyntax)
  | literal (span : Span) (members : List MemberSyntax)
  | unmodelled (span : Span) (form : Unmodelled)

inductive TupleElementSyntax where
  | mk (span : Span) (labelled : Bool) (form : TupleForm) (type : TypeSyntax)

inductive MemberSyntax where
  | property (span : Span) (readonly : Bool) (key : MemberKey) (optional : Bool)
      (type : Option TypeSyntax)
  | index (span : Span) (readonly : Bool) (parameter : String) (key : TypeSyntax)
      (value : Option TypeSyntax)
  | method (span : Span)
  /-- Call, construct and accessor signatures. -/
  | signature (span : Span)

end

instance : Inhabited TypeSyntax := ⟨.unmodelled default .other⟩

instance : Inhabited MemberSyntax := ⟨.signature default⟩

def TypeSyntax.span : TypeSyntax → Span
  | .keyword span _ | .string span _ | .number span | .boolean span _ | .reference span _ _
  | .array span _ | .tuple span _ | .union span _ | .intersection span _ | .parenthesized span _
  | .literal span _ | .unmodelled span _ => span

def MemberSyntax.span : MemberSyntax → Span
  | .property span .. | .index span .. | .method span | .signature span => span

/-! ## Expressions and patterns -/

/-- The operations that are no targets of an assignment. -/
inductive Operation where
  | unary
  | update
  | binary (operator : String)
  | conditional
  deriving DecidableEq, Repr, Inhabited

/-- How an expression is given another type. -/
inductive Assertion where
  /-- `inner as T` -/
  | as
  /-- `inner!` -/
  | nonNull
  /-- `<T>inner` and `inner satisfies T` -/
  | other
  deriving DecidableEq, Repr, Inhabited

mutual

inductive ExprSyntax where
  | name (span : Span) (word : String)
  | string (span : Span) (value raw : String)
  | number (span : Span)
  /-- A literal of another kind, a function, a class or a template. -/
  | constant (span : Span)
  /-- `object.property`; a private property has no name here. -/
  | member (span : Span) (object : ExprSyntax) (property : Option String)
  /-- `object[index]` -/
  | element (span : Span)
  /-- A member or an element of `super`. -/
  | superMember (span : Span)
  /-- A member, an element or a call behind `?.` somewhere in front of it. -/
  | optionalChain (span : Span) (isCall : Bool)
  /-- A call, or `new` with arguments. -/
  | call (span : Span)
  /-- `new` without arguments. -/
  | bareNew (span : Span)
  | parenthesized (span : Span) (inner : ExprSyntax)
  | asserted (span : Span) (assertion : Assertion) (inner : ExprSyntax)
  /-- The items of an array, and where a comma behind the last one lies. -/
  | array (span : Span) (items : List (Option ArgumentSyntax)) (comma : Option Nat)
  /-- The properties of an object, and where a comma behind the last one lies. -/
  | object (span : Span) (properties : List PropertySyntax) (comma : Option Nat)
  /-- An assignment; whether its sign is a bare `=`. -/
  | assignment (span : Span) (isPlain : Bool) (target : ExprSyntax)
  | operation (span : Span) (operation : Operation)
  | awaiting (span : Span) (operand : ExprSyntax)
  | arrow (span : Span)
  | instantiation (span : Span) (inner : ExprSyntax) (arguments : List TypeSyntax)
  | other (span : Span)

/-- One of several expressions in brackets, possibly spread, and where it begins. -/
inductive ArgumentSyntax where
  | mk (start : Nat) (isSpread : Bool) (value : ExprSyntax)

/-- A property of an object expression, as far as it can be a pattern. -/
inductive PropertySyntax where
  | shorthand (span : Span) (word : String)
  /-- `word = value`, which only a pattern can have. -/
  | withDefault (span : Span) (word : String)
  | pair (span : Span) (value : ExprSyntax)
  | spread (span : Span) (value : ExprSyntax)
  | method (span : Span)

end

instance : Inhabited ExprSyntax := ⟨.other default⟩

def ExprSyntax.span : ExprSyntax → Span
  | .name span _ | .string span _ _ | .number span | .constant span | .member span _ _
  | .element span | .superMember span | .optionalChain span _ | .call span | .bareNew span
  | .parenthesized span _ | .asserted span _ _ | .array span _ _ | .object span _ _
  | .assignment span _ _ | .operation span _ | .awaiting span _ | .arrow span
  | .instantiation span _ _ | .other span => span

/-- Whether an expression is an optional chain, seen through `!`. -/
def ExprSyntax.isChain : ExprSyntax → Bool
  | .optionalChain _ _ => true
  | .asserted _ .nonNull inner => inner.isChain
  | _ => false

def ArgumentSyntax.start : ArgumentSyntax → Nat
  | .mk start _ _ => start

def ArgumentSyntax.isSpread : ArgumentSyntax → Bool
  | .mk _ isSpread _ => isSpread

def ArgumentSyntax.value : ArgumentSyntax → ExprSyntax
  | .mk _ _ value => value

inductive PatternForm where
  | name (word : String)
  | array
  | object
  | withDefault
  | rest
  /-- A parameter that makes a property, and where its pattern begins if it has a default. -/
  | property (initialized : Option Nat)
  | other
  deriving DecidableEq, Repr, Inhabited

structure PatternSyntax where
  span : Span
  form : PatternForm
  deriving DecidableEq, Repr, Inhabited

/-- Whether a parameter is a name, by itself or as a property. -/
def PatternSyntax.isSimple (pattern : PatternSyntax) : Bool :=
  match pattern.form with
  | .name _ | .property _ => true
  | _ => false

/-! ## Items -/

/-- One name of an `extends` clause. -/
structure HeritageSyntax where
  expression : ExprSyntax
  arguments : List TypeSyntax

/-- A statement, or what stands in its place at the top level. -/
inductive ItemSyntax where
  | empty (span : Span)
  | alias (span : Span) (modifiers : List Modifier) (name : String) (type : TypeSyntax)
  | interface (span : Span) (modifiers : List Modifier) (name : String)
      (heritage : List HeritageSyntax) (members : List MemberSyntax)
  /-- A string alone, as it is written. -/
  | directive (span : Span) (raw : String)
  | other (span : Span)

instance : Inhabited ItemSyntax := ⟨.other default⟩

namespace ItemSyntax

def span : ItemSyntax → Span
  | .empty span | .alias span .. | .interface span .. | .directive span _ | .other span => span

/-- The item with a word in front of it, from where the word begins. -/
def modified (item : ItemSyntax) (modifier : Modifier) (span : Span) : ItemSyntax :=
  match item with
  | .alias _ modifiers name type => .alias span (modifier :: modifiers) name type
  | .interface _ modifiers name heritage members =>
    .interface span (modifier :: modifiers) name heritage members
  | .empty _ | .directive _ _ | .other _ => .other span

end ItemSyntax

end Declutter.Syntax
