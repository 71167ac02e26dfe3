/-!
# Declaration trees

What a declaration file holds: type aliases, interfaces, and the type expressions inside them.
Every other top-level statement is kept as the text it was written with.

Trees are plain values. Parentheses are nodes of their own, so a tree records where the source
had them; the printer adds the ones that precedence requires and the tree does not carry.
-/

namespace Declutter

/-- A word in front of a declaration. -/
inductive Modifier where
  | exported
  | declared
  | defaulted
  deriving DecidableEq, Repr, Inhabited

def Modifier.text : Modifier → String
  | .exported => "export"
  | .declared => "declare"
  | .defaulted => "default"

/-- The types that the language names by a word of its own. -/
inductive Keyword where
  | any
  | unknown
  | string
  | number
  | boolean
  | bigint
  | symbol
  | object
  | null
  | undefined
  | void
  | never
  deriving DecidableEq, Repr, Inhabited

def Keyword.all : List Keyword :=
  [.any, .unknown, .string, .number, .boolean, .bigint, .symbol, .object, .null, .undefined,
    .void, .never]

def Keyword.text : Keyword → String
  | .any => "any"
  | .unknown => "unknown"
  | .string => "string"
  | .number => "number"
  | .boolean => "boolean"
  | .bigint => "bigint"
  | .symbol => "symbol"
  | .object => "object"
  | .null => "null"
  | .undefined => "undefined"
  | .void => "void"
  | .never => "never"

def Keyword.ofText? (text : String) : Option Keyword :=
  Keyword.all.find? fun k => k.text == text

/-- A type with one value. A number is kept as it was written, sign included. -/
inductive Literal where
  | string (value : String)
  | number (text : String)
  | boolean (value : Bool)
  deriving DecidableEq, Repr, Inhabited

mutual

/-- A type expression. -/
inductive TypeNode where
  | keyword (word : Keyword)
  | literal (value : Literal)
  /-- A possibly qualified name (`A.B`) with its type arguments. -/
  | reference (name : String) (arguments : List TypeNode)
  | array (element : TypeNode)
  | tuple (elements : List TupleElement)
  | union (members : List TypeNode)
  | intersection (members : List TypeNode)
  | parenthesized (inner : TypeNode)
  | typeLiteral (members : List TypeMember)

/-- One position of a tuple: `T`, `T?` or `...T`. -/
structure TupleElement where
  type : TypeNode
  optional : Bool
  rest : Bool

/-- `name?: Type;`, the name without quotes. -/
structure PropertySignature where
  leadingComments : List String
  readonly : Bool
  name : String
  optional : Bool
  type : TypeNode

/-- `[parameter: Key]: Value;` -/
structure IndexSignature where
  leadingComments : List String
  readonly : Bool
  parameter : String
  key : TypeNode
  value : TypeNode

/-- A member of an interface body or of a type literal. -/
inductive TypeMember where
  | property (signature : PropertySignature)
  | index (signature : IndexSignature)

end

instance : Inhabited TypeNode := ⟨.keyword .any⟩

namespace TypeNode

/-- A reference without type arguments. -/
def named (name : String) : TypeNode := .reference name []

def stringLiteral (value : String) : TypeNode := .literal (.string value)

def isKeyword (word : Keyword) : TypeNode → Bool
  | .keyword k => k = word
  | _ => false

/-- Unions and intersections. -/
def isCompound : TypeNode → Bool
  | .union _ | .intersection _ => true
  | _ => false

end TypeNode

namespace TypeMember

def propertyName? : TypeMember → Option String
  | .property p => some p.name
  | .index _ => none

/-- `[k: string]: unknown`, whatever the parameter is called. -/
def isUnknownStringIndex : TypeMember → Bool
  | .property _ => false
  | .index i => i.key.isKeyword .string && i.value.isKeyword .unknown

/-- The types a member holds, in source order. -/
def types : TypeMember → List TypeNode
  | .property p => [p.type]
  | .index i => [i.key, i.value]

/-- The member with each of its types replaced. -/
def mapTypes (f : TypeNode → TypeNode) : TypeMember → TypeMember
  | .property p => .property { p with type := f p.type }
  | .index i => .index { i with key := f i.key, value := f i.value }

end TypeMember

/-- `type Name = Type;` -/
structure TypeAlias where
  leadingComments : List String
  modifiers : List Modifier
  name : String
  type : TypeNode

/-- `interface Name extends A, B { … }` -/
structure Interface where
  leadingComments : List String
  modifiers : List Modifier
  name : String
  heritage : List TypeNode
  members : List TypeMember

/-- A statement kept exactly as written. -/
structure Verbatim where
  leadingComments : List String
  text : String

inductive Statement where
  | typeAlias (decl : TypeAlias)
  | interface (decl : Interface)
  | verbatim (statement : Verbatim)

/-- The name an alias or an interface declares. -/
def Statement.name? : Statement → Option String
  | .typeAlias a => some a.name
  | .interface i => some i.name
  | .verbatim _ => none

/-- A declaration file: its statements, and the comments after the last of them. -/
structure SourceFile where
  statements : List Statement
  trailingComments : List String

end Declutter
