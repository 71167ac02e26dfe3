/-!
# Errors

Why a file is refused. Each constructor is a cause; `Error.message` is its wording.
-/

namespace Declutter

/-- A place in a source text: line and column, both from 1, the column in characters. -/
structure Place where
  line : Nat
  column : Nat
  deriving DecidableEq, Repr, Inhabited

/-- What is wrong with a tree. -/
inductive Defect where
  | invalidName
  | declaredTwice
  | emptyUnion
  | emptyIntersection
  | namelessReference
  | danglingReference (name : String)
  deriving DecidableEq, Repr, Inhabited

def Defect.message : Defect → String
  | .invalidName => "declared name is not a valid identifier"
  | .declaredTwice => "type declared more than once"
  | .emptyUnion => "empty union type"
  | .emptyIntersection => "empty intersection type"
  | .namelessReference => "type reference without a name"
  | .danglingReference name => "dangling reference to `" ++ name ++ "`"

/-- Why a file cannot be read or rewritten. -/
inductive Error where
  /-- JSON that is no JSON, or not of the expected shape. -/
  | json (text : String)
  | syntaxError (place : Place) (text : String)
  | noAliasNamed (name : String)
  | noAlias
  | invalidRootName (name : String)
  /-- A rewritten tree is unsound at a declaration or verbatim statement. -/
  | unsound (path : String) (defect : Defect)
  deriving DecidableEq, Repr, Inhabited

def Error.message : Error → String
  | .json text => "JSON parsing error: " ++ text
  | .syntaxError place text =>
    "Syntax error at " ++ toString place.line ++ ":" ++ toString place.column ++ ": " ++ text
  | .noAliasNamed name => "Root type alias not found: no type alias named `" ++ name ++ "`"
  | .noAlias => "Root type alias not found: source file declares no type alias"
  | .invalidRootName name => "Invalid identifier `" ++ name ++ "`: root type name"
  | .unsound path defect =>
    "Structural invariant violated at " ++ path ++ ": " ++ defect.message

end Declutter
