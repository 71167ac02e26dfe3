/-!
# Options

What a caller can ask of the pipeline, and the short form `Interface.property=literal` in which a
property to inject is given on a command line.
-/

namespace Declutter

/-- A property `name?: "value"` to add to the front of an interface. -/
structure InjectedProperty where
  interface : String
  name : String
  value : String
  deriving DecidableEq, Repr, Inhabited

/-- Splits a text at the first `separator`, which belongs to neither part. -/
def splitAtFirst (separator : Char) (cs : List Char) : Option (List Char × List Char) :=
  match cs.dropWhile (· ≠ separator) with
  | [] => none
  | _ :: rest => some (cs.takeWhile (· ≠ separator), rest)

/-- Reads `Interface.property=literal`. The value begins behind the first `=` and the property
behind the first `.` before that; interface and property must not be empty. -/
def InjectedProperty.ofSpec? (spec : String) : Option InjectedProperty := do
  let (target, value) ← splitAtFirst '=' spec.toList
  let (interface, name) ← splitAtFirst '.' target
  if interface.isEmpty || name.isEmpty then none
  else some ⟨String.ofList interface, String.ofList name, String.ofList value⟩

/-- What the pipeline is to do. -/
structure Options where
  /-- The name that the root alias gets. -/
  rootName : String := "Tsconfig"
  /-- The alias to take as the root; the first alias of the file if none is given. -/
  rootAlias : Option String := none
  injectProperty : Option InjectedProperty := none
  mergeRootUnions : Bool := false
  deriving DecidableEq, Repr, Inhabited

end Declutter
