import Declutter.Syntax.Tree

/-!
# Expressions as targets and patterns

An expression is read before it shows that it is assigned to, or that it is a parameter of an
arrow function. Here it is decided whether it can be. What is wrong with it is a list of faults to
note down, unless one of them ends the reading.
-/

namespace Declutter.Syntax

/-- The faults to note down, or the fault that ends the reading. -/
abbrev Findings := Except Fault (List Fault)

/-- The names that strict code neither binds nor assigns to. -/
def isRestricted (word : String) : Bool := word = "eval" || word = "arguments"

namespace ExprSyntax

/-- Whether an expression stands for a place that a value can be put into. -/
def isTarget : ExprSyntax → Bool
  | .name _ word => !isRestricted word
  | .member _ _ _ | .element _ | .superMember _ => true
  | .parenthesized _ inner | .asserted _ _ inner | .instantiation _ inner _ => inner.isTarget
  | _ => false

/-- Whether an expression has the form of a target, be it one or not. -/
def hasTargetForm : ExprSyntax → Bool
  | .name _ _ | .member _ _ _ | .element _ | .superMember _ | .optionalChain _ _
  | .parenthesized _ _ | .asserted _ _ _ | .instantiation _ _ _ => true
  | _ => false

/-- The fault of putting a value into an expression that is no target. -/
def targetFaults (expression : ExprSyntax) : List Fault :=
  if expression.isTarget then [] else [⟨.refusedTarget, expression.span.start⟩]

/-- What is wrong with an expression in front of an operator that changes its value. -/
def asChanged (expression : ExprSyntax) : Findings :=
  if expression.hasTargetForm then .ok expression.targetFaults
  else .error ⟨.invalidTarget, expression.span.start⟩

/-- What is wrong with an expression that is put into as part of an array or object. -/
def asSlot (expression : ExprSyntax) : Findings :=
  let place := expression.span.start
  let unlessTarget : Findings := .ok (if expression.isTarget then [] else [⟨.notAssignable, place⟩])
  match expression with
  | .name _ _ | .member _ _ _ | .element _ | .superMember _ | .call _ | .bareNew _
  | .string _ _ _ | .number _ | .constant _ | .parenthesized _ _ | .asserted _ .as _ =>
    unlessTarget
  | _ => .ok [⟨.notAPattern, place⟩]

/-- Whether an expression is an assignment, with whatever sign. -/
def isAssignment : ExprSyntax → Bool
  | .assignment _ _ _ => true
  | _ => false

def isPlainAssignment : ExprSyntax → Bool
  | .assignment _ isPlain _ => isPlain
  | _ => false

/-- The fault of binding the rest of an object to anything but a name. -/
def restNameFaults (place : Nat) : ExprSyntax → List Fault
  | .name _ _ => []
  | _ => [⟨.restWithoutName, place⟩]

/-- Whether an expression is an array or an object. -/
def isCompound : ExprSyntax → Bool
  | .array _ _ _ | .object _ _ _ => true
  | _ => false

end ExprSyntax

mutual

/-- What is wrong with a part of a pattern. Parts that are bound are patterns themselves; parts
that are assigned to can be any target. What an inner `=` assigns to has been looked at before,
if it is an array or an object. -/
def ExprSyntax.asPart (bound : Bool) : ExprSyntax → Findings
  | .array _ items comma => itemsAsParts bound comma items
  | .object _ properties comma => propertiesAsParts bound comma properties
  | .assignment span isPlain target =>
    if !isPlain then .ok [⟨.notAPattern, span.start⟩]
    else if target.isCompound then .ok []
    else target.asPart bound
  | expression =>
    if bound then
      match expression with
      | .name _ _ => .ok []
      | _ => .ok [⟨.notAPattern, expression.span.start⟩]
    else expression.asSlot

/-- What is wrong with the items of an array: only the last one can be the rest, and no comma
follows it. -/
def itemsAsParts (bound : Bool) (comma : Option Nat) : List (Option ArgumentSyntax) → Findings
  | [] => .ok []
  | none :: items => itemsAsParts bound comma items
  | some (.mk start isSpread value) :: items =>
    if isSpread && !items.isEmpty then do
      return ⟨.restNotLast, start⟩ :: (← itemsAsParts bound comma items)
    else do
      let initializer : List Fault :=
        if isSpread && value.isAssignment then [⟨.restInitializer, start⟩] else []
      let trailing : List Fault :=
        if isSpread then comma.toList.map (⟨.commaAfterRest, ·⟩) else []
      let inner ← value.asPart bound
      return initializer ++ trailing ++ inner ++ (← itemsAsParts bound comma items)

/-- What is wrong with the properties of an object: only the last one can be the rest, and no
comma follows it. -/
def propertiesAsParts (bound : Bool) (comma : Option Nat) : List PropertySyntax → Findings
  | [] => .ok []
  | .shorthand _ _ :: properties | .withDefault _ _ :: properties =>
    propertiesAsParts bound comma properties
  | .pair _ value :: properties => do
    return (← value.asPart bound) ++ (← propertiesAsParts bound comma properties)
  | .method span :: _ => .error ⟨.notAPattern, span.start⟩
  | .spread span value :: properties => do
    let place : List Fault :=
      if properties.isEmpty then comma.toList.map (⟨.commaAfterRest, ·⟩)
      else [⟨.restNotLast, span.start⟩]
    let inner ← if bound then .ok (value.restNameFaults span.start) else value.asPart false
    let initializer : List Fault :=
      if !bound && value.isPlainAssignment then [⟨.restInitializer, span.start⟩] else []
    return place ++ inner ++ initializer ++ (← propertiesAsParts bound comma properties)

end

mutual

/-- The names that an expression binds as a pattern, and where they stand. -/
def ExprSyntax.boundNames : ExprSyntax → List (String × Nat)
  | .name span word => [(word, span.start)]
  | .array _ items _ => itemNames items
  | .object _ properties _ => propertyNames properties
  | .assignment _ _ target => target.boundNames
  | _ => []

def itemNames : List (Option ArgumentSyntax) → List (String × Nat)
  | [] => []
  | none :: items => itemNames items
  | some (.mk _ _ value) :: items => value.boundNames ++ itemNames items

def propertyNames : List PropertySyntax → List (String × Nat)
  | [] => []
  | .shorthand span word :: properties | .withDefault span word :: properties =>
    (word, span.start) :: propertyNames properties
  | .pair _ value :: properties | .spread _ value :: properties =>
    value.boundNames ++ propertyNames properties
  | .method _ :: properties => propertyNames properties

end

namespace ExprSyntax

/-- The faults of the names that an expression binds as a pattern. -/
def boundFaults (expression : ExprSyntax) : List Fault :=
  let restricted := expression.boundNames.filter fun (word, _) => isRestricted word
  restricted.map fun (_, place) => ⟨.boundEval, place⟩

/-- What is wrong with an expression that `of` or `in` gives a value to. -/
def asEach (expression : ExprSyntax) : Findings :=
  if expression.isCompound then expression.asPart false else .ok expression.targetFaults

/-- What is wrong with an expression in front of `=`. -/
def asAssigned (expression : ExprSyntax) : Findings :=
  if expression.isCompound then expression.asPart false else expression.asChanged

/-- An expression as the pattern of a parameter. -/
def asParameter (expression : ExprSyntax) : PatternSyntax :=
  let form : PatternForm := match expression with
    | .name _ word => .name word
    | .array _ _ _ => .array
    | .object _ _ _ => .object
    | .assignment _ true _ => .withDefault
    | _ => .other
  ⟨expression.span, form⟩

/-- The faults of the properties of an object that only a pattern can have. -/
def patternOnlyFaults : ExprSyntax → List Fault
  | .object _ properties _ => properties.filterMap fun
    | .withDefault span _ => some ⟨.shorthandAssignment, span.start⟩
    | _ => none
  | _ => []

end ExprSyntax

end Declutter.Syntax
