import Declutter.Identifier
import Declutter.Text.Lines
import Declutter.Text.Quoted
import Declutter.Tree.Basic

/-!
# Printing

The layout is fixed: declarations are separated by a blank line, members stand one to a line and
two blanks deeper than what holds them, and every member ends in `;`. Parentheses that the tree
does not carry are added where precedence requires them: around a union inside a union, an
intersection, an array or an optional tuple element, and around an intersection inside the last
two.
-/

namespace Declutter

namespace Printer

/-- The blanks in front of a line at a depth. -/
def pad (depth : Nat) : String := String.ofList (List.replicate (2 * depth) ' ')

/-- Comments, each of their lines on a line of its own. -/
def comments (depth : Nat) (texts : List String) : String :=
  String.join <| (texts.flatMap fun text => Text.lines text.toList).map fun line =>
    pad depth ++ String.ofList line ++ "\n"

/-- A property name, in quotes unless it is an identifier. -/
def propertyName (name : String) : String :=
  if isIdentifier name then name else Text.quote name

def literal : Literal → String
  | .string value => Text.quote value
  | .number text => text
  | .boolean true => "true"
  | .boolean false => "false"

/-- Where a type stands, as far as parentheses depend on it. -/
inductive Position where
  | unionMember
  | intersectionMember
  /-- In front of `[]`, or of the `?` of a tuple element. -/
  | operand
  deriving DecidableEq, Repr

/-- Whether a type needs parentheses at a position. -/
def needsParentheses : TypeNode → Position → Bool
  | .union _, _ => true
  | .intersection _, .operand => true
  | _, _ => false

/-- The text of a type at a position, given its text on its own. -/
def nested (node : TypeNode) (position : Position) (text : String) : String :=
  if needsParentheses node position then "(" ++ text ++ ")" else text

/-- Members between braces, given the text of each. -/
def braced (depth : Nat) (members : List String) : String :=
  if members.isEmpty then "\x7b\x7d"
  else "\x7b\n" ++ String.join members ++ pad depth ++ "\x7d"

end Printer

open Printer

mutual

/-- A type as text, where lines begin at a depth. -/
def TypeNode.render (depth : Nat) : TypeNode → String
  | .keyword word => word.text
  | .literal value => Printer.literal value
  | .reference name arguments =>
    if arguments.isEmpty then name
    else name ++ "<" ++ ", ".intercalate (renderList depth arguments) ++ ">"
  | .array element => nested element .operand (element.render depth) ++ "[]"
  | .tuple elements => "[" ++ ", ".intercalate (renderElements depth elements) ++ "]"
  | .union members => " | ".intercalate (renderNested depth .unionMember members)
  | .intersection members => " & ".intercalate (renderNested depth .intersectionMember members)
  | .parenthesized inner => "(" ++ inner.render depth ++ ")"
  | .typeLiteral members => braced depth (renderMembers depth members)

def TypeNode.renderList (depth : Nat) : List TypeNode → List String
  | [] => []
  | node :: nodes => node.render depth :: renderList depth nodes

def TypeNode.renderNested (depth : Nat) (position : Position) : List TypeNode → List String
  | [] => []
  | node :: nodes =>
    nested node position (node.render depth) :: renderNested depth position nodes

def TypeNode.renderElements (depth : Nat) : List TupleElement → List String
  | [] => []
  | ⟨type, optional, rest⟩ :: elements =>
    let body :=
      if optional then nested type .operand (type.render depth) ++ "?" else type.render depth
    ((if rest then "..." else "") ++ body) :: renderElements depth elements

/-- Members of a shape whose braces stand at a depth. -/
def TypeNode.renderMembers (depth : Nat) : List TypeMember → List String
  | [] => []
  | .property ⟨leading, readonly, name, optional, type⟩ :: members =>
    (comments (depth + 1) leading ++ pad (depth + 1) ++ (if readonly then "readonly " else "") ++
        propertyName name ++ (if optional then "?" else "") ++ ": " ++
        type.render (depth + 1) ++ ";\n") ::
      renderMembers depth members
  | .index ⟨leading, readonly, parameter, key, value⟩ :: members =>
    (comments (depth + 1) leading ++ pad (depth + 1) ++ (if readonly then "readonly " else "") ++
        "[" ++ parameter ++ ": " ++ key.render (depth + 1) ++ "]: " ++
        value.render (depth + 1) ++ ";\n") ::
      renderMembers depth members

end

/-- A type as text, on one line if it holds no members. -/
def TypeNode.print (node : TypeNode) : String := node.render 0

def Printer.modifiers (words : List Modifier) : String :=
  String.join (words.map fun m => m.text ++ " ")

def Statement.print : Statement → String
  | .typeAlias a =>
    comments 0 a.leadingComments ++ modifiers a.modifiers ++ "type " ++ a.name ++ " = " ++
      a.type.render 0 ++ ";\n"
  | .interface i =>
    comments 0 i.leadingComments ++ modifiers i.modifiers ++ "interface " ++ i.name ++
      (if i.heritage.isEmpty then ""
        else " extends " ++ ", ".intercalate (TypeNode.renderList 0 i.heritage)) ++
      " " ++ braced 0 (TypeNode.renderMembers 0 i.members) ++ "\n"
  | .verbatim v => comments 0 v.leadingComments ++ v.text ++ "\n"

/-- A file as text: its statements with a blank line between them, then the trailing comments. -/
def SourceFile.print (file : SourceFile) : String :=
  let body := "\n".intercalate (file.statements.map (·.print))
  if file.trailingComments.isEmpty then body
  else body ++ (if file.statements.isEmpty then "" else "\n") ++ comments 0 file.trailingComments

end Declutter
