import Declutter.Json.Value
import Declutter.Tree.Basic

/-!
# Trees as JSON

A variant is an object with one key, its name. Fields that are empty lists or `false` are left out.
-/

namespace Declutter

open Json (Value)

/-- A variant that comes with a value. -/
def Json.Value.tagged (name : String) (value : Value) : Value := .object [(name, value)]

/-- A list of texts. -/
def Json.Value.texts (items : List String) : Value := .array (items.map .string)

/-- A field that is left out if its list is empty. -/
def Json.Value.unlessEmpty (name : String) (items : List Value) : List (String × Value) :=
  if items.isEmpty then [] else [(name, .array items)]

/-- A field that is left out if it is `false`. -/
def Json.Value.ifTrue (name : String) (flag : Bool) : List (String × Value) :=
  if flag then [(name, .bool true)] else []

open Json.Value (tagged unlessEmpty ifTrue)

def Modifier.toJson (word : Modifier) : Value := .string word.text

def Keyword.toJson (word : Keyword) : Value := .string word.text

def Literal.toJson : Literal → Value
  | .string value => tagged "string" (.string value)
  | .number text => tagged "number" (.string text)
  | .boolean value => tagged "boolean" (.bool value)

/-- Comments in front of something. -/
def commentsField (name : String) (comments : List String) : List (String × Value) :=
  unlessEmpty name (comments.map .string)

mutual

def TypeNode.toJson : TypeNode → Value
  | .keyword word => tagged "keyword" word.toJson
  | .literal value => tagged "literal" value.toJson
  | .reference name arguments =>
    tagged "reference" <| .object <|
      ("name", .string name) :: unlessEmpty "type_arguments" (TypeNode.listToJson arguments)
  | .array element => tagged "array" element.toJson
  | .tuple elements => tagged "tuple" (.array (TypeNode.elementsToJson elements))
  | .union members => tagged "union" (.array (TypeNode.listToJson members))
  | .intersection members => tagged "intersection" (.array (TypeNode.listToJson members))
  | .parenthesized inner => tagged "parenthesized" inner.toJson
  | .typeLiteral members => tagged "type-literal" (.array (TypeNode.membersToJson members))

def TypeNode.listToJson : List TypeNode → List Value
  | [] => []
  | node :: nodes => node.toJson :: TypeNode.listToJson nodes

def TypeNode.elementsToJson : List TupleElement → List Value
  | [] => []
  | ⟨type, optional, rest⟩ :: elements =>
    .object (("ty", type.toJson) :: (ifTrue "optional" optional ++ ifTrue "rest" rest)) ::
      TypeNode.elementsToJson elements

def TypeNode.membersToJson : List TypeMember → List Value
  | [] => []
  | .property ⟨comments, readonly, name, optional, type⟩ :: members =>
    tagged "property" (.object (commentsField "leading_comments" comments ++
        ifTrue "readonly" readonly ++ [("name", .string name)] ++ ifTrue "optional" optional ++
        [("ty", type.toJson)])) ::
      TypeNode.membersToJson members
  | .index ⟨comments, readonly, parameter, key, value⟩ :: members =>
    tagged "index" (.object (commentsField "leading_comments" comments ++
        ifTrue "readonly" readonly ++ [("parameter", .string parameter),
          ("key_type", key.toJson), ("value_type", value.toJson)])) ::
      TypeNode.membersToJson members

end

def TypeMember.toJson (member : TypeMember) : Value :=
  match TypeNode.membersToJson [member] with
  | value :: _ => value
  | [] => .null

def Statement.toJson : Statement → Value
  | .typeAlias a =>
    tagged "type-alias" <| .object <|
      commentsField "leading_comments" a.leadingComments ++
        unlessEmpty "modifiers" (a.modifiers.map (·.toJson)) ++
        [("name", .string a.name), ("ty", a.type.toJson)]
  | .interface i =>
    tagged "interface" <| .object <|
      commentsField "leading_comments" i.leadingComments ++
        unlessEmpty "modifiers" (i.modifiers.map (·.toJson)) ++ [("name", .string i.name)] ++
        unlessEmpty "extends" (TypeNode.listToJson i.heritage) ++
        [("members", .array (TypeNode.membersToJson i.members))]
  | .verbatim v =>
    tagged "verbatim" <| .object <|
      commentsField "leading_comments" v.leadingComments ++ [("text", .string v.text)]

def SourceFile.toJson (file : SourceFile) : Value :=
  .object (("statements", .array (file.statements.map (·.toJson))) ::
    commentsField "trailing_comments" file.trailingComments)

end Declutter
