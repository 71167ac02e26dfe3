import Declutter.Error
import Declutter.Json.Decoder
import Declutter.Tree.Basic

/-!
# Trees from JSON

The decoders of tree types. A type decoder is built in layers, one for each level of nesting; a
document that was read from a text is never nested more deeply than the layers go.
-/

namespace Declutter

open Json (Decoder Record Variant)

/-- A list of texts that may be left out. -/
def Json.Record.texts (name : String) : Record (List String) :=
  .optional name (.list .string) []

/-- A boolean that is `false` where it is left out. -/
def Json.Record.flag (name : String) : Record Bool := .optional name .bool false

def Modifier.decoder : Decoder Modifier :=
  Variant.decoder <| [Modifier.exported, .declared, .defaulted].map fun m => .plain m.text m

def Keyword.decoder : Decoder Keyword :=
  Variant.decoder <| Keyword.all.map fun k => .plain k.text k

def Literal.decoder : Decoder Literal :=
  Variant.decoder
    [.holding "string" (Decoder.string.map .string),
      .holding "number" (Decoder.string.map .number),
      .holding "boolean" (Decoder.bool.map .boolean)]

/-! ## Parts of types, given how types are read -/

section
variable (type : Decoder TypeNode)

def TupleElement.decoder : Decoder TupleElement :=
  Record.decoder
    (((Record.required "ty" type).and ((Record.flag "optional").and (.flag "rest"))).map
      fun (type, optional, rest) => ⟨type, optional, rest⟩)
    "struct TupleElement"

def PropertySignature.decoder : Decoder PropertySignature :=
  Record.decoder
    (((Record.texts "leading_comments").and ((Record.flag "readonly").and
      ((Record.required "name" .string).and ((Record.flag "optional").and
        (.required "ty" type))))).map
      fun (comments, readonly, name, optional, type) =>
        ⟨comments, readonly, name, optional, type⟩)
    "struct PropertySignature"

def IndexSignature.decoder : Decoder IndexSignature :=
  Record.decoder
    (((Record.texts "leading_comments").and ((Record.flag "readonly").and
      ((Record.required "parameter" .string).and ((Record.required "key_type" type).and
        (.required "value_type" type))))).map
      fun (comments, readonly, parameter, key, value) =>
        ⟨comments, readonly, parameter, key, value⟩)
    "struct IndexSignature"

def TypeMember.decoderOver : Decoder TypeMember :=
  Variant.decoder
    [.holding "property" ((PropertySignature.decoder type).map .property),
      .holding "index" ((IndexSignature.decoder type).map .index)]

/-- One more layer of types. -/
def TypeNode.decoderOver : Decoder TypeNode :=
  Variant.decoder
    [.holding "keyword" (Keyword.decoder.map .keyword),
      .holding "literal" (Literal.decoder.map .literal),
      .withFields "reference" "TypeNode::Reference"
        (((Record.required "name" .string).and (.optional "type_arguments" (.list type) [])).map
          fun (name, arguments) => .reference name arguments),
      .holding "array" (type.map .array),
      .holding "tuple" ((Decoder.list (TupleElement.decoder type)).map .tuple),
      .holding "union" ((Decoder.list type).map .union),
      .holding "intersection" ((Decoder.list type).map .intersection),
      .holding "parenthesized" (type.map .parenthesized),
      .holding "type-literal" ((Decoder.list (TypeMember.decoderOver type)).map .typeLiteral)]

end

/-- Reads types nested in at most `layers` levels. -/
def TypeNode.decoder : (layers : Nat) → Decoder TypeNode
  | 0 => fun _ document => .error (.next "recursion limit exceeded" document.extent.start)
  | layers + 1 => TypeNode.decoderOver (TypeNode.decoder layers)

def TypeMember.decoder (layers : Nat) : Decoder TypeMember :=
  TypeMember.decoderOver (TypeNode.decoder layers)

/-! ## Statements and files -/

def TypeAlias.decoder (layers : Nat) : Decoder TypeAlias :=
  Record.decoder
    (((Record.texts "leading_comments").and
      ((Record.optional "modifiers" (.list Modifier.decoder) []).and
        ((Record.required "name" .string).and (.required "ty" (TypeNode.decoder layers))))).map
      fun (comments, modifiers, name, type) => ⟨comments, modifiers, name, type⟩)
    "struct TypeAliasDecl"

def Interface.decoder (layers : Nat) : Decoder Interface :=
  Record.decoder
    (((Record.texts "leading_comments").and
      ((Record.optional "modifiers" (.list Modifier.decoder) []).and
        ((Record.required "name" .string).and
          ((Record.optional "extends" (.list (TypeNode.decoder layers)) []).and
            (.required "members" (.list (TypeMember.decoder layers))))))).map
      fun (comments, modifiers, name, heritage, members) =>
        ⟨comments, modifiers, name, heritage, members⟩)
    "struct InterfaceDecl"

def Verbatim.decoder : Decoder Verbatim :=
  Record.decoder
    (((Record.texts "leading_comments").and (.required "text" .string)).map
      fun (comments, text) => ⟨comments, text⟩)
    "struct VerbatimStatement"

def Statement.decoder (layers : Nat) : Decoder Statement :=
  Variant.decoder
    [.holding "type-alias" ((TypeAlias.decoder layers).map .typeAlias),
      .holding "interface" ((Interface.decoder layers).map .interface),
      .holding "verbatim" (Verbatim.decoder.map .verbatim)]

def SourceFile.decoder (layers : Nat) : Decoder SourceFile :=
  Record.decoder
    (((Record.required "statements" (.list (Statement.decoder layers))).and
      (Record.texts "trailing_comments")).map
      fun (statements, comments) => ⟨statements, comments⟩)
    "struct SourceFile"

/-- How deeply a text may be nested, and so the layers of types that are enough for any text. -/
def maxDepth : Nat := 128

/-- Reads the JSON text of a tree. -/
def SourceFile.ofJson (text : String) : Except Error SourceFile :=
  (Json.decodeText (SourceFile.decoder maxDepth) text).mapError .json

end Declutter
