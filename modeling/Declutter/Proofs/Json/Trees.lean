import Declutter.Options.Coding
import Declutter.Proofs.Json.Records
import Declutter.Proofs.Nodes
import Declutter.Tree.Decoding

/-!
# Trees and options read back

What is written of a tree is decoded as that tree and as no other, in a text that is not nested too
deeply, and options are always read back. A type is decoded one layer above its children.
-/

namespace Declutter

open Json

/-! ## Words and literals -/

theorem Modifier.decodes (bound : Nat) (word : Modifier) :
    Decodes bound Modifier.decoder word.toJson word := by
  have hfind : ([Modifier.exported, .declared, .defaulted].map fun m =>
      Variant.plain m.text m).find? (·.name = word.text) = some (.plain word.text word) := by
    cases word <;> rfl
  exact decodes_alone hfind rfl

theorem Keyword.decodes (bound : Nat) (word : Keyword) :
    Decodes bound Keyword.decoder word.toJson word := by
  have hfind : (Keyword.all.map fun k => Variant.plain k.text k).find? (·.name = word.text) =
      some (.plain word.text word) := by
    cases word <;> rfl
  exact decodes_alone hfind rfl

theorem Literal.decodes (bound : Nat) (value : Literal) :
    Decodes (bound + 1) Literal.decoder value.toJson value := by
  cases value with
  | string value => exact ((decodes_string bound value).map Literal.string).tagged rfl
  | number text => exact ((decodes_string bound text).map Literal.number).tagged rfl
  | boolean value => exact ((decodes_bool bound value).map Literal.boolean).tagged rfl

@[simp] theorem Json.Record.names_texts (name : String) : (Record.texts name).names = [name] := rfl

@[simp] theorem Json.Record.names_flag (name : String) : (Record.flag name).names = [name] := rfl

/-- Comments are texts, and are left out if there are none. -/
theorem fills_commentsField (bound : Nat) (name : String) (comments : List String) :
    Fills bound (Record.texts name) (commentsField name comments) comments :=
  fills_unlessEmpty (fun comment _ => decodes_string bound comment) name

/-! ## Lists of types, elements and members -/

theorem TypeNode.listToJson_eq_map (nodes : List TypeNode) :
    TypeNode.listToJson nodes = nodes.map (·.toJson) := by
  induction nodes with
  | nil => rfl
  | cons node nodes ih => rw [TypeNode.listToJson, ih, List.map_cons]

/-- An element as it is written in a list of elements. -/
def TupleElement.toJson (element : TupleElement) : Value :=
  .object (("ty", element.type.toJson) ::
    (Value.ifTrue "optional" element.optional ++ Value.ifTrue "rest" element.rest))

theorem TypeNode.elementsToJson_eq_map (elements : List TupleElement) :
    TypeNode.elementsToJson elements = elements.map (·.toJson) := by
  induction elements with
  | nil => rfl
  | cons element elements ih =>
    obtain ⟨type, optional, rest⟩ := element
    rw [TypeNode.elementsToJson, ih, List.map_cons, TupleElement.toJson]

theorem TypeNode.membersToJson_eq_map (members : List TypeMember) :
    TypeNode.membersToJson members = members.map (·.toJson) := by
  induction members with
  | nil => rfl
  | cons member members ih =>
    obtain ⟨_, _, _, _, _⟩ | ⟨_, _, _, _, _⟩ := member
    · rw [TypeNode.membersToJson, ih, List.map_cons]
      rfl
    · rw [TypeNode.membersToJson, ih, List.map_cons]
      rfl

/-! ## Types -/

section

variable {bound : Nat} {type : Decoder TypeNode}

theorem TupleElement.decodes {element : TupleElement}
    (h : Decodes bound type element.type.toJson element.type) :
    Decodes (bound + 1) (TupleElement.decoder type) element.toJson element := by
  obtain ⟨t, optional, rest⟩ := element
  have hflags := (fills_ifTrue bound "optional" optional).and (fills_ifTrue bound "rest" rest)
    (by simp)
  exact (((fills_required h "ty").and hflags (by simp)).map _).decodes _

/-- A member is decoded if its types are. -/
theorem TypeMember.decodes {member : TypeMember}
    (h : ∀ t ∈ member.types, Decodes bound type t.toJson t) :
    Decodes (bound + 2) (TypeMember.decoderOver type) member.toJson member := by
  cases member with
  | property p =>
    obtain ⟨comments, readonly, name, optional, t⟩ := p
    have ht := fills_required (h t (by simp [TypeMember.types])) "ty"
    have hname := fills_required (decodes_string bound name) "name"
    have hend := hname.and ((fills_ifTrue bound "optional" optional).and ht (by simp)) (by simp)
    have hfields := (fills_commentsField bound "leading_comments" comments).and
      ((fills_ifTrue bound "readonly" readonly).and hend (by simp)) (by simp)
    have hvariant : Decodes (bound + 2) (TypeMember.decoderOver type) (.tagged "property" _) _ :=
      (((hfields.map _).decodes _).map _).tagged rfl
    -- the entries are written in the order of the fields, and only nested the other way
    simpa [TypeMember.toJson, TypeNode.membersToJson] using hvariant
  | index i =>
    obtain ⟨comments, readonly, parameter, key, value⟩ := i
    have hkey := fills_required (h key (by simp [TypeMember.types])) "key_type"
    have hvalue := fills_required (h value (by simp [TypeMember.types])) "value_type"
    have hname := fills_required (decodes_string bound parameter) "parameter"
    have hend := hname.and (hkey.and hvalue (by simp)) (by simp)
    have hfields := (fills_commentsField bound "leading_comments" comments).and
      ((fills_ifTrue bound "readonly" readonly).and hend (by simp)) (by simp)
    have hvariant : Decodes (bound + 2) (TypeMember.decoderOver type) (.tagged "index" _) _ :=
      (((hfields.map _).decodes _).map _).tagged rfl
    simpa [TypeMember.toJson, TypeNode.membersToJson] using hvariant

/-- A type is decoded if its children are, one level further down. -/
theorem TypeNode.decodes_decoderOver {node : TypeNode}
    (h : ∀ child ∈ node.children, Decodes bound type child.toJson child) :
    Decodes (bound + 1) (TypeNode.decoderOver type) node.toJson node := by
  -- the children are the types, elements or members that are listed, or the types in them
  cases node with
  | keyword word => exact ((word.decodes bound).map TypeNode.keyword).tagged rfl
  | literal value =>
    have hvalue := ((value.decodes bound).map TypeNode.literal).mono (Nat.le_succ bound)
    exact hvalue.tagged rfl
  | reference name arguments =>
    rw [TypeNode.toJson, TypeNode.listToJson_eq_map]
    have hname := fills_required (decodes_string bound name) "name"
    have harguments := fills_unlessEmpty (f := toJson) h "type_arguments"
    have hfields := (hname.and harguments (by simp)).map fun fields =>
      TypeNode.reference fields.1 fields.2
    have hpayload := hfields.withFields "reference" "TypeNode::Reference"
    exact (hpayload.mono (Nat.le_succ bound)).tagged rfl
  | array element =>
    exact ((h element (List.mem_singleton.mpr rfl)).map TypeNode.array).tagged rfl
  | tuple elements =>
    rw [TypeNode.toJson, TypeNode.elementsToJson_eq_map]
    have helements : ∀ element ∈ elements, Decodes (bound + 1) (TupleElement.decoder type)
        element.toJson element := fun element hmem =>
      TupleElement.decodes (h element.type (List.mem_map_of_mem hmem))
    exact (((decodes_list helements).map TypeNode.tuple).mono (by omega)).tagged rfl
  | union members =>
    rw [TypeNode.toJson, TypeNode.listToJson_eq_map]
    exact (((decodes_list h).map TypeNode.union).mono (Nat.le_succ bound)).tagged rfl
  | intersection members =>
    rw [TypeNode.toJson, TypeNode.listToJson_eq_map]
    exact (((decodes_list h).map TypeNode.intersection).mono (Nat.le_succ bound)).tagged rfl
  | parenthesized inner =>
    exact ((h inner (List.mem_singleton.mpr rfl)).map TypeNode.parenthesized).tagged rfl
  | typeLiteral members =>
    rw [TypeNode.toJson, TypeNode.membersToJson_eq_map]
    have hmembers : ∀ member ∈ members, Decodes (bound + 2) (TypeMember.decoderOver type)
        member.toJson member := fun member hmem =>
      TypeMember.decodes fun t ht => h t (List.mem_flatMap.mpr ⟨member, hmem, ht⟩)
    exact (((decodes_list hmembers).map TypeNode.typeLiteral).mono (by omega)).tagged rfl

end

theorem TypeNode.height_toJson_pos (node : TypeNode) : 0 < node.toJson.height := by
  cases node <;> exact Nat.succ_pos _

/-- A type is decoded as far down as there are layers, and not beyond. -/
theorem TypeNode.decodes (node : TypeNode) (layers : Nat) :
    Decodes layers (TypeNode.decoder layers) node.toJson node := by
  induction node using inductionOn generalizing layers with
  | step node ih =>
    have hover (layers : Nat) :
        Decodes (layers + 1) (TypeNode.decoder (layers + 1)) node.toJson node :=
      decodes_decoderOver fun child hmem => ih child hmem layers
    cases layers with
    | succ layers => exact hover layers
    | zero =>
      -- no type is flat, so without a layer there is nothing to decode
      refine ⟨(hover 0).numberless, fun levels hlevels rest y => ?_⟩
      have hheight := node.height_toJson_pos
      constructor
      · intro herror
        cases herror
      · intro hfits
        omega

/-! ## Statements and files -/

theorem fills_modifiers (bound : Nat) (modifiers : List Modifier) :
    Fills bound (Record.optional "modifiers" (.list Modifier.decoder) [])
      (Value.unlessEmpty "modifiers" (modifiers.map (·.toJson))) modifiers :=
  fills_unlessEmpty (fun word _ => word.decodes bound) "modifiers"

theorem Statement.decodes (statement : Statement) (layers : Nat) :
    Decodes (layers + 2) (Statement.decoder layers) statement.toJson statement := by
  cases statement with
  | typeAlias a =>
    obtain ⟨comments, modifiers, name, type⟩ := a
    have hname := fills_required (decodes_string layers name) "name"
    have htype := fills_required (type.decodes layers) "ty"
    have hfields := (fills_commentsField layers "leading_comments" comments).and
      ((fills_modifiers layers modifiers).and (hname.and htype (by simp)) (by simp)) (by simp)
    have hvariant : Decodes (layers + 2) (Statement.decoder layers) (.tagged "type-alias" _) _ :=
      (((hfields.map _).decodes _).map _).tagged rfl
    simpa [Statement.toJson] using hvariant
  | interface i =>
    obtain ⟨comments, modifiers, name, heritage, members⟩ := i
    have hname := fills_required (decodes_string layers name) "name"
    have hheritage := fills_unlessEmpty (f := TypeNode.toJson)
      (fun type (_ : type ∈ heritage) => type.decodes layers) "extends"
    have hmember : ∀ member ∈ members, Decodes (layers + 2) (TypeMember.decoder layers)
        member.toJson member := fun _ _ => TypeMember.decodes fun type _ => type.decodes layers
    have hmembers := fills_required ((decodes_list hmember).mono (by omega : layers ≤ _)) "members"
    have hend := hname.and (hheritage.and hmembers (by simp)) (by simp)
    have hfields := (fills_commentsField layers "leading_comments" comments).and
      ((fills_modifiers layers modifiers).and hend (by simp)) (by simp)
    have hvariant : Decodes (layers + 2) (Statement.decoder layers) (.tagged "interface" _) _ :=
      (((hfields.map _).decodes _).map _).tagged rfl
    simpa [Statement.toJson, TypeNode.listToJson_eq_map, TypeNode.membersToJson_eq_map]
      using hvariant
  | verbatim v =>
    obtain ⟨comments, text⟩ := v
    have htext := fills_required (decodes_string layers text) "text"
    have hfields := (fills_commentsField layers "leading_comments" comments).and htext (by simp)
    exact (((hfields.map _).decodes _).map _).tagged rfl

theorem SourceFile.decodes (file : SourceFile) (layers : Nat) :
    Decodes (layers + 1) (SourceFile.decoder layers) file.toJson file := by
  obtain ⟨statements, comments⟩ := file
  have hstatement : ∀ statement ∈ statements, Decodes (layers + 2) (Statement.decoder layers)
      statement.toJson statement := fun statement _ => statement.decodes layers
  have hstatements := fills_required
    ((decodes_list hstatement).mono (by omega : layers ≤ _)) "statements"
  have hfields := hstatements.and (fills_commentsField layers "trailing_comments" comments)
    (by simp)
  exact (hfields.map _).decodes _

/-! ## Options -/

theorem InjectedProperty.decodes (bound : Nat) (property : InjectedProperty) :
    Decodes (bound + 1) InjectedProperty.decoder property.toJson property := by
  obtain ⟨interface, name, value⟩ := property
  have hname := fills_required (decodes_string bound name) "name"
  have hvalue := fills_required (decodes_string bound value) "value"
  have hfields := (fills_required (decodes_string bound interface) "interface").and
    (hname.and hvalue (by simp)) (by simp)
  exact (hfields.map _).decodes _

/-- A value that may be missing, and is `null` then. -/
theorem Json.decodes_getD_null {α : Type} {bound : Nat} {decoder : Decoder α} {f : α → Value}
    (h : ∀ x, Decodes bound decoder (f x) x) (hvalue : ∀ x, f x ≠ .null) (x : Option α) :
    Decodes bound decoder.nullable ((x.map f).getD .null) x := by
  cases x with
  | none => exact decodes_nullable_null bound decoder
  | some x => exact (h x).nullable (hvalue x)

theorem Options.decodes (bound : Nat) (options : Options) :
    Decodes (bound + 1) Options.decoder options.toJson options := by
  obtain ⟨rootName, rootAlias, injectProperty, mergeRootUnions⟩ := options
  have hname := fills_given (decodes_string bound rootName) "root-name" (.ok "Tsconfig")
  have halias := fills_given
    (decodes_getD_null (decodes_string bound) (fun _ => Value.noConfusion) rootAlias)
    "root-alias" (.ok none)
  have hproperty := fills_given
    (decodes_getD_null (fun p => (InjectedProperty.decodes bound p).mono (Nat.le_succ bound))
      (fun _ => Value.noConfusion) injectProperty)
    "inject-property" (.ok none)
  have hmerge := fills_given (decodes_bool bound mergeRootUnions) "merge-root-unions" (.ok false)
  have hfields := hname.and (halias.and (hproperty.and hmerge (by simp)) (by simp)) (by simp)
  exact (hfields.map _).decodes _

theorem Options.height_toJson_le (options : Options) : options.toJson.height ≤ 2 := by
  obtain ⟨rootName, rootAlias, injectProperty, mergeRootUnions⟩ := options
  cases rootAlias <;> cases injectProperty <;>
    simp [Options.toJson, InjectedProperty.toJson, Value.height, Value.heightOfEntries]

/-! ## Nothing is lost -/

/-- A file that is not nested too deeply is read back from its text, and options always are.
Nothing else is ever read from such a text. -/
theorem ofJson_toJson_iff_and_ofText_toJson_iff :
    (∀ file read : SourceFile, SourceFile.ofJson file.toJson.compact = .ok read ↔
      file.toJson.height < maxDepth ∧ read = file) ∧
    ∀ options read : Options, Options.ofText options.toJson.compact = .ok read ↔
      read = options := by
  constructor
  · intro file read
    have hfile : Decodes 128 (SourceFile.decoder maxDepth) file.toJson file :=
      (file.decodes maxDepth).mono (by decide)
    rw [SourceFile.ofJson, mapError_eq_ok_iff, decodeText_compact hfile (by omega)]
    show _ ↔ file.toJson.height < 127 + 1 ∧ read = file
    rw [Nat.lt_succ_iff]
  · intro options read
    have hoptions := options.decodes 127
    have hheight := options.height_toJson_le
    rw [Options.ofText, mapError_eq_ok_iff, decodeText_compact hoptions (by omega)]
    exact and_iff_right (by omega)

-- an alias is five levels deep, and an array type is one more than its elements
example : (SourceFile.toJson ⟨[.typeAlias ⟨[], [], "A", .array (.keyword .any)⟩], []⟩).height =
    6 := rfl

end Declutter
