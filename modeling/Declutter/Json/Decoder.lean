import Declutter.Json.Document
import Declutter.Text.Visible

/-!
# Decoding documents

A decoder turns a document into a value of some type or says what is wrong with it. The decoders
here read strings, booleans, lists, records and variants; those of concrete types are put
together from them.

A document comes from a text or has been taken over as a value. A text is read in order, so the
first fault of either kind wins, lists and objects may not be nested too deeply, and a fault has
a place. A value has its keys in order and no place.
-/

namespace Declutter.Json

inductive Origin where
  | text
  | value
  deriving DecidableEq, Repr, Inhabited

/-- How a document is read. -/
structure Reading where
  origin : Origin
  /-- How deeply lists and objects may be nested in a text, plus one. -/
  depth : Nat
  deriving DecidableEq, Repr, Inhabited

abbrev Decoder (α : Type) := Reading → Document → Except Fault α

/-- What is found where something else is expected. -/
def Document.mismatch (expected : String) (document : Document) : Fault :=
  let unlike (found : String) (rest : List Char) : Fault :=
    .here ("invalid type: " ++ found ++ ", expected " ++ expected) rest
  let extent := document.extent
  match document with
  | .null _ => unlike "null" extent.behind
  | .bool value _ => unlike ("boolean `" ++ Value.boolText value ++ "`") extent.behind
  | .number (.ok value) _ => unlike value.description extent.behind
  | .string (.ok value) _ => unlike ("string " ++ Text.visibleText value) extent.behind
  | .number (.error fault) _ | .string (.error fault) _ => fault
  | .array _ _ _ => unlike "sequence" extent.start
  | .object _ _ _ => unlike "map" extent.start
  | .broken reason _ => reason.wanted

namespace Decoder

variable {α β : Type}

def string : Decoder String
  | _, .string (.ok value) _ => .ok value
  | _, document => .error (document.mismatch "a string")

def bool : Decoder Bool
  | _, .bool value _ => .ok value
  | _, document => .error (document.mismatch "a boolean")

def unit : Decoder Unit
  | _, .null _ => .ok ()
  | _, document => .error (document.mismatch "unit")

/-- What the decoder finds, or nothing for `null`. -/
def nullable (decoder : Decoder α) : Decoder (Option α)
  | _, .null _ => .ok none
  | reading, document => (decoder reading document).map some

def map (f : α → β) (decoder : Decoder α) : Decoder β := fun reading document =>
  (decoder reading document).map f

/-- Goes into a list or object of a text, unless that is too deep. -/
def enter (reading : Reading) (extent : Extent) : Except Fault Reading :=
  match reading.origin with
  | .value => .ok reading
  | .text =>
    if reading.depth ≤ 1 then .error (.next "recursion limit exceeded" extent.start)
    else .ok { reading with depth := reading.depth - 1 }

/-- The break of a list or object, as a fault. -/
def noCut : Option Break → Except Fault Unit
  | none => .ok ()
  | some reason => .error reason.wanted

def listItems (decoder : Decoder α) (reading : Reading) : List Document → Except Fault (List α)
  | [] => .ok []
  | item :: items => do
    let value ← decoder reading item
    return value :: (← listItems decoder reading items)

/-- A list of what the decoder finds. -/
def list (decoder : Decoder α) : Decoder (List α)
  | reading, .array items cut extent => do
    let reading ← enter reading extent
    let values ← (listItems decoder reading items).mapError Fault.settleInList
    noCut cut
    return values
  | _, document => .error (document.mismatch "a sequence")

end Decoder

/-! ## Records -/

/-- A field of a record, read into one of the record's slots. -/
structure Field (slots : Type) where
  name : String
  isFilled : slots → Bool
  read : Decoder (slots → slots)

/-- How a record is read: its fields in order, the empty slots, and what full slots give. Slots
that lack a field that is needed give the field's name. -/
structure Record (α : Type) where
  slots : Type
  empty : slots
  fields : List (Field slots)
  build : slots → Except String α

namespace Record

variable {α β : Type}

def ofField (name : String) (decoder : Decoder α) (absent : Except String α) : Record α where
  slots := Option α
  empty := none
  fields := [⟨name, Option.isSome, decoder.map fun value _ => some value⟩]
  build
    | some value => .ok value
    | none => absent

/-- A field that must be there. -/
def required (name : String) (decoder : Decoder α) : Record α :=
  ofField name decoder (.error name)

/-- A field with a value of its own where it is left out. -/
def optional (name : String) (decoder : Decoder α) (absent : α) : Record α :=
  ofField name decoder (.ok absent)

/-- The fields of both records. -/
def and (a : Record α) (b : Record β) : Record (α × β) where
  slots := a.slots × b.slots
  empty := (a.empty, b.empty)
  fields :=
    (a.fields.map fun f => ⟨f.name, fun s => f.isFilled s.1,
      f.read.map fun fill s => (fill s.1, s.2)⟩) ++
    (b.fields.map fun f => ⟨f.name, fun s => f.isFilled s.2,
      f.read.map fun fill s => (s.1, fill s.2)⟩)
  build := fun s => do return (← a.build s.1, ← b.build s.2)

def map (f : α → β) (a : Record α) : Record β where
  slots := a.slots
  empty := a.empty
  fields := a.fields
  build := fun s => (a.build s).map f

/-- Fills the slots from the entries of an object. Entries of other names are skipped. -/
def fillNamed (record : Record α) (reading : Reading) (filled : record.slots) :
    List Entry → Except Fault record.slots
  | [] => .ok filled
  | ⟨key, behindKey, value⟩ :: entries => do
    let name ← key
    match record.fields.find? (·.name = name) with
    | some field =>
      if field.isFilled filled then
        .error (.unsettled ("duplicate field `" ++ name ++ "`") behindKey)
      else fillNamed record reading ((← field.read reading value) filled) entries
    | none =>
      match value.skipFault? with
      | some fault => .error fault
      | none => fillNamed record reading filled entries

/-- Fills the slots of `fields` from the items of a list, and gives what is left of the items. -/
def fillInOrder {slots : Type} (reading : Reading) (filled : slots) :
    List (Field slots) → List Document → Except Fault (slots × List Document)
  | field :: fields, item :: items => do
    fillInOrder reading ((← field.read reading item) filled) fields items
  | _, items => .ok (filled, items)

/-- Asks for the end of a list behind its last item that was wanted. -/
def expectEnd (rest : List Char) : Except Fault Unit :=
  match skipSpace rest with
  | [] => .error (.next "EOF while parsing a list" [])
  | ']' :: _ => .ok ()
  | ',' :: rest =>
    match skipSpace rest with
    | ']' :: rest => .error (.next "trailing comma" (']' :: rest))
    | rest => .error (.next "trailing characters" rest)
  | rest => .error (.next "trailing characters" rest)

/-- Reads a record from an object, or from a list that has its fields in order. -/
def decoder (record : Record α) (expected : String) : Decoder α
  | reading, .object entries cut extent => do
    let reading ← Decoder.enter reading extent
    let filled ← (record.fillNamed reading record.empty entries).mapError Fault.settleInObject
    Decoder.noCut cut
    (record.build filled).mapError fun name =>
      .here ("missing field `" ++ name ++ "`") extent.behind
  | reading, .array items cut extent => do
    let reading ← Decoder.enter reading extent
    let (filled, left) ←
      (fillInOrder reading record.empty record.fields items).mapError Fault.settleInList
    if items.length < record.fields.length then Decoder.noCut cut
    let value ← (record.build filled).mapError fun name =>
      .here ("invalid length " ++ Decimal.natText (record.fields.findIdx (·.name = name)) ++
        ", expected " ++ expected ++ " with " ++ Decimal.natText record.fields.length ++
        " elements") extent.behind
    match reading.origin with
    | .text =>
      if items.length < record.fields.length then return value
      else
        let last := items[record.fields.length - 1]?
        expectEnd ((last.map (·.extent.behind)).getD extent.behind)
        return value
    | .value =>
      if left.isEmpty then return value
      else
        .error (.here ("invalid length " ++ Decimal.natText items.length ++
          ", expected fewer elements in array") [])
  | _, document => .error (document.mismatch expected)

end Record

/-! ## Variants -/

/-- A variant of a type with several: its name, and how what comes with it is read. -/
structure Variant (α : Type) where
  name : String
  /-- The value, if the name alone is enough. -/
  alone : Option α
  /-- What the variant is, for a message that the name is not enough. -/
  kind : String
  payload : Decoder α

namespace Variant

variable {α : Type}

/-- A variant that is its name. -/
def plain (name : String) (value : α) : Variant α :=
  ⟨name, some value, "unit variant", Decoder.unit.map fun _ => value⟩

/-- A variant that holds one value. -/
def holding (name : String) (decoder : Decoder α) : Variant α :=
  ⟨name, none, "newtype variant", decoder⟩

/-- A variant with fields. -/
def withFields (name typeName : String) (record : Record α) : Variant α :=
  ⟨name, none, "struct variant", fun reading document =>
    match reading.origin, document with
    | .value, .object .. | .text, _ =>
      record.decoder ("struct variant " ++ typeName) reading document
    | .value, _ => .error (document.mismatch "struct variant")⟩

/-- Names between backticks, the last one behind `or` if there are two. -/
def choices : List String → String
  | [a] => "`" ++ a ++ "`"
  | [a, b] => "`" ++ a ++ "` or `" ++ b ++ "`"
  | names => "one of " ++ ", ".intercalate (names.map fun name => "`" ++ name ++ "`")

/-- The variant of a name. -/
def find (variants : List (Variant α)) (name : String) (behind : List Char) :
    Except Fault (Variant α) :=
  match variants.find? (·.name = name) with
  | some variant => .ok variant
  | none =>
    .error (.here ("unknown variant `" ++ name ++ "`, expected " ++
      choices (variants.map (·.name))) behind)

/-- A variant given by its name only. -/
def decodeAlone (variants : List (Variant α)) (name : String) (behind : List Char) :
    Except Fault α := do
  let variant ← find variants name behind
  match variant.alone with
  | some value => return value
  | none => .error (.unsettled ("invalid type: unit variant, expected " ++ variant.kind) behind)

/-- The only entry of an object behind which the object ends. -/
def expectSingle (rest : List Char) : Except Fault Unit :=
  match skipSpace rest with
  | '\x7d' :: _ => .ok ()
  | [] => .error (.here "EOF while parsing an object" [])
  | rest => .error (.here "expected value" rest)

/-- Reads one of several variants: the name of one that is its name, or an object with the name
as its only key. -/
def decoder (variants : List (Variant α)) : Decoder α
  | _, .string (.ok name) extent => decodeAlone variants name extent.behind
  | _, .string (.error fault) _ => .error fault
  | reading, .object entries _ extent =>
    match reading.origin, entries with
    | .value, [⟨key, _, value⟩] => do
      (← find variants (← key) []).payload reading value
    | .value, _ => .error (.here "invalid value: map, expected map with a single key" [])
    | .text, [] => do
      let _ ← Decoder.enter reading extent
      .error ((Document.ofText 1 (extent.start.drop 1)).mismatch "variant identifier")
    | .text, ⟨key, behindKey, value⟩ :: _ => do
      let reading ← Decoder.enter reading extent
      let variant ← find variants (← key) behindKey
      let result ← variant.payload reading value
      expectSingle value.extent.behind
      return result
  | _, .broken reason extent =>
    match extent.start with
    | [] | '"' :: _ => .error reason.wanted
    | start => .error (.next "expected value" start)
  | reading, document =>
    match reading.origin with
    | .value => .error (document.mismatch "string or map")
    | .text => .error (.next "expected value" document.extent.start)

end Variant

/-! ## Whole texts -/

/-- Reads a text that holds one document and nothing behind it. The message of a fault names its
place. -/
def decodeText {α : Type} (decoder : Decoder α) (text : String) : Except String α :=
  let source := text.toList
  let document := Document.parse source
  let result := do
    let value ← decoder ⟨.text, 128⟩ document
    match skipSpace document.extent.behind with
    | [] => return value
    | rest => .error (.next "trailing characters" rest)
  result.mapError (·.message source)

/-- Reads a document that stands for a value. -/
def decodeValue {α : Type} (decoder : Decoder α) (document : Document) : Except String α :=
  (decoder ⟨.value, 0⟩ document.sorted).mapError (·.text)

end Declutter.Json
