import Declutter.Json.Number
import Declutter.Json.Quoted
import Declutter.Json.Value

/-!
# JSON texts as found

A document is what a text holds, faults included: every node knows the text that begins with it
and the text behind it, and a part that cannot be read is a node that says why. So it is for the
reader of a document to decide which faults matter, in the order in which it asks for parts.
-/

namespace Declutter.Json

/-- Where a node stands: the text from its beginning, and the text behind it. -/
structure Extent where
  start : List Char
  behind : List Char
  deriving Inhabited

/-- Why something cannot be read, where it is wanted and where it is skipped. -/
structure Break where
  wanted : Fault
  skipped : Fault
  deriving Inhabited

def Break.both (fault : Fault) : Break := ⟨fault, fault⟩

mutual

inductive Document where
  | null (extent : Extent)
  | bool (value : Bool) (extent : Extent)
  | number (value : Except Fault Number) (extent : Extent)
  | string (value : Except Fault String) (extent : Extent)
  /-- A list, which may break off behind its items. -/
  | array (items : List Document) (cut : Option Break) (extent : Extent)
  /-- An object, which may break off behind its entries. -/
  | object (entries : List Entry) (cut : Option Break) (extent : Extent)
  | broken (reason : Break) (extent : Extent)

/-- A key and its value. A missing colon breaks the value, which then begins nowhere. -/
structure Entry where
  key : Except Fault String
  /-- The text behind the key. -/
  behindKey : List Char
  value : Document

end

instance : Inhabited Document := ⟨.null default⟩

namespace Document

def extent : Document → Extent
  | .null extent | .bool _ extent | .number _ extent | .string _ extent => extent
  | .array _ _ extent | .object _ _ extent | .broken _ extent => extent

/-- A word such as `true`, of which the first letter has been seen. -/
def ofWord (found : Extent → Document) (start : List Char) :
    (expected cs : List Char) → Document
  | [], cs => found ⟨start, cs⟩
  | _ :: _, [] => .broken (.both (.here "EOF while parsing a value" [])) ⟨start, []⟩
  | e :: expected, c :: cs =>
    if c = e then ofWord found start expected cs
    else .broken (.both (.next "expected ident" (c :: cs))) ⟨start, cs⟩

def ofNumber (start : List Char) : Document :=
  match NumberScan.ofText start with
  | .number value rest => .number value ⟨start, rest⟩
  | .broken wanted skipped => .broken ⟨wanted, skipped⟩ ⟨start, []⟩

/-- A string, given the text from its opening quote and the text behind that. -/
def ofQuoted (start cs : List Char) : Document :=
  match StringScan.ofText cs with
  | .string value rest => .string (value.map String.ofList) ⟨start, rest⟩
  | .broken wanted skipped => .broken ⟨wanted, skipped⟩ ⟨start, []⟩

/-- The value in front of a text, if it is no list or object. -/
def ofScalar (start : List Char) : Document :=
  match start with
  | [] => .broken (.both (.next "EOF while parsing a value" [])) ⟨[], []⟩
  | '"' :: cs => ofQuoted start cs
  | 'n' :: cs => ofWord .null start ['u', 'l', 'l'] cs
  | 't' :: cs => ofWord (.bool true) start ['r', 'u', 'e'] cs
  | 'f' :: cs => ofWord (.bool false) start ['a', 'l', 's', 'e'] cs
  | c :: _ =>
    if c = '-' || c.isDigit then ofNumber start
    else .broken (.both (.next "expected value" start)) ⟨start, start⟩

/-- The break of a list or object whose next part begins with none of what may stand there. -/
def cutAt (atEnd otherwise : String) (rest : List Char) : Break :=
  .both (.next (if rest.isEmpty then atEnd else otherwise) rest)

mutual

/-- The value in front of a text, blanks apart. -/
def ofText : (fuel : Nat) → List Char → Document
  | 0, cs => .broken (.both (.here "recursion limit exceeded" cs)) ⟨cs, cs⟩
  | fuel + 1, cs =>
    let start := skipSpace cs
    match start with
    | '[' :: rest =>
      let (items, cut, behind) := itemsOfText fuel true rest
      .array items cut ⟨start, behind⟩
    | '\x7b' :: rest =>
      let (entries, cut, behind) := entriesOfText fuel true rest
      .object entries cut ⟨start, behind⟩
    | _ => ofScalar start

/-- The items of a list from the first or from the next comma on, why it breaks off, and the text
behind it. -/
def itemsOfText : (fuel : Nat) → (first : Bool) → List Char →
    List Document × Option Break × List Char
  | 0, _, cs => ([], none, cs)
  | fuel + 1, first, cs =>
    match skipSpace cs with
    | [] => ([], some (.both (.next "EOF while parsing a list" [])), [])
    | ']' :: rest => ([], none, rest)
    | c :: rest =>
      if first then
        let item := ofText fuel (c :: rest)
        let (items, cut, behind) := itemsOfText fuel false item.extent.behind
        (item :: items, cut, behind)
      else if c = ',' then
        match skipSpace rest with
        | [] => ([], some (.both (.next "EOF while parsing a value" [])), [])
        | ']' :: cs =>
          ([], some ⟨.next "trailing comma" (']' :: cs), .next "expected value" (']' :: cs)⟩, [])
        | next =>
          let item := ofText fuel next
          let (items, cut, behind) := itemsOfText fuel false item.extent.behind
          (item :: items, cut, behind)
      else ([], some (.both (.next "expected `,` or `]`" (c :: rest))), [])

/-- The entries of an object from the first or from the next comma on, why it breaks off, and the
text behind it. -/
def entriesOfText : (fuel : Nat) → (first : Bool) → List Char →
    List Entry × Option Break × List Char
  | 0, _, cs => ([], none, cs)
  | fuel + 1, first, cs =>
    match skipSpace cs with
    | [] => ([], some (.both (.next "EOF while parsing an object" [])), [])
    | '\x7d' :: rest => ([], none, rest)
    | c :: rest =>
      if first then keyOfText fuel (c :: rest)
      else if c = ',' then
        match skipSpace rest with
        | [] =>
          ([], some ⟨.next "EOF while parsing a value" [], .next "EOF while parsing an object" []⟩,
            [])
        | '\x7d' :: cs =>
          ([], some ⟨.next "trailing comma" ('\x7d' :: cs),
            .next "key must be a string" ('\x7d' :: cs)⟩, [])
        | next => keyOfText fuel next
      else ([], some (.both (.next "expected `,` or `\x7d`" (c :: rest))), [])

/-- The entries of an object from the next key on. -/
def keyOfText : (fuel : Nat) → List Char → List Entry × Option Break × List Char
  | 0, cs => ([], none, cs)
  | fuel + 1, cs =>
    match cs with
    | '"' :: rest =>
      match StringScan.ofText rest with
      | .broken wanted skipped => ([], some ⟨wanted, skipped⟩, [])
      | .string key behindKey =>
        let key := key.map String.ofList
        match skipSpace behindKey with
        | ':' :: rest =>
          let value := ofText fuel rest
          let (entries, cut, behind) := entriesOfText fuel false value.extent.behind
          (⟨key, behindKey, value⟩ :: entries, cut, behind)
        | other =>
          let reason := cutAt "EOF while parsing an object" "expected `:`" other
          ([⟨key, behindKey, .broken reason ⟨[], []⟩⟩], none, [])
    | _ => ([], some (.both (.next "key must be a string" cs)), [])

end

/-- The document at the front of a text. A character is read after at most three steps, so the
fuel is enough. -/
def parse (text : List Char) : Document := ofText (3 * text.length + 3) text

/-! ## Skipping -/

mutual

/-- The first fault that matters even where the value is not wanted. -/
def skipFault? : Document → Option Fault
  | .null _ | .bool _ _ | .number _ _ | .string _ _ => none
  | .array items cut _ => skipItems? items <|> cut.map (·.skipped)
  | .object entries cut _ => skipEntries? entries <|> cut.map (·.skipped)
  | .broken reason _ => some reason.skipped

def skipItems? : List Document → Option Fault
  | [] => none
  | item :: items => item.skipFault? <|> skipItems? items

def skipEntries? : List Entry → Option Fault
  | [] => none
  | ⟨_, _, value⟩ :: entries => value.skipFault? <|> skipEntries? entries

end

/-! ## Nesting and order -/

mutual

/-- How deeply lists and objects are nested. -/
def height : Document → Nat
  | .array items _ _ => heightOfItems items + 1
  | .object entries _ _ => heightOfEntries entries + 1
  | _ => 0

def heightOfItems : List Document → Nat
  | [] => 0
  | item :: items => max item.height (heightOfItems items)

def heightOfEntries : List Entry → Nat
  | [] => 0
  | ⟨_, _, value⟩ :: entries => max value.height (heightOfEntries entries)

end

/-- The key of an entry as text. -/
def keyText (entry : Entry) : String :=
  match entry.key with
  | .ok key => key
  | .error _ => ""

/-- The value of the last entry of a key. -/
def find? (entries : List Entry) (key : String) : Option Document :=
  ((entries.filter fun entry => keyText entry = key).getLast?).map (·.value)

/-- Puts an entry in its place among entries in the order of their keys. An entry of the same key
stays instead. -/
def insertEntry (entry : Entry) : List Entry → List Entry
  | [] => [entry]
  | other :: entries =>
    if keyText entry < keyText other then entry :: other :: entries
    else if keyText entry = keyText other then other :: entries
    else other :: insertEntry entry entries

mutual

/-- The document with the entries of every object in the order of their keys, of each key the
last one. -/
def sorted : Document → Document
  | .array items cut extent => .array (sortedItems items) cut extent
  | .object entries cut extent => .object (sortedEntries entries) cut extent
  | document => document

def sortedItems : List Document → List Document
  | [] => []
  | item :: items => item.sorted :: sortedItems items

def sortedEntries : List Entry → List Entry
  | [] => []
  | ⟨key, behindKey, value⟩ :: entries =>
    insertEntry ⟨key, behindKey, value.sorted⟩ (sortedEntries entries)

end

end Document

end Declutter.Json
