import Declutter.Decimal.Shortest
import Declutter.Text.Slice

/-!
# Faults in JSON texts

What is wrong with a text, and where. A place is the text that begins there, so reading needs no
counters: `Fault.message` finds line and column by comparing with the whole text.
-/

namespace Declutter.Json

/-- A place in a text: `ahead` bytes behind the beginning of `rest`. -/
structure Spot where
  rest : List Char
  ahead : Nat
  deriving DecidableEq, Repr, Inhabited

/-- Something wrong. A fault that is not `settled` belongs to the list or object it was found in,
and is reported at the end of that, as far as reading gets. -/
structure Fault where
  text : String
  spot : Spot
  settled : Bool
  deriving DecidableEq, Repr, Inhabited

namespace Fault

/-- A fault at the place up to which a text has been read. -/
def here (text : String) (rest : List Char) : Fault := ⟨text, ⟨rest, 0⟩, true⟩

/-- A fault at the next byte. -/
def next (text : String) (rest : List Char) : Fault := ⟨text, ⟨rest, 1⟩, true⟩

/-- A fault that is reported where the enclosing list or object ends. -/
def unsettled (text : String) (rest : List Char) : Fault := ⟨text, ⟨rest, 0⟩, false⟩

end Fault

/-! ## Blanks and ends -/

def isSpace (c : Char) : Bool := c = ' ' || c = '\n' || c = '\t' || c = '\r'

def skipSpace (cs : List Char) : List Char := cs.dropWhile isSpace

/-- Reports an unsettled fault where an object ends, if its end follows. -/
def Fault.settleInObject (fault : Fault) : Fault :=
  if fault.settled then fault
  else .here fault.text <|
    match skipSpace fault.spot.rest with
    | '\x7d' :: rest => rest
    | rest => rest

/-- Reports an unsettled fault where a list ends, or where its next item begins. -/
def Fault.settleInList (fault : Fault) : Fault :=
  if fault.settled then fault
  else .here fault.text <|
    match skipSpace fault.spot.rest with
    | ']' :: rest => rest
    | ',' :: rest => skipSpace rest
    | rest => rest

/-! ## Lines and columns -/

/-- The line of a byte of a text, from one, and how many bytes of that line come before it. -/
def lineColumn (line column : Nat) : (bytes : Nat) → List Char → Nat × Nat
  | _, [] => (line, column)
  | 0, _ :: _ => (line, column)
  | bytes + 1, c :: cs =>
    if c = '\n' then lineColumn (line + 1) 0 bytes cs
    else if bytes + 1 < c.utf8Size then (line, column + (bytes + 1))
    else lineColumn line (column + c.utf8Size) (bytes + 1 - c.utf8Size) cs

/-- The text of a fault with its place in `source`. -/
def Fault.message (source : List Char) (fault : Fault) : String :=
  let offset := Text.byteLength source - Text.byteLength fault.spot.rest + fault.spot.ahead
  let (line, column) := lineColumn 1 0 offset source
  fault.text ++ " at line " ++ Decimal.natText line ++ " column " ++ Decimal.natText column

end Declutter.Json
