import Declutter.Decimal.Shortest
import Declutter.Syntax.Escape
import Declutter.Syntax.Token
import Declutter.Text.Ranges

/-!
# Numerals

Number literals in decimal and in the radixes 2, 8 and 16. A literal ends where no identifier
begins. The value is kept as the text in which messages show it.
-/

namespace Declutter.Syntax

/-- A character that may start a word of a source text. -/
def startsWord (c : Char) : Bool := c = '$' || c = '_' || Text.isIdStart c

/-- A character that may continue a word of a source text. -/
def continuesWord (c : Char) : Bool :=
  startsWord c || Text.isIdContinue c || c.toNat = 0x200c || c.toNat = 0x200d

/-- A token, how many characters it is written with, and faults found in it that do not stop the
reading. -/
structure Scan where
  token : Token
  length : Nat
  faults : List Fault
  deriving DecidableEq, Repr, Inhabited

namespace Numeral

/-- How a message shows a value. -/
def shown (value : Option Decimal.Binary64) : String :=
  match value with
  | some x => x.shortest.plain
  | none => "inf"

/-- The number `digits · 10^power`, where a power far out of range gives infinity or zero. -/
def decimal (digits : Nat) (power : Int) : Option Decimal.Binary64 :=
  if digits = 0 || power < -100000 then Decimal.Binary64.ofNat? 0
  else if 400 < power then none
  else if power < 0 then Decimal.Binary64.ofRatio digits (Nat.pow 10 power.natAbs)
  else Decimal.Binary64.ofNat? (digits * Nat.pow 10 power.natAbs)

/-- Ends a numeral of `length` characters, unless a word begins right behind it. -/
def finish (offset : Nat) (cs : List Char) (length : Nat) (value : String) (faults : List Fault) :
    Scan :=
  match (cs.drop length).head? with
  | some c =>
    if startsWord c then ⟨.malformed ⟨.identifierAfterNumber, offset + length⟩, length, faults⟩
    else ⟨.number value (String.ofList (cs.take length)), length, faults⟩
  | none => ⟨.number value (String.ofList (cs.take length)), length, faults⟩

def bigint (cs : List Char) (radix : Nat) (digits : Digits) (length : Nat) (faults : List Fault) :
    Scan :=
  ⟨.bigint (Decimal.natText (digits.value radix)) (String.ofList (cs.take length)), length, faults⟩

/-- A numeral that begins with `0x` or the like. -/
def ofRadix (radix offset : Nat) (cs : List Char) : Scan :=
  let digits := Digits.ofText radix (cs.drop 2)
  let faults := digits.faults (offset + 2)
  let length := digits.length + 2
  if digits.values.isEmpty then
    ⟨.malformed ⟨.expectedDigit radix, offset + 2⟩, length, faults⟩
  else if (cs.drop length).head? = some 'n' then bigint cs radix digits (length + 1) faults
  else finish offset cs length (shown (Decimal.Binary64.ofNat? (digits.value radix))) faults

/-- The exponent of a numeral, if it has one: its value or what ends the reading, its length, and
other faults found in it. -/
def exponent (offset : Nat) (cs : List Char) : Except Fault Int × Nat × List Fault :=
  match cs with
  | c :: cs =>
    if c = 'e' || c = 'E' then
      let (down, signLength) : Bool × Nat := match cs with
        | '-' :: _ => (true, 1)
        | '+' :: _ => (false, 1)
        | _ => (false, 0)
      let place := offset + 1 + signLength
      let digits := Digits.ofText 10 (cs.drop signLength)
      let value : Int := digits.value 10
      let power : Except Fault Int :=
        if cs.isEmpty then .error ⟨.expectedExponent, place⟩
        else if digits.values.isEmpty then .error ⟨.expectedDigit 10, place⟩
        else .ok (if down then -value else value)
      (power, 1 + signLength + digits.length, digits.faults place)
    else (.ok 0, 0, [])
  | [] => (.ok 0, 0, [])

/-- The rest of a decimal numeral behind its whole part, which takes up `length` characters. -/
def ofFraction (offset : Nat) (cs : List Char) (whole : List Nat) (length : Nat)
    (faults : List Fault) : Scan :=
  let hasPoint := (cs.drop length).head? = some '.'
  let fraction : Digits := if hasPoint then Digits.ofText 10 (cs.drop (length + 1)) else ⟨[], 0, 0⟩
  let reached := if hasPoint then length + 1 + fraction.length else length
  let (power?, more, later) := exponent (offset + reached) (cs.drop reached)
  let faults := faults ++ fraction.faults (offset + length + 1) ++ later
  match power? with
  | .error fault => ⟨.malformed fault, reached + more, faults⟩
  | .ok power =>
    let digits := (whole ++ fraction.values).foldl (fun total d => total * 10 + d) 0
    let value := decimal digits (power - fraction.values.length)
    finish offset cs (reached + more) (shown value) faults

/-- A decimal numeral, or one in the old octal form. -/
def ofDecimal (offset : Nat) (cs : List Char) : Scan :=
  let digits := Digits.ofText 10 cs
  let faults := digits.faults offset
  if (cs.drop digits.length).head? = some 'n' then
    bigint cs 10 digits (digits.length + 1) faults
  else if cs.head? = some '0' && 1 < digits.length then
    if digits.values.any (7 < ·) then
      ofFraction offset cs digits.values digits.length (faults ++ [⟨.legacyDecimal, offset⟩])
    else
      finish offset cs digits.length (shown (Decimal.Binary64.ofNat? (digits.value 8)))
        (faults ++ [⟨.legacyOctalLiteral, offset⟩, ⟨.legacyOctal, offset⟩])
  else ofFraction offset cs digits.values digits.length faults

/-- The numeral at the front of a text that begins with a digit or a point. -/
def ofText (offset : Nat) (cs : List Char) : Scan :=
  match cs with
  | '0' :: c :: _ =>
    if c = 'x' || c = 'X' then ofRadix 16 offset cs
    else if c = 'o' || c = 'O' then ofRadix 8 offset cs
    else if c = 'b' || c = 'B' then ofRadix 2 offset cs
    else ofDecimal offset cs
  | '.' :: _ => ofFraction offset cs [] 0 []
  | _ => ofDecimal offset cs

end Numeral

end Declutter.Syntax
