import Declutter.Syntax.Cursor
import Declutter.Syntax.Fault

/-!
# Escapes and digits

Digits of a radix, with separators between them, and what a backslash stands for in a string, a
template or a word.
-/

namespace Declutter.Syntax

/-- The value of a character as a digit. -/
def digitValue? (radix : Nat) (c : Char) : Option Nat :=
  let value :=
    if c.isDigit then some (c.toNat - 48)
    else if 'a' ≤ c && c ≤ 'z' then some (c.toNat - 87)
    else if 'A' ≤ c && c ≤ 'Z' then some (c.toNat - 55)
    else none
  value.filter (· < radix)

/-- A run of digits. -/
structure Digits where
  values : List Nat
  /-- How many characters the run has, separators included. -/
  length : Nat
  /-- How many separators do not stand between two digits. -/
  misplaced : Nat
  deriving DecidableEq, Repr, Inhabited

namespace Digits

def add (value : Nat) (digits : Digits) : Digits :=
  { digits with values := value :: digits.values, length := digits.length + 1 }

/-- Reads at most `limit` digits; `behindDigit` says whether a digit stands in front of the text. -/
def scan (radix : Nat) (limit : Option Nat) (behindDigit : Bool) : List Char → Digits
  | [] => ⟨[], 0, 0⟩
  | c :: cs =>
    if limit = some 0 then ⟨[], 0, 0⟩
    else if c = '_' then
      let isBetween := behindDigit && (cs.head?.bind (digitValue? radix)).isSome
      let digits := scan radix limit false cs
      { digits with
        length := digits.length + 1
        misplaced := digits.misplaced + (if isBetween then 0 else 1) }
    else
      match digitValue? radix c with
      | some value => (scan radix (limit.map (· - 1)) true cs).add value
      | none => ⟨[], 0, 0⟩

/-- The digits at the front of a text, as many as there are. -/
def ofText (radix : Nat) (cs : List Char) : Digits := scan radix none false cs

/-- The faults of the separators in digits that begin at a place. -/
def faults (digits : Digits) (place : Nat) : List Fault :=
  List.replicate digits.misplaced ⟨.misplacedSeparator, place⟩

/-- The number that digits stand for. -/
def value (radix : Nat) (digits : Digits) : Nat :=
  digits.values.foldl (fun total d => total * radix + d) 0

end Digits

/-- What stands behind a backslash. -/
inductive Escape where
  /-- The characters it stands for, how many characters it is written with, and faults that do
  not stop the reading. -/
  | chars (value : List Char) (length : Nat) (faults : List Fault)
  /-- A cause, how many characters have been read when it is found, and faults found before. -/
  | bad (cause : Cause) (length : Nat) (faults : List Fault)
  deriving DecidableEq, Repr, Inhabited

namespace Escape

/-- The text of an escape that names half of a surrogate pair, which stands for itself. -/
def surrogateText (curly : Bool) (cs : List Char) : List Char :=
  if curly then
    ['\\', 'u', '\x7b'] ++ (cs.take 6).takeWhile (· ≠ '\x7d') ++ ['\x7d']
  else ['\\', 'u'] ++ cs.take 4

/-- A Unicode escape behind its `u`. Its backslash lies at `offset`. -/
def ofUnicode (offset : Nat) (cs : List Char) : Escape :=
  match cs with
  | '\x7b' :: cs =>
    let digits := Digits.ofText 16 cs
    let value := digits.value 16
    let faults := digits.faults (offset + 3)
    if digits.values.isEmpty || Nat.pow 2 32 ≤ value then
      .bad (.badEscape "1-6 hex characters") (digits.length + 2) faults
    else if 0x10ffff < value then
      .bad (.badEscape "1-6 hex characters in the range 0 to 10FFFF.") (digits.length + 2) faults
    else
      let isScalar := value < 0xd800 || 0xdfff < value
      let length := if isScalar then digits.length
        else ((cs.take 6).takeWhile (· ≠ '\x7d')).length
      if (cs.drop length).head? = some '\x7d' then
        .chars (if isScalar then [Char.ofNat value] else surrogateText true cs) (length + 3) faults
      else .bad .invalidUnicodeEscape (length + 2) faults
  | cs =>
    let digits := Digits.scan 16 (some 4) false cs
    let faults := digits.faults (offset + 2)
    if digits.values.length < 4 then .bad (.badEscape "4 hex characters") (digits.length + 1) faults
    else
      let value := digits.value 16
      let isScalar := value < 0xd800 || 0xdfff < value
      .chars (if isScalar then [Char.ofNat value] else surrogateText false cs)
        (if isScalar then digits.length + 1 else 5) faults

/-- An octal escape, given its first digit. A number above 255 ends before its last digit. -/
def ofOctal (offset : Nat) (first : Nat) (cs : List Char) : Escape :=
  let fault : List Fault := [⟨.legacyOctal, offset⟩]
  match cs.head?.bind (digitValue? 8) with
  | none => .chars [Char.ofNat first] 1 fault
  | some second =>
    let value := first * 8 + second
    match (cs.drop 1).head?.bind (digitValue? 8) with
    | none => .chars [Char.ofNat value] 2 fault
    | some third =>
      if value * 8 + third < 256 then .chars [Char.ofNat (value * 8 + third)] 3 fault
      else .chars [Char.ofNat value] 2 fault

/-- What stands behind a backslash at `offset`. -/
def ofText (inTemplate : Bool) (offset : Nat) : List Char → Escape
  | [] => .bad .invalidStringEscape 0 []
  | 'n' :: _ => .chars ['\n'] 1 []
  | 'r' :: _ => .chars ['\r'] 1 []
  | 't' :: _ => .chars ['\t'] 1 []
  | 'b' :: _ => .chars ['\x08'] 1 []
  | 'v' :: _ => .chars ['\x0b'] 1 []
  | 'f' :: _ => .chars ['\x0c'] 1 []
  | '\r' :: '\n' :: _ => .chars [] 2 []
  | 'x' :: cs =>
    let digits := Digits.scan 16 (some 2) false cs
    let faults := digits.faults (offset + 2)
    if digits.values.length < 2 then .bad (.badEscape "2 hex characters") (digits.length + 1) faults
    else .chars [Char.ofNat (digits.value 16)] (digits.length + 1) faults
  | 'u' :: cs => ofUnicode offset cs
  | c :: cs =>
    if isLineEnd c then .chars [] 1 []
    else
      match digitValue? 8 c with
      | some first =>
        if first = 0 && (cs.head?.bind (digitValue? 8)).isNone then .chars ['\x00'] 1 []
        else if inTemplate then .bad .legacyOctal 1 []
        else ofOctal offset first cs
      | none => .chars [c] 1 []

end Escape

end Declutter.Syntax
