import Declutter.Decimal.Binary64

/-!
# Shortest decimal texts

The fewest decimal digits that read back as a binary64 number, and among those the nearest to it,
found by trying one digit, two digits and so on against the interval of fractions that round to
the number. `plain` and `scientific` are two ways to write the digits.
-/

namespace Declutter.Decimal

/-- The number `digits · 10^exponent`. -/
structure Digits where
  digits : Nat
  exponent : Int
  deriving DecidableEq, Repr, Inhabited

/-- `n` in decimal. -/
def natText (n : Nat) : String := String.ofList (Nat.toDigits 10 n)

/-- An integer in decimal, a minus sign in front if it is negative. -/
def intText (n : Int) : String := (if n < 0 then "-" else "") ++ natText n.natAbs

namespace Binary64

/-- How many times `num / den` can be multiplied by ten before it reaches one. -/
def leadingZeros (num den : Nat) : (fuel : Nat) → Nat
  | 0 => 0
  | fuel + 1 => if num < den then leadingZeros (num * 10) den fuel + 1 else 0

/-- The power of ten of the leading digit of `num / den`. -/
def leadingPower (num den : Nat) : Int :=
  if num < den then -(leadingZeros num den 400 : Int)
  else ((Nat.toDigits 10 (num / den)).length : Int) - 1

/-- Whether `a / b` rounds to the number. -/
def readsBack (x : Binary64) (a b : Nat) : Bool := ofRatio a b = some x

/-- `n · 10^k` as a fraction. -/
def decimalRatio (n : Nat) (k : Int) : Nat × Nat :=
  if k < 0 then (n, Nat.pow 10 k.natAbs) else (n * Nat.pow 10 k.natAbs, 1)

/-- The distance of two fractions, over the product of their denominators. -/
def distance (a b c d : Nat) : Nat := if a * d < c * b then c * b - a * d else a * d - c * b

/-- The nearest of the two neighbours of the number with last digit at `10^k` that reads back. -/
def neighbour? (x : Binary64) (k : Int) : Option Nat :=
  let (num, den) := x.ratio
  let (a, b) := decimalRatio 1 k
  let low := num * b / (den * a)
  let reads n := let (c, d) := decimalRatio n k; x.readsBack c d
  let dist n := let (c, d) := decimalRatio n k; distance num den c d
  match reads low, reads (low + 1) with
  | true, true => some (if dist low ≤ dist (low + 1) then low else low + 1)
  | true, false => some low
  | false, true => some (low + 1)
  | false, false => none

/-- The digits of a number whose leading digit stands at `10^top`, tried from `count` digits on. -/
def searchDigits (x : Binary64) (top : Int) : (fuel count : Nat) → Digits
  | 0, _ => ⟨0, 0⟩
  | fuel + 1, count =>
    let k := top + 1 - count
    match x.neighbour? k with
    | some n => ⟨n, k⟩
    | none => searchDigits x top fuel (count + 1)

/-- Digits without zeros at their end. -/
def dropZeros : (fuel : Nat) → Digits → Digits
  | 0, d => d
  | fuel + 1, d =>
    if d.digits ≠ 0 && d.digits % 10 = 0 then dropZeros fuel ⟨d.digits / 10, d.exponent + 1⟩
    else d

/-- The shortest digits that read back. -/
def shortest (x : Binary64) : Digits :=
  if x.mantissa = 0 then ⟨0, 0⟩
  else
    let (num, den) := x.ratio
    dropZeros 400 (x.searchDigits (leadingPower num den) 18 1)

end Binary64

namespace Digits

def zeros (n : Nat) : String := String.ofList (List.replicate n '0')

/-- Without an exponent: all zeros are written out, and an integer has no point. -/
def plain (d : Digits) : String :=
  let text := natText d.digits
  if d.digits = 0 then "0"
  else if 0 ≤ d.exponent then text ++ zeros d.exponent.natAbs
  else
    let places := d.exponent.natAbs
    let padded := zeros (places + 1 - text.length) ++ text
    let cs := padded.toList
    String.ofList (cs.take (cs.length - places)) ++ "." ++
      String.ofList (cs.drop (cs.length - places))

/-- With a point or an exponent always: positional from `10^-5` up to sixteen digits, with `.0`
for an integer, and with an exponent elsewhere. -/
def scientific (d : Digits) : String :=
  let text := natText d.digits
  let point : Int := text.length + d.exponent
  if d.digits = 0 then "0.0"
  else if 0 ≤ d.exponent && point ≤ 16 then text ++ zeros d.exponent.natAbs ++ ".0"
  else if -5 < point && point ≤ 16 then d.plain
  else
    let exponent := "e" ++ intText (point - 1)
    match text.toList with
    | [c] => String.ofList [c] ++ exponent
    | c :: cs => String.ofList (c :: '.' :: cs) ++ exponent
    | [] => exponent

end Digits

end Declutter.Decimal
