import Declutter.Json.Fault

/-!
# Numbers in JSON texts

A number without fraction and exponent is an integer as long as it fits 64 bits. Any other is
rounded to binary64 in two steps: its digits as far as they fit 64 bits, and then times or divided
by a power of ten.
-/

namespace Declutter.Json

inductive Number where
  | integer (value : Int)
  | real (negative : Bool) (magnitude : Decimal.Binary64)
  deriving DecidableEq, Repr, Inhabited

/-- A number as messages name it. -/
def Number.description : Number → String
  | .integer value => "integer `" ++ Decimal.intText value ++ "`"
  | .real negative magnitude =>
    "floating point `" ++ (if negative then "-" else "") ++ magnitude.shortest.scientific ++ "`"

/-- What can stand where a number begins: a number and the text behind it, or a fault, which can
differ between a number that is wanted and one that is skipped. A number too large is a fault only
where it is wanted. -/
inductive NumberScan where
  | number (value : Except Fault Number) (rest : List Char)
  | broken (wanted skipped : Fault)

namespace NumberScan

def digitValue (c : Char) : Nat := c.toNat - 48

def maxWord : Nat := Nat.pow 2 64 - 1

/-- Digits as a number, as far as it fits 64 bits, and how many of them are left. -/
def accumulate (total : Nat) : List Char → Nat × Nat
  | [] => (total, 0)
  | c :: cs =>
    if total * 10 + digitValue c ≤ maxWord then accumulate (total * 10 + digitValue c) cs
    else (total, cs.length + 1)

/-- `x · 10^power`, a power beyond 308 in several steps; none if it is too large. -/
def scale (x : Decimal.Binary64) (power : Int) : (fuel : Nat) → Option Decimal.Binary64
  | 0 => some x
  | fuel + 1 => do
    let step ← Decimal.Binary64.ofNat? (Nat.pow 10 (min power.natAbs 308))
    if power.natAbs ≤ 308 then
      if 0 ≤ power then x.mul step else x.div step
    else if x.mantissa = 0 then some x
    else if 0 ≤ power then none
    else scale (← x.div step) (power + 308) fuel

/-- The real number `significand · 10^power`. -/
def realOf (negative : Bool) (significand : Nat) (power : Int) : Option Number := do
  let x ← Decimal.Binary64.ofNat? significand
  return .real negative (← scale x power 8)

def tooLarge (rest : List Char) : Fault := .here "number out of range" rest

/-- A number with fraction digits but no exponent, or neither. -/
def finish (negative : Bool) (whole : List Char) (fraction : Option (List Char))
    (rest : List Char) : NumberScan :=
  let (significand, left) := accumulate 0 whole
  match fraction with
  | none =>
    if left = 0 then
      if !negative then .number (.ok (.integer significand)) rest
      else if 1 ≤ significand && significand ≤ Nat.pow 2 63 then
        .number (.ok (.integer (-significand))) rest
      else .number (((realOf true significand 0).map .ok).getD (.error (tooLarge rest))) rest
    else .number (((realOf negative significand left).map .ok).getD (.error (tooLarge rest))) rest
  | some digits =>
    let (significand, cut) := accumulate significand digits
    let power : Int := left - ((digits.length - cut : Nat) : Int)
    .number (((realOf negative significand power).map .ok).getD (.error (tooLarge rest))) rest

/-- The exponent that digits give, or how many of them are left when it no longer fits 32 bits. -/
def exponentValue (total : Nat) : List Char → Except Nat Nat
  | [] => .ok total
  | c :: cs =>
    if total * 10 + digitValue c < Nat.pow 2 31 then exponentValue (total * 10 + digitValue c) cs
    else .error cs.length

/-- A number with an exponent, given the exponent's digits. -/
def finishExponent (negative : Bool) (whole fraction : List Char) (down : Bool)
    (digits rest : List Char) : NumberScan :=
  let (significand, left) := accumulate 0 whole
  let (significand, cut) := accumulate significand fraction
  let start : Int := left - ((fraction.length - cut : Nat) : Int)
  match exponentValue 0 digits with
  | .ok power =>
    let power := if down then start - power else start + power
    .number (((realOf negative significand power).map .ok).getD (.error (tooLarge rest))) rest
  | .error unread =>
    if significand = 0 || down then
      .number (.ok (.real negative ⟨0, Decimal.Binary64.minExponent⟩)) rest
    else .number (.error (tooLarge (digits.drop (digits.length - unread) ++ rest))) rest

def invalid : String := "invalid number"

def ended : String := "EOF while parsing a value"

/-- The rest of a number behind its `e`. -/
def scanExponent (negative : Bool) (whole fraction cs : List Char) : NumberScan :=
  let (down, cs) := match cs with
    | '+' :: cs => (false, cs)
    | '-' :: cs => (true, cs)
    | cs => (false, cs)
  match cs with
  | [] => .broken (.here ended []) (.here invalid [])
  | c :: _ =>
    if c.isDigit then
      finishExponent negative whole fraction down (cs.takeWhile Char.isDigit)
        (cs.dropWhile Char.isDigit)
    else .broken (.next invalid cs) (.next invalid cs)

def isExponentSign (c : Char) : Bool := c = 'e' || c = 'E'

/-- The rest of a number behind its whole part. -/
def scanFraction (negative : Bool) (whole : List Char) : List Char → NumberScan
  | '.' :: cs =>
    let digits := cs.takeWhile Char.isDigit
    let rest := cs.dropWhile Char.isDigit
    if digits.isEmpty then
      .broken (if rest.isEmpty then .next ended rest else .next invalid rest) (.next invalid rest)
    else
      match rest with
      | c :: behind =>
        if isExponentSign c then scanExponent negative whole digits behind
        else finish negative whole (some digits) rest
      | [] => finish negative whole (some digits) []
  | c :: cs =>
    if isExponentSign c then scanExponent negative whole [] cs
    else finish negative whole none (c :: cs)
  | [] => finish negative whole none []

/-- The number behind a possible sign. -/
def scanWhole (negative : Bool) (cs : List Char) : NumberScan :=
  match cs with
  | [] => .broken (.here ended []) (.here invalid [])
  | '0' :: c :: rest =>
    if c.isDigit then .broken (.next invalid (c :: rest)) (.next invalid (c :: rest))
    else scanFraction negative ['0'] (c :: rest)
  | c :: _ =>
    if c.isDigit then
      scanFraction negative (cs.takeWhile Char.isDigit) (cs.dropWhile Char.isDigit)
    else .broken (.next invalid cs) (.next invalid cs)

/-- The number at the front of a text. -/
def ofText : List Char → NumberScan
  | '-' :: cs => scanWhole true cs
  | cs => scanWhole false cs

end NumberScan

end Declutter.Json
