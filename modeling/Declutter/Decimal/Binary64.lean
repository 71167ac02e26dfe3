/-!
# Binary64 numbers

A non-negative finite number of the IEEE 754 format with 53 bits of precision, as `m · 2^q`.
`ofRatio` rounds a fraction to the nearest such number, a tie to the even `m`.
-/

namespace Declutter.Decimal

/-- The number `mantissa · 2^exponent`. -/
structure Binary64 where
  mantissa : Nat
  exponent : Int
  deriving DecidableEq, Repr, Inhabited

namespace Binary64

/-- The least exponent, that of the subnormal numbers. -/
def minExponent : Int := -1074

/-- `num / (den · 2^q)`, rounded down, with the remainder and what it is a fraction of. -/
def scaled (num den : Nat) (q : Int) : Nat × Nat × Nat :=
  let n := if q < 0 then num * Nat.pow 2 q.natAbs else num
  let d := if q < 0 then den else den * Nat.pow 2 q.natAbs
  (n / d, n % d, d)

/-- The exponent at which `num / den` has 53 bits in front of the point, or the least one. -/
def exponentOf (num den : Nat) : Int :=
  let guess : Int := (num.log2 : Int) - (den.log2 : Int) - 52
  let q := if (scaled num den guess).1 < Nat.pow 2 52 then guess - 1 else guess
  max q minExponent

/-- The number nearest to `num / den`; none if that is beyond the largest finite number. -/
def ofRatio (num den : Nat) : Option Binary64 :=
  if num = 0 then some ⟨0, minExponent⟩
  else
    let q := exponentOf num den
    let (m, rem, d) := scaled num den q
    let up := 2 * rem > d || (2 * rem = d && m % 2 = 1)
    let m := if up then m + 1 else m
    let (m, q) := if m = Nat.pow 2 53 then (Nat.pow 2 52, q + 1) else (m, q)
    if q > 971 then none else some ⟨m, q⟩

def ofNat? (n : Nat) : Option Binary64 := ofRatio n 1

/-- The number as a fraction. -/
def ratio (x : Binary64) : Nat × Nat :=
  if x.exponent < 0 then (x.mantissa, Nat.pow 2 x.exponent.natAbs)
  else (x.mantissa * Nat.pow 2 x.exponent.natAbs, 1)

def mul (x y : Binary64) : Option Binary64 :=
  let (a, b) := x.ratio
  let (c, d) := y.ratio
  ofRatio (a * c) (b * d)

def div (x y : Binary64) : Option Binary64 :=
  let (a, b) := x.ratio
  let (c, d) := y.ratio
  ofRatio (a * d) (b * c)

end Binary64

end Declutter.Decimal
