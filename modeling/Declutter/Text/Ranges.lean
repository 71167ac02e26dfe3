import Declutter.Text.LetterRanges
import Declutter.Text.NumberRanges
import Declutter.Text.MarkRanges

/-!
# Character classes

Letters and numbers by general category, and the two identifier properties of the ECMAScript
grammar, ID_Start and ID_Continue, given as their differences from the letters.
-/

namespace Declutter.Text

/-- Whether a number lies in one of the ranges, which are in increasing order. -/
def inRanges (n : Nat) : List (Nat × Nat) → Bool
  | [] => false
  | (lo, hi) :: ranges => if n < lo then false else n ≤ hi || inRanges n ranges

/-- The general categories Lu, Ll, Lt, Lm and Lo. -/
def isLetter (c : Char) : Bool := inRanges c.toNat letterRanges

/-- The general categories Nd, Nl and No. -/
def isNumber (c : Char) : Bool := inRanges c.toNat numberRanges

/-- The general category Nl, and the signs that ID_Start has for compatibility. -/
def startExtras : List (Nat × Nat) :=
  [(0x16ee, 0x16f0), (0x1885, 0x1886), (0x2118, 0x2118), (0x212e, 0x212e), (0x2160, 0x2182),
    (0x2185, 0x2188), (0x3007, 0x3007), (0x3021, 0x3029), (0x3038, 0x303a), (0x309b, 0x309c),
    (0xa6e6, 0xa6ef), (0x10140, 0x10174), (0x10341, 0x10341), (0x1034a, 0x1034a),
    (0x103d1, 0x103d5), (0x12400, 0x1246e), (0x16ff4, 0x16ff6)]

/-- The property ID_Start: every letter but the vertical tilde, and a few others. -/
def isIdStart (c : Char) : Bool :=
  (isLetter c && c.toNat != 0x2e2f) || inRanges c.toNat startExtras

/-- The property ID_Continue. -/
def isIdContinue (c : Char) : Bool :=
  isIdStart c || inRanges c.toNat continueRanges

end Declutter.Text
