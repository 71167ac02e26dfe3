import Declutter.Decimal.Shortest
import Declutter.Text.Ranges
import Declutter.Text.VisibleRanges

/-!
# Texts in messages

A message shows a foreign text between quotes, and writes what cannot be seen as an escape.
-/

namespace Declutter.Text

/-- A number in hexadecimal. -/
def hexText (n : Nat) : List Char := Nat.toDigits 16 n

/-- A character of a text that stands between `delimiter`s. -/
def visibleChar (delimiter c : Char) : List Char :=
  if c.toNat = 0 then ['\\', '0']
  else if c = '\t' then ['\\', 't']
  else if c = '\r' then ['\\', 'r']
  else if c = '\n' then ['\\', 'n']
  else if c = '\\' || c = delimiter then ['\\', c]
  else if (0x20 ≤ c.toNat && c.toNat ≤ 0x7e) || inRanges c.toNat visibleRanges then [c]
  else ['\\', 'u', '\x7b'] ++ hexText c.toNat ++ ['\x7d']

/-- A text between double quotes. -/
def visibleText (s : String) : String :=
  String.ofList ('"' :: s.toList.flatMap (visibleChar '"') ++ ['"'])

/-- A character between single quotes. -/
def visibleQuoted (c : Char) : String := String.ofList ('\'' :: visibleChar '\'' c ++ ['\''])

end Declutter.Text
