import Declutter.Json.Fault

/-!
# Quoted strings in JSON texts

A string is read in two ways. Where its value is wanted, every escape must give characters, so
that a surrogate has to come with its partner; where it is skipped, only its form matters.
-/

namespace Declutter.Json

/-- What can stand behind an opening quote: a string and the text behind it, or a fault, which
can differ between a string that is wanted and one that is skipped. -/
inductive StringScan where
  | string (value : Except Fault (List Char)) (rest : List Char)
  | broken (wanted skipped : Fault)

namespace StringScan

def unterminated : String := "EOF while parsing a string"

def invalidEscape : String := "invalid escape"

def loneSurrogate : String := "lone leading surrogate in hex escape"

def missingSurrogate : String := "unexpected end of hex escape"

def controlCharacter : String := "control character (\\u0000-\\u001F) found while parsing a string"

def hexValue (c : Char) : Option Nat :=
  if c.isDigit then some (c.toNat - 48)
  else if 'a' ≤ c && c ≤ 'f' then some (c.toNat - 87)
  else if 'A' ≤ c && c ≤ 'F' then some (c.toNat - 55)
  else none

/-- The number that four hexadecimal digits give. -/
def hexNumber? (a b c d : Char) : Option Nat := do
  return ((← hexValue a) * 16 + (← hexValue b)) * 256 + (← hexValue c) * 16 + (← hexValue d)

/-- The fault of a text that does not begin with four hexadecimal digits. -/
def hexFault (cs : List Char) : Fault :=
  if Text.byteLength cs < 4 then .here unterminated [] else ⟨invalidEscape, ⟨cs, 4⟩, true⟩

/-- The character of a short escape. -/
def shortEscape : Char → Option Char
  | '"' => some '"'
  | '\\' => some '\\'
  | '/' => some '/'
  | 'b' => some '\x08'
  | 'f' => some '\x0c'
  | 'n' => some '\n'
  | 'r' => some '\r'
  | 't' => some '\t'
  | _ => none

def isHigh (n : Nat) : Bool := 0xd800 ≤ n && n ≤ 0xdbff

def isLow (n : Nat) : Bool := 0xdc00 ≤ n && n ≤ 0xdfff

/-- The character of a pair of surrogates. -/
def pairChar (high low : Nat) : Char :=
  Char.ofNat ((high - 0xd800) * 0x400 + (low - 0xdc00) + 0x10000)

/-- The fault of a leading surrogate that `cs`, the text behind it, gives no partner. -/
def partnerFault : List Char → Fault
  | [] => .here unterminated []
  | ['\\'] => .here unterminated []
  | '\\' :: 'u' :: cs =>
    match cs with
    | a :: b :: c :: d :: rest =>
      match hexNumber? a b c d with
      | some _ => .here loneSurrogate rest
      | none => hexFault cs
    | _ => hexFault cs
  | '\\' :: cs => .next missingSurrogate cs
  | cs => .next missingSurrogate cs

/-- What the front of a string's text stands for. -/
inductive Piece where
  | close
  /-- A character written with `length` characters. -/
  | char (value : Char) (length : Nat)
  /-- An escape of `length` characters that gives no character. -/
  | surrogate (fault : Fault) (length : Nat)
  | broken (wanted skipped : Fault)

/-- The piece that four hexadecimal digits of the number `n` give, with `cs` behind them. -/
def Piece.ofHex (n : Nat) (cs : List Char) : Piece :=
  if isLow n then .surrogate (.here loneSurrogate cs) 6
  else if isHigh n then
    match cs with
    | '\\' :: 'u' :: e :: f :: g :: h :: _ =>
      match hexNumber? e f g h with
      | some low =>
        if isLow low then .char (pairChar n low) 12 else .surrogate (partnerFault cs) 6
      | none => .surrogate (partnerFault cs) 6
    | _ => .surrogate (partnerFault cs) 6
  else .char (Char.ofNat n) 6

/-- The piece behind a backslash. -/
def Piece.ofEscape : List Char → Piece
  | [] => .broken (.here unterminated []) (.here unterminated [])
  | 'u' :: cs =>
    match cs with
    | a :: b :: c :: d :: behind =>
      match hexNumber? a b c d with
      | some n => .ofHex n behind
      | none => .broken (hexFault cs) (hexFault cs)
    | _ => .broken (hexFault cs) (hexFault cs)
  | c :: cs =>
    match shortEscape c with
    | some value => .char value 2
    | none => .broken (.next invalidEscape (c :: cs)) (.next invalidEscape (c :: cs))

/-- The piece in front of `cs`, the text behind `c`. -/
def Piece.ofText (c : Char) (cs : List Char) : Piece :=
  if c = '"' then .close
  else if c = '\\' then .ofEscape cs
  else if c.toNat < 32 then
    .broken (.next controlCharacter (c :: cs)) (.here controlCharacter (c :: cs))
  else .char c 1

/-- Puts a character in front of the string that follows. -/
def cons (c : Char) : StringScan → StringScan
  | .string value rest => .string (value.map (c :: ·)) rest
  | .broken wanted skipped => .broken wanted skipped

/-- A fault that only matters where the string is wanted. -/
def unwanted (fault : Fault) : StringScan → StringScan
  | .string _ rest => .string (.error fault) rest
  | .broken _ skipped => .broken fault skipped

/-- Reads a string of which the first `skip` characters belong to a piece already read. -/
def ofTextAfter : (skip : Nat) → List Char → StringScan
  | _, [] => .broken (.here unterminated []) (.here unterminated [])
  | skip + 1, _ :: cs => ofTextAfter skip cs
  | 0, c :: cs =>
    match Piece.ofText c cs with
    | .close => .string (.ok []) cs
    | .char value length => (ofTextAfter (length - 1) cs).cons value
    | .surrogate fault length => (ofTextAfter (length - 1) cs).unwanted fault
    | .broken wanted skipped => .broken wanted skipped

/-- Reads a string behind its opening quote. -/
def ofText (cs : List Char) : StringScan := ofTextAfter 0 cs

end StringScan

end Declutter.Json
