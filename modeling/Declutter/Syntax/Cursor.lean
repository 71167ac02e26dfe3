/-!
# Cursors

A place in a source text: the text from there on, and how many bytes come before it.
-/

namespace Declutter.Syntax

structure Cursor where
  rest : List Char
  offset : Nat
  deriving DecidableEq, Repr, Inhabited

namespace Cursor

/-- The cursor behind the next character. -/
def advance (cursor : Cursor) : Cursor :=
  match cursor.rest with
  | [] => cursor
  | c :: cs => ⟨cs, cursor.offset + c.utf8Size⟩

/-- The cursor behind the next `count` characters. -/
def skip (cursor : Cursor) : (count : Nat) → Cursor
  | 0 => cursor
  | count + 1 => cursor.advance.skip count

/-- The next `count` characters as text. -/
def take (cursor : Cursor) (count : Nat) : String := String.ofList (cursor.rest.take count)

def head? (cursor : Cursor) : Option Char := cursor.rest.head?

end Cursor

/-- Whether a character ends a line. -/
def isLineEnd (c : Char) : Bool :=
  c = '\n' || c = '\r' || c.toNat = 0x2028 || c.toNat = 0x2029

end Declutter.Syntax
