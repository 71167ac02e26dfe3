/-!
# Slices by bytes

A text taken from one place to another, both counted in bytes of UTF-8. Places behind the end are
taken for the end.
-/

namespace Declutter.Text

/-- How many bytes a text has. -/
def byteLength (cs : List Char) : Nat := cs.foldr (fun c length => c.utf8Size + length) 0

/-- The text behind the first `count` bytes. -/
def dropBytes : (count : Nat) → List Char → List Char
  | 0, cs => cs
  | _ + 1, [] => []
  | count + 1, c :: cs => dropBytes (count + 1 - c.utf8Size) cs
  termination_by _ cs => cs.length

/-- The first `count` bytes of a text. -/
def takeBytes : (count : Nat) → List Char → List Char
  | 0, _ => []
  | _ + 1, [] => []
  | count + 1, c :: cs => c :: takeBytes (count + 1 - c.utf8Size) cs
  termination_by _ cs => cs.length

/-- The text from byte `start` to byte `stop`. -/
def slice (cs : List Char) (start stop : Nat) : List Char :=
  takeBytes (stop - start) (dropBytes start cs)

end Declutter.Text
