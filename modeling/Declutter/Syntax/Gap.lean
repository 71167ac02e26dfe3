import Declutter.Syntax.Cursor
import Declutter.Syntax.Token
import Declutter.Text.Blank

/-!
# Gaps between tokens

Blanks, line ends and comments. A block comment that does not end is a fault where it begins.
-/

namespace Declutter.Syntax

/-- A character between tokens that is no line end. -/
def isGapBlank (c : Char) : Bool :=
  !isLineEnd c && (Text.isBlank c || c.toNat = 0xfeff)

/-- What lies in front of a token. -/
structure Gap where
  /-- The comments, in order. -/
  comments : List Comment
  /-- Whether a line ends in the gap or in one of its comments. -/
  hasBreak : Bool
  /-- The place of a comment that does not end. -/
  unterminated : Option Nat
  stop : Cursor
  deriving DecidableEq, Repr, Inhabited

/-- Where in a gap a character stands. -/
inductive GapMode where
  | blank
  | lineComment (start : Nat)
  /-- `star` tells whether a `*` has just been read. -/
  | blockComment (start : Nat) (star : Bool)

namespace Gap

/-- The gap with a line end in front. -/
def withBreak (gap : Gap) : Gap := { gap with hasBreak := true }

def withComment (comment : Comment) (gap : Gap) : Gap :=
  { gap with comments := comment :: gap.comments }

/-- The gap from `offset` on, up to the first character of a token. -/
def scan : GapMode → (offset : Nat) → List Char → Gap
  | .blank, offset, [] => ⟨[], false, none, ⟨[], offset⟩⟩
  | .lineComment start, offset, [] =>
    ⟨[⟨false, ⟨start, offset⟩⟩], false, none, ⟨[], offset⟩⟩
  | .blockComment start _, offset, [] => ⟨[], false, some start, ⟨[], offset⟩⟩
  | .blank, offset, c :: cs =>
    if isLineEnd c then (scan .blank (offset + c.utf8Size) cs).withBreak
    else if isGapBlank c then scan .blank (offset + c.utf8Size) cs
    else
      match c, cs with
      | '/', '/' :: cs => scan (.lineComment offset) (offset + 2) cs
      | '/', '*' :: cs => scan (.blockComment offset false) (offset + 2) cs
      | _, _ => ⟨[], false, none, ⟨c :: cs, offset⟩⟩
  | .lineComment start, offset, c :: cs =>
    if isLineEnd c then
      ((scan .blank (offset + c.utf8Size) cs).withBreak).withComment
        ⟨false, ⟨start, offset⟩⟩
    else scan (.lineComment start) (offset + c.utf8Size) cs
  | .blockComment start star, offset, c :: cs =>
    if star && c = '/' then
      (scan .blank (offset + 1) cs).withComment ⟨true, ⟨start, offset + 1⟩⟩
    else
      let gap := scan (.blockComment start (c = '*')) (offset + c.utf8Size) cs
      if isLineEnd c then gap.withBreak else gap

/-- The gap in front of the token at a cursor. -/
def before (cursor : Cursor) : Gap := scan .blank cursor.offset cursor.rest

/-- The gap behind a cursor that stands in a line comment. -/
def behindLineComment (start : Nat) (cursor : Cursor) : Gap :=
  scan (.lineComment start) cursor.offset cursor.rest

end Gap

end Declutter.Syntax
