import Declutter.Text.Ranges

/-!
# Identifiers

A name can be written bare if it is a letter, `_` or `$` followed by letters, numbers, `_` and `$`.
-/

namespace Declutter

/-- A character that may start a bare name. -/
def isWordStart (c : Char) : Bool := c = '_' || c = '$' || Text.isLetter c

/-- A character that may continue a bare name. -/
def isWordPart (c : Char) : Bool := isWordStart c || Text.isNumber c

/-- Whether a text is one word: a start and then parts. -/
def isWord : List Char → Bool
  | [] => false
  | c :: cs => isWordStart c && cs.all isWordPart

/-- Whether a name can be written as a bare identifier. -/
def isIdentifier (name : String) : Bool := isWord name.toList

/-- The first segment of a possibly qualified reference name (`A` for `A.B`). -/
def referenceRoot (name : String) : String :=
  String.ofList (name.toList.takeWhile (· ≠ '.'))

end Declutter
