/-!
# Lines

A line ends at `\n`, which may have one `\r` in front of it; a `\r` elsewhere belongs to its line.
The end of the last line may be missing, so a text that ends in `\n` has no empty line after it.
-/

namespace Declutter.Text

/-- The lines of a text, without their ends. -/
def lines : List Char → List (List Char)
  | [] => []
  | '\n' :: cs => [] :: lines cs
  | '\r' :: '\n' :: cs => [] :: lines cs
  | c :: cs =>
    match lines cs, cs with
    | line :: rest, _ :: _ => (c :: line) :: rest
    | _, _ => [[c]]

end Declutter.Text
