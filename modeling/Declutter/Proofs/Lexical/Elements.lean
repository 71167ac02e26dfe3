import Declutter.Syntax.Gap
import Declutter.Syntax.Literal
import Declutter.Verbatim

/-!
# The lexical grammar

`elements` cuts a text into its input elements by the lexical grammar of ECMAScript: white space,
comments, strings, parts of templates, regular expressions, numbers, names and signs. Whether a
slash divides or begins a regular expression is for the syntactic grammar to say, so the cut is
made for every way of saying it. A sign of several characters is cut into these, and a backslash
outside of quotes counts as stray, so that a name written with escapes does too.
-/

namespace Declutter.Lexical

open Syntax (startsWord continuesWord isLineEnd isGapBlank regexLength)
open Verbatim (blockCommentLength)

/-! ## Literals -/

/-- The length of a string behind its opening quote. A backslash takes the next character with it,
the two of a line end as one. -/
def stringLength (quote : Char) : List Char → Option Nat
  | [] => none
  | '\\' :: '\r' :: '\n' :: cs => (stringLength quote cs).map (· + 3)
  | '\\' :: _ :: cs => (stringLength quote cs).map (· + 2)
  | c :: cs =>
    if c = quote then some 1
    else if c = '\n' || c = '\r' then none
    else (stringLength quote cs).map (· + 1)

/-- The length of a part of a template behind the character that it begins with. It ends with the
template or where a substitution begins. -/
def templateLength : List Char → Option Nat
  | [] => none
  | '\\' :: _ :: cs => (templateLength cs).map (· + 2)
  | '\x60' :: _ => some 1
  | '$' :: '\x7b' :: _ => some 2
  | _ :: cs => (templateLength cs).map (· + 1)

/-- Whether a character can stand in the decimal digits of a number. -/
def isDecimal (c : Char) : Bool := c.isDigit || c = '_' || c = '.'

/-- The length of the exponent behind the beginning of a number, if there is one with a sign; one
without a sign is part of the beginning. -/
def exponentLength (beginning behind : List Char) : Nat :=
  if (beginning.getLast? = some 'e' || beginning.getLast? = some 'E') &&
      beginning.dropLast.all isDecimal &&
      (behind.head? = some '+' || behind.head? = some '-') then
    (behind.tail.takeWhile continuesWord).length + 1
  else 0

/-- How far a number goes on behind its beginning without a point. -/
def digitsLength (beginning cs : List Char) : Nat :=
  let digits := cs.takeWhile continuesWord
  digits.length + exponentLength (beginning ++ digits) (cs.dropWhile continuesWord)

/-- The length of a number behind its first character. It goes on as long as a name would, and in
decimal beyond one point. -/
def numberLength (c : Char) (cs : List Char) : Nat :=
  let digits := cs.takeWhile continuesWord
  let behind := cs.dropWhile continuesWord
  if c ≠ '.' && (c :: digits).all isDecimal && behind.head? = some '.' then
    digits.length + 1 + digitsLength [] behind.tail
  else digitsLength [c] cs

/-! ## Elements -/

inductive Kind where
  | blank
  | lineComment
  | blockComment
  | string
  /-- A template or a part of one, with what it begins and ends with. -/
  | template
  | regex
  | number
  | word
  | sign
  /-- A character that begins nothing, or something that does not end. -/
  | stray
  deriving DecidableEq, Repr

/-- A piece of a text. -/
structure Element where
  kind : Kind
  text : List Char
  deriving DecidableEq, Repr

/-- The characters of signs, a slash apart. -/
def signs : List Char :=
  ['\x7b', '\x7d', '(', ')', '[', ']', '.', ';', ',', '<', '>', '=', '!', '?', ':', '&', '|', '^',
    '~', '+', '-', '*', '%', '@', '#']

/-- A literal of a known length behind its first character, or that character if the literal does
not end. -/
def closed (kind : Kind) : Option Nat → Kind × Nat
  | some n => (kind, n)
  | none => (.stray, 0)

/-- What a slash begins, in front of `cs`, and how far it goes on. -/
def scanSlash (divides : Bool) (cs : List Char) : Kind × Nat :=
  match cs with
  | '/' :: cs => (.lineComment, (cs.takeWhile (!isLineEnd ·)).length + 1)
  | '*' :: cs => closed .blockComment ((blockCommentLength cs).map (· + 1))
  | _ =>
    if divides then (.sign, 0)
    else closed .regex ((regexLength false false cs).map fun n =>
      n + 1 + ((cs.drop (n + 1)).takeWhile continuesWord).length)

/-- The kind of what `c` begins, and how far it goes on behind it: a slash `divides` or begins a
regular expression, a brace `continues` a template or not. -/
def scan (divides continues : Bool) (c : Char) (cs : List Char) : Kind × Nat :=
  if isLineEnd c || isGapBlank c then (.blank, 0)
  else if startsWord c then (.word, (cs.takeWhile continuesWord).length)
  else if c.isDigit || (c = '.' && cs.head?.any Char.isDigit) then (.number, numberLength c cs)
  else if c = '"' || c = '\'' then closed .string (stringLength c cs)
  else if c = '\x60' || (c = '\x7d' && continues) then closed .template (templateLength cs)
  else if c = '/' then scanSlash divides cs
  else if c ∈ signs then (.sign, 0)
  else (.stray, 0)

/-- How far a text has been cut. -/
structure State where
  /-- The open braces, the innermost first: whether each begins a substitution of a template. -/
  braces : List Bool
  /-- How many slashes have divided or begun a regular expression. -/
  slashes : Nat

namespace State

def start : State := ⟨[], 0⟩

/-- Whether a closing brace goes on with a template. -/
def continues (state : State) : Bool := state.braces.head? = some true

/-- The state behind an element. -/
def next (state : State) (element : Element) : State :=
  match element.kind with
  | .template =>
    let outer := if element.text.head? = some '\x7d' then state.braces.tail else state.braces
    { state with braces := if element.text.getLast? = some '\x7b' then true :: outer else outer }
  | .sign =>
    if element.text = ['\x7b'] then { state with braces := false :: state.braces }
    else if element.text = ['\x7d'] then { state with braces := state.braces.tail }
    else if element.text = ['/'] then { state with slashes := state.slashes + 1 }
    else state
  | .regex => { state with slashes := state.slashes + 1 }
  | _ => state

end State

variable (divides : Nat → Bool)

/-- The element that `c` begins. -/
def firstElement (state : State) (c : Char) (cs : List Char) : Element :=
  let (kind, length) := scan (divides state.slashes) state.continues c cs
  ⟨kind, c :: cs.take length⟩

/-- The elements of a text of which the first `skip` characters are already part of one. -/
def elementsAfter : (skip : Nat) → State → List Char → List Element
  | _, _, [] => []
  | skip + 1, state, _ :: cs => elementsAfter skip state cs
  | 0, state, c :: cs =>
    let element := firstElement divides state c cs
    element :: elementsAfter (element.text.length - 1) (state.next element) cs

/-- The elements of a text, where `divides` says of every slash that begins no comment whether it
divides. -/
def elements (text : List Char) : List Element := elementsAfter divides 0 .start text

theorem elementsAfter_eq_drop (skip : Nat) (state : State) (cs : List Char) :
    elementsAfter divides skip state cs = elementsAfter divides 0 state (cs.drop skip) := by
  induction cs generalizing skip with
  | nil => cases skip <;> rfl
  | cons c cs ih =>
    cases skip with
    | zero => rfl
    | succ skip => rw [elementsAfter, ih, List.drop_succ_cons]

/-- The elements of a text are the first and those of the text behind it. -/
theorem elementsAfter_cons (state : State) {c : Char} {cs body rest : List Char} {kind : Kind}
    (hscan : scan (divides state.slashes) state.continues c cs = (kind, body.length))
    (hcs : cs = body ++ rest) :
    elementsAfter divides 0 state (c :: cs) =
      ⟨kind, c :: body⟩ :: elementsAfter divides 0 (state.next ⟨kind, c :: body⟩) rest := by
  have hfirst : firstElement divides state c cs = ⟨kind, c :: body⟩ := by
    rw [firstElement, hscan]
    simp only [hcs, List.take_left]
  rw [elementsAfter, hfirst, List.length_cons, Nat.add_sub_cancel, elementsAfter_eq_drop, hcs,
    List.drop_left]

/-- The elements of a text make up the text. -/
theorem text_elementsAfter (skip : Nat) (state : State) (cs : List Char) :
    (elementsAfter divides skip state cs).flatMap Element.text = cs.drop skip := by
  induction cs generalizing state skip with
  | nil => cases skip <;> rfl
  | cons c cs ih =>
    cases skip with
    | succ skip => rw [elementsAfter, ih, List.drop_succ_cons]
    | zero =>
      have hfirst : ∃ n, (firstElement divides state c cs).text = c :: cs.take n := ⟨_, rfl⟩
      obtain ⟨n, hfirst⟩ := hfirst
      have hfront : cs.take n = cs.take (cs.take n).length :=
        List.prefix_iff_eq_take.mp (List.take_prefix n cs)
      have hbehind := List.take_append_drop (cs.take n).length cs
      rw [← hfront] at hbehind
      rw [elementsAfter, List.flatMap_cons, ih, hfirst, List.length_cons, Nat.add_sub_cancel,
        List.cons_append, hbehind, List.drop_zero]

theorem text_elements (text : List Char) :
    (elements divides text).flatMap Element.text = text := by
  rw [elements, text_elementsAfter, List.drop_zero]

end Declutter.Lexical
