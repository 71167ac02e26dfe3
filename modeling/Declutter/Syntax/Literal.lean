import Declutter.Syntax.Numeral

/-!
# Words, strings, templates and regular expressions

Each is read character by character; an escape is one step of several characters.
-/

namespace Declutter.Syntax

/-! ## Words -/

/-- A word as it has been read so far. -/
structure Word where
  value : List Char
  length : Nat
  isEscaped : Bool
  faults : List Fault
  /-- What stops the reading. -/
  bad : Option Fault
  deriving Repr, Inhabited

namespace Word

def empty : Word := ⟨[], 0, false, [], none⟩

/-- Reads a word of which the first `skip` characters belong to an escape already read. -/
def scan : (skip offset : Nat) → List Char → Word
  | _, _, [] => empty
  | skip + 1, offset, c :: cs =>
    let word := scan skip (offset + c.utf8Size) cs
    { word with length := word.length + 1 }
  | 0, offset, c :: cs =>
    if c = '\\' then
      match cs with
      | 'u' :: behind =>
        match Escape.ofUnicode offset behind with
        | .chars value length faults =>
          let word := scan length (offset + 1) cs
          let valid := (value.head?.map continuesWord).getD true
          { word with
            value := value ++ word.value
            length := word.length + 1
            isEscaped := true
            faults := faults ++ (if valid then [] else [⟨.invalidIdentifierCharacter, offset⟩]) ++
              word.faults }
        | .bad cause length faults =>
          { empty with
            length := length + 1, isEscaped := true, faults
            bad := some ⟨cause, offset + 1 + length⟩ }
      | _ =>
        { empty with length := 1, isEscaped := true, bad := some ⟨.expectedUnicodeEscape, offset⟩ }
    else if continuesWord c then
      let word := scan 0 (offset + c.utf8Size) cs
      { word with value := c :: word.value, length := word.length + 1 }
    else empty

/-- The token of a word, which is a keyword only if it is written without escapes. -/
def ofText (offset : Nat) (cs : List Char) : Scan :=
  let word := scan 0 offset cs
  let text := String.ofList word.value
  let isReserved := keywords.contains text
  match word.bad with
  | some fault => ⟨.malformed fault, word.length, word.faults⟩
  | none =>
    if isReserved && !word.isEscaped then ⟨.keyword text, word.length, word.faults⟩
    else if isReserved && cs.head? ≠ some '\\' then
      ⟨.malformed ⟨.escapedReservedWord text, offset⟩, word.length, word.faults⟩
    else ⟨.name text, word.length, word.faults⟩

end Word

/-! ## Strings -/

/-- A quoted string as it has been read so far. -/
structure Quoted where
  value : List Char
  length : Nat
  isClosed : Bool
  faults : List Fault
  bad : Option Fault
  deriving Repr, Inhabited

namespace Quoted

def stopped : Quoted := ⟨[], 0, false, [], none⟩

/-- Reads a string behind its opening quote; the first `skip` characters belong to an escape
already read. The string stops in front of a line end that is not escaped. -/
def scan (quote : Char) : (skip offset : Nat) → List Char → Quoted
  | _, _, [] => stopped
  | skip + 1, offset, c :: cs =>
    let quoted := scan quote skip (offset + c.utf8Size) cs
    { quoted with length := quoted.length + 1 }
  | 0, offset, c :: cs =>
    if c = quote then { stopped with length := 1, isClosed := true }
    else if c = '\\' then
      match Escape.ofText false offset cs with
      | .chars value length faults =>
        let quoted := scan quote length (offset + 1) cs
        { quoted with
          value := value ++ quoted.value
          length := quoted.length + 1
          faults := faults ++ quoted.faults }
      | .bad cause length faults =>
        { stopped with length := length + 1, faults, bad := some ⟨cause, offset⟩ }
    else if c = '\n' || c = '\r' then stopped
    else
      let quoted := scan quote 0 (offset + c.utf8Size) cs
      { quoted with value := c :: quoted.value, length := quoted.length + 1 }

/-- The token of a string, given its opening quote and the text behind it. The text of a string
that is not closed includes the line end it stops at. -/
def ofText (offset : Nat) (quote : Char) (cs : List Char) : Scan :=
  let quoted := scan quote 0 (offset + 1) cs
  let length := quoted.length + 1
  match quoted.bad with
  | some fault => ⟨.malformed fault, length, quoted.faults⟩
  | none =>
    let written := if quoted.isClosed then length else length + 1
    ⟨.string (String.ofList quoted.value) (String.ofList ((quote :: cs).take written)), length,
      if quoted.isClosed then quoted.faults
      else quoted.faults ++ [⟨.unterminatedString, offset⟩]⟩

end Quoted

/-! ## Templates -/

/-- A literal part of a template as it has been read so far. -/
structure TemplatePart where
  length : Nat
  isClosed : Bool
  hasBreak : Bool
  faults : List Fault
  /-- The last bad escape. -/
  bad : Option Fault
  deriving Repr, Inhabited

namespace TemplatePart

/-- Reads a part up to a substitution or the end of the template; the first `skip` characters
belong to an escape already read. -/
def scan : (skip offset : Nat) → List Char → TemplatePart
  | _, _, [] => ⟨0, false, false, [], none⟩
  | skip + 1, offset, c :: cs =>
    let part := scan skip (offset + c.utf8Size) cs
    { part with length := part.length + 1 }
  | 0, offset, c :: cs =>
    if c = '\x60' || (c = '$' && cs.head? = some '\x7b') then ⟨0, true, false, [], none⟩
    else if c = '\\' then
      match Escape.ofText true offset cs with
      | .chars _ length faults =>
        let part := scan length (offset + 1) cs
        { part with length := part.length + 1, faults := faults ++ part.faults }
      | .bad cause length faults =>
        let part := scan length (offset + 1) cs
        { part with
          length := part.length + 1
          faults := faults ++ part.faults
          bad := some (part.bad.getD ⟨cause, offset⟩) }
    else
      let part := scan 0 (offset + c.utf8Size) cs
      { part with length := part.length + 1, hasBreak := part.hasBreak || isLineEnd c }

end TemplatePart

/-! ## Regular expressions -/

/-- How many characters the body of a regular expression has, if it is closed. -/
def regexLength (inClass escaped : Bool) : List Char → Option Nat
  | [] => none
  | c :: cs =>
    if isLineEnd c then none
    else if escaped then (regexLength inClass false cs).map (· + 1)
    else if c = '/' && !inClass then some 0
    else
      (regexLength ((inClass || c = '[') && c != ']') (c = '\\') cs).map (· + 1)

/-- The token of a regular expression, given the text behind its opening slash. -/
def regexOfText (offset : Nat) (cs : List Char) : Scan :=
  match regexLength false false cs with
  | none =>
    ⟨.malformed ⟨.unterminatedRegex, offset⟩, 1 + (cs.takeWhile (!isLineEnd ·)).length, []⟩
  | some length =>
    let behind := cs.drop (length + 1)
    let flags := if (behind.head?.map startsWord).getD false
      then Word.scan 0 (offset + length + 2) behind else Word.empty
    ⟨.regex (String.ofList (cs.take length)) (String.ofList flags.value),
      length + 2 + flags.length, flags.faults⟩

end Declutter.Syntax
