import Declutter.Json.Document

/-!
# Texts of values read back

The compact text of a value is read as a document that holds the value part by part
(`ofText_text`), whatever stands behind it. `Value.document` is that document: each part knows the
text that begins with it and the text behind it.

Values with numbers are left out. Nothing that is written here has any.
-/

namespace Declutter.Json

/-! ## Strings -/

namespace StringScan

/-- What has been read as a part of a piece is passed over. -/
theorem ofTextAfter_append (read rest : List Char) :
    ofTextAfter read.length (read ++ rest) = ofText rest := by
  induction read with
  | nil => rfl
  | cons c read ih => rw [List.length_cons, List.cons_append, ofTextAfter, ih]

/-- A character in front of a string, in as many characters as its piece has. -/
theorem ofText_piece {c value : Char} (read : List Char) {rest : List Char}
    (h : Piece.ofText c (read ++ rest) = .char value (read.length + 1)) :
    ofText (c :: (read ++ rest)) = (ofText rest).cons value := by
  rw [ofText, ofTextAfter.eq_def]
  simp only [h, Nat.add_sub_cancel, ofTextAfter_append]

theorem hexNumber?_hexDigit : ∀ n < 32,
    hexNumber? '0' '0' (Text.hexDigit (n / 16)) (Text.hexDigit (n % 16)) = some n := by decide

/-- A control character is no surrogate. -/
theorem ofEscape_hexDigit {n : Nat} (h : n < 32) (rest : List Char) :
    Piece.ofEscape ('u' :: '0' :: '0' :: Text.hexDigit (n / 16) :: Text.hexDigit (n % 16) :: rest) =
      .char (Char.ofNat n) 6 := by
  have hlow : isLow n = false := by simp [isLow]; omega
  have hhigh : isHigh n = false := by simp [isHigh]; omega
  simp [Piece.ofEscape, hexNumber?_hexDigit n h, Piece.ofHex, hlow, hhigh]

/-- A character between quotes is read as itself. -/
theorem ofText_escapeChar (c : Char) (rest : List Char) :
    ofText (Text.escapeChar c ++ rest) = (ofText rest).cons c := by
  have hshort {letter value : Char} (h : Piece.ofEscape (letter :: rest) = .char value 2) :
      ofText (['\\', letter] ++ rest) = (ofText rest).cons value :=
    ofText_piece [letter] h
  have hcode {n : Nat} (h : c.toNat = n) : Char.ofNat n = c := by rw [← h, Char.ofNat_toNat]
  -- the escapes of one letter that are told by the character, then those told by its number
  unfold Text.escapeChar
  iterate 5
    split
    · subst_vars
      exact hshort rfl
  split
  · rename_i h
    rw [← hcode h]
    exact hshort rfl
  split
  · rename_i h
    rw [← hcode h]
    exact hshort rfl
  split
  · rename_i h
    have hescape := ofEscape_hexDigit h rest
    rw [hcode rfl] at hescape
    exact ofText_piece
      ['u', '0', '0', Text.hexDigit (c.toNat / 16), Text.hexDigit (c.toNat % 16)] hescape
  · -- a character that stands for itself
    rename_i hquote hslash _ _ _ _ _ hcontrol
    refine ofText_piece [] ?_
    rw [Piece.ofText, if_neg hquote, if_neg hslash, if_neg hcontrol]
    rfl

/-- A string between quotes is read as itself. -/
theorem ofText_quoted (value rest : List Char) :
    ofText (value.flatMap Text.escapeChar ++ '"' :: rest) = .string (.ok value) rest := by
  induction value with
  | nil => rfl
  | cons c value ih =>
    rw [List.flatMap_cons, List.append_assoc, ofText_escapeChar, ih]
    rfl

end StringScan

/-! ## Values and their documents -/

namespace Value

/-- A string as it is written. -/
def quoted (value : String) : List Char :=
  '"' :: (value.toList.flatMap Text.escapeChar ++ ['"'])

mutual

/-- The characters of a value without blanks. -/
def text : Value → List Char
  | .null => ['n', 'u', 'l', 'l']
  | .bool true => ['t', 'r', 'u', 'e']
  | .bool false => ['f', 'a', 'l', 's', 'e']
  | .number text => text.toList
  | .string value => quoted value
  | .array items => '[' :: (itemsText items ++ [']'])
  | .object entries => '\x7b' :: (entriesText entries ++ ['\x7d'])

/-- The items of a list. -/
def itemsText : List Value → List Char
  | [] => []
  | item :: items => item.text ++ moreItems items

/-- Items behind others. -/
def moreItems : List Value → List Char
  | [] => []
  | item :: items => ',' :: (item.text ++ moreItems items)

/-- The entries of an object. -/
def entriesText : List (String × Value) → List Char
  | [] => []
  | (key, value) :: entries => quoted key ++ ':' :: (value.text ++ moreEntries entries)

/-- Entries behind others. -/
def moreEntries : List (String × Value) → List Char
  | [] => []
  | (key, value) :: entries => ',' :: (quoted key ++ ':' :: (value.text ++ moreEntries entries))

end

mutual

/-- What the text of a value is read as, with `rest` behind it. -/
def document : Value → (rest : List Char) → Document
  | .null, rest => .null ⟨text .null ++ rest, rest⟩
  | .bool value, rest => .bool value ⟨text (.bool value) ++ rest, rest⟩
  | .number text, rest => .ofNumber (text.toList ++ rest)
  | .string value, rest => .string (.ok value) ⟨quoted value ++ rest, rest⟩
  | .array items, rest =>
    .array (documents items (']' :: rest)) none ⟨text (.array items) ++ rest, rest⟩
  | .object entries, rest =>
    .object (entryDocuments entries ('\x7d' :: rest)) none ⟨text (.object entries) ++ rest, rest⟩

/-- What the items of a list are read as, where `rest` stands behind the last one. -/
def documents : List Value → (rest : List Char) → List Document
  | [], _ => []
  | item :: items, rest => item.document (moreItems items ++ rest) :: documents items rest

/-- What the entries of an object are read as, where `rest` stands behind the last one. -/
def entryDocuments : List (String × Value) → (rest : List Char) → List Entry
  | [], _ => []
  | (key, value) :: entries, rest =>
    ⟨.ok key, ':' :: (value.text ++ (moreEntries entries ++ rest)),
      value.document (moreEntries entries ++ rest)⟩ :: entryDocuments entries rest

end

mutual

/-- A value in which no number occurs. -/
def Numberless : Value → Prop
  | .number _ => False
  | .array items => NumberlessItems items
  | .object entries => NumberlessEntries entries
  | _ => True

def NumberlessItems : List Value → Prop
  | [] => True
  | item :: items => item.Numberless ∧ NumberlessItems items

def NumberlessEntries : List (String × Value) → Prop
  | [] => True
  | (_, value) :: entries => value.Numberless ∧ NumberlessEntries entries

end

/-- Behind the document of a value stands what stands behind its text. -/
theorem extent_behind_document {value : Value} (h : value.Numberless) (rest : List Char) :
    (value.document rest).extent.behind = rest := by
  cases value with
  | number => exact absurd h (by simp [Numberless])
  | _ => rfl

/-- No text of a value begins with a blank, and none like the end of a list. -/
theorem exists_text_eq_cons {value : Value} (h : value.Numberless) :
    ∃ c cs, value.text = c :: cs ∧ isSpace c = false ∧ c ≠ ']' := by
  cases value with
  | number => exact absurd h (by simp [Numberless])
  | null => exact ⟨'n', _, rfl, by decide, by decide⟩
  | bool flag =>
    cases flag with
    | true => exact ⟨'t', _, rfl, by decide, by decide⟩
    | false => exact ⟨'f', _, rfl, by decide, by decide⟩
  | string => exact ⟨'"', _, rfl, by decide, by decide⟩
  | array => exact ⟨'[', _, by rw [text], by decide, by decide⟩
  | object => exact ⟨'\x7b', _, by rw [text], by decide, by decide⟩

end Value

/-! ### The compact text -/

/-- What stands between commas, as characters. -/
theorem toList_intercalate_cons (first : String) (others : List String) :
    (",".intercalate (first :: others)).toList =
      first.toList ++ others.flatMap fun other => ',' :: other.toList := by
  induction others generalizing first with
  | nil => simp [String.intercalate_singleton]
  | cons second others ih =>
    rw [String.intercalate_cons_of_ne_nil (List.cons_ne_nil _ _), String.toList_append,
      String.toList_append, ih, List.flatMap_cons, List.append_assoc]
    rfl

theorem toList_quote (value : String) : (Text.quote value).toList = Value.quoted value := by
  rw [Text.quote, String.toList_ofList, Value.quoted, List.cons_append]

namespace Value

mutual

/-- The characters of the compact text of a value. -/
theorem toList_compact : ∀ value : Value, value.compact.toList = value.text
  | .null => by rw [compact, text]; rfl
  | .bool true => by rw [compact, text]; rfl
  | .bool false => by rw [compact, text]; rfl
  | .number _ => by rw [compact, text]
  | .string value => by rw [compact, text, toList_quote]
  | .array [] => by rw [compact, text, compactItems, itemsText]; rfl
  | .array (item :: items) => by
    rw [compact, compactItems, String.toList_append, String.toList_append,
      toList_intercalate_cons, toList_compact item, flatMap_compactItems items, text, itemsText]
    rfl
  | .object [] => by rw [compact, text, compactEntries, entriesText]; rfl
  | .object ((key, value) :: entries) => by
    rw [compact, compactEntries, String.toList_append, String.toList_append,
      toList_intercalate_cons, String.toList_append, String.toList_append, toList_quote,
      toList_compact value, flatMap_compactEntries entries, text, entriesText]
    simp

theorem flatMap_compactItems : ∀ items : List Value,
    (compactItems items).flatMap (fun item => ',' :: item.toList) = moreItems items
  | [] => by rw [compactItems, moreItems, List.flatMap_nil]
  | item :: items => by
    rw [compactItems, moreItems, List.flatMap_cons, toList_compact item,
      flatMap_compactItems items, List.cons_append]

theorem flatMap_compactEntries : ∀ entries : List (String × Value),
    (compactEntries entries).flatMap (fun entry => ',' :: entry.toList) = moreEntries entries
  | [] => by rw [compactEntries, moreEntries, List.flatMap_nil]
  | (key, value) :: entries => by
    rw [compactEntries, moreEntries, List.flatMap_cons, String.toList_append,
      String.toList_append, toList_quote, toList_compact value, flatMap_compactEntries entries]
    simp

end

end Value

theorem skipSpace_cons {c : Char} (h : isSpace c = false) (cs : List Char) :
    skipSpace (c :: cs) = c :: cs := List.dropWhile_cons_of_neg (by simp [h])

/-! ## Reading -/

namespace Document

open Value

/-- A value that is no list and no object is read as a scalar. -/
theorem ofText_scalar (fuel : Nat) {c : Char} (hspace : isSpace c = false) (hlist : c ≠ '[')
    (hobject : c ≠ '\x7b') (cs : List Char) : ofText (fuel + 1) (c :: cs) = ofScalar (c :: cs) := by
  rw [ofText, skipSpace_cons hspace]
  simp [hlist, hobject]

theorem ofText_list (fuel : Nat) (cs : List Char) :
    ofText (fuel + 1) ('[' :: cs) =
      .array (itemsOfText fuel true cs).1 (itemsOfText fuel true cs).2.1
        ⟨'[' :: cs, (itemsOfText fuel true cs).2.2⟩ := by
  rw [ofText, skipSpace_cons (by decide)]
  rfl

theorem ofText_object (fuel : Nat) (cs : List Char) :
    ofText (fuel + 1) ('\x7b' :: cs) =
      .object (entriesOfText fuel true cs).1 (entriesOfText fuel true cs).2.1
        ⟨'\x7b' :: cs, (entriesOfText fuel true cs).2.2⟩ := by
  rw [ofText, skipSpace_cons (by decide)]
  rfl

theorem itemsOfText_end (fuel : Nat) (first : Bool) (rest : List Char) :
    itemsOfText (fuel + 1) first (']' :: rest) = ([], none, rest) := by
  rw [itemsOfText, skipSpace_cons (by decide)]
  rfl

theorem itemsOfText_first (fuel : Nat) {value : Value} (h : value.Numberless) (rest : List Char) :
    itemsOfText (fuel + 1) true (value.text ++ rest) =
      (ofText fuel (value.text ++ rest) ::
        (itemsOfText fuel false (ofText fuel (value.text ++ rest)).extent.behind).1,
          (itemsOfText fuel false (ofText fuel (value.text ++ rest)).extent.behind).2) := by
  obtain ⟨c, cs, htext, hspace, hend⟩ := exists_text_eq_cons h
  rw [htext, List.cons_append, itemsOfText, skipSpace_cons hspace]
  simp

theorem itemsOfText_next (fuel : Nat) {value : Value} (h : value.Numberless) (rest : List Char) :
    itemsOfText (fuel + 1) false (',' :: (value.text ++ rest)) =
      (ofText fuel (value.text ++ rest) ::
        (itemsOfText fuel false (ofText fuel (value.text ++ rest)).extent.behind).1,
          (itemsOfText fuel false (ofText fuel (value.text ++ rest)).extent.behind).2) := by
  obtain ⟨c, cs, htext, hspace, hend⟩ := exists_text_eq_cons h
  rw [htext, List.cons_append, itemsOfText, skipSpace_cons (by decide)]
  simp [skipSpace_cons hspace, hend]

theorem entriesOfText_end (fuel : Nat) (first : Bool) (rest : List Char) :
    entriesOfText (fuel + 1) first ('\x7d' :: rest) = ([], none, rest) := by
  rw [entriesOfText, skipSpace_cons (by decide)]
  rfl

theorem entriesOfText_first (fuel : Nat) (key : String) (cs : List Char) :
    entriesOfText (fuel + 1) true (quoted key ++ cs) = keyOfText fuel (quoted key ++ cs) := by
  rw [quoted, List.cons_append, entriesOfText, skipSpace_cons (by decide)]
  rfl

theorem entriesOfText_next (fuel : Nat) (key : String) (cs : List Char) :
    entriesOfText (fuel + 1) false (',' :: (quoted key ++ cs)) =
      keyOfText fuel (quoted key ++ cs) := by
  rw [quoted, List.cons_append, entriesOfText, skipSpace_cons (by decide)]
  simp [skipSpace_cons (show isSpace '"' = false by decide)]

/-- A string behind its opening quote is read as itself. -/
theorem scan_quoted (value : String) (rest : List Char) :
    StringScan.ofText (value.toList.flatMap Text.escapeChar ++ ['"'] ++ rest) =
      .string (.ok value.toList) rest := by
  rw [List.append_assoc]
  exact StringScan.ofText_quoted value.toList rest

theorem keyOfText_quoted (fuel : Nat) (key : String) (cs : List Char) :
    keyOfText (fuel + 1) (quoted key ++ ':' :: cs) =
      (⟨.ok key, ':' :: cs, ofText fuel cs⟩ ::
        (entriesOfText fuel false (ofText fuel cs).extent.behind).1,
          (entriesOfText fuel false (ofText fuel cs).extent.behind).2) := by
  rw [quoted, List.cons_append, keyOfText, scan_quoted]
  simp [skipSpace_cons (show isSpace ':' = false by decide), Except.map]

mutual

/-- The text of a value is read as its document, whatever stands behind it. Each step of reading
passes at least one character by. -/
theorem ofText_text : ∀ (value : Value) {fuel : Nat} (rest : List Char), value.Numberless →
    value.text.length ≤ fuel → ofText fuel (value.text ++ rest) = value.document rest
  | .null, fuel + 1, rest, _, _ => ofText_scalar fuel (by decide) (by decide) (by decide) _
  | .bool true, fuel + 1, rest, _, _ => ofText_scalar fuel (by decide) (by decide) (by decide) _
  | .bool false, fuel + 1, rest, _, _ => ofText_scalar fuel (by decide) (by decide) (by decide) _
  | .string value, fuel + 1, rest, _, _ => by
    rw [text, document, quoted, List.cons_append,
      ofText_scalar fuel (by decide) (by decide) (by decide)]
    simp only [ofScalar, ofQuoted, scan_quoted, Except.map, String.ofList_toList]
  | .array items, fuel + 1, rest, h, hfuel => by
    have hlength : (itemsText items).length < fuel := by
      simp only [text, List.length_cons, List.length_append, List.length_nil] at hfuel
      omega
    have htext : text (.array items) ++ rest = '[' :: (itemsText items ++ ']' :: rest) := by
      simp [text]
    rw [document, htext, ofText_list, itemsOfText_itemsText items rest h hlength]
  | .object entries, fuel + 1, rest, h, hfuel => by
    have hlength : (entriesText entries).length < fuel := by
      simp only [text, List.length_cons, List.length_append, List.length_nil] at hfuel
      omega
    have htext : text (.object entries) ++ rest =
        '\x7b' :: (entriesText entries ++ '\x7d' :: rest) := by
      simp [text]
    rw [document, htext, ofText_object, entriesOfText_entriesText entries rest h hlength]

/-- The items of a list are read up to its end. -/
theorem itemsOfText_itemsText : ∀ (items : List Value) {fuel : Nat} (rest : List Char),
    NumberlessItems items → (itemsText items).length < fuel →
    itemsOfText fuel true (itemsText items ++ ']' :: rest) =
      (documents items (']' :: rest), none, rest)
  | [], fuel + 1, rest, _, _ => itemsOfText_end fuel true rest
  | item :: items, fuel + 1, rest, h, hfuel => by
    obtain ⟨c, cs, hitem, _⟩ := exists_text_eq_cons h.1
    have hpositive : 0 < item.text.length := by
      rw [hitem]
      exact Nat.succ_pos _
    simp only [itemsText, List.length_append] at hfuel
    rw [itemsText, List.append_assoc, itemsOfText_first fuel h.1,
      ofText_text item _ h.1 (by omega), extent_behind_document h.1,
      itemsOfText_moreItems items rest h.2 (by omega), documents]

/-- Items behind others are read up to the end of the list. -/
theorem itemsOfText_moreItems : ∀ (items : List Value) {fuel : Nat} (rest : List Char),
    NumberlessItems items → (moreItems items).length < fuel →
    itemsOfText fuel false (moreItems items ++ ']' :: rest) =
      (documents items (']' :: rest), none, rest)
  | [], fuel + 1, rest, _, _ => itemsOfText_end fuel false rest
  | item :: items, fuel + 1, rest, h, hfuel => by
    simp only [moreItems, List.length_cons, List.length_append] at hfuel
    rw [moreItems, List.cons_append, List.append_assoc, itemsOfText_next fuel h.1,
      ofText_text item _ h.1 (by omega), extent_behind_document h.1,
      itemsOfText_moreItems items rest h.2 (by omega), documents]

/-- The entries of an object are read up to its end. -/
theorem entriesOfText_entriesText : ∀ (entries : List (String × Value)) {fuel : Nat}
    (rest : List Char), NumberlessEntries entries → (entriesText entries).length < fuel →
    entriesOfText fuel true (entriesText entries ++ '\x7d' :: rest) =
      (entryDocuments entries ('\x7d' :: rest), none, rest)
  | [], fuel + 1, rest, _, _ => entriesOfText_end fuel true rest
  | (key, value) :: entries, fuel + 2, rest, h, hfuel => by
    simp only [entriesText, quoted, List.length_cons, List.length_append] at hfuel
    have htext : entriesText ((key, value) :: entries) ++ '\x7d' :: rest =
        quoted key ++ ':' :: (value.text ++ (moreEntries entries ++ '\x7d' :: rest)) := by
      simp [entriesText]
    rw [htext, entriesOfText_first, keyOfText_quoted, ofText_text value _ h.1 (by omega),
      extent_behind_document h.1, entriesOfText_moreEntries entries rest h.2 (by omega),
      entryDocuments]

/-- Entries behind others are read up to the end of the object. -/
theorem entriesOfText_moreEntries : ∀ (entries : List (String × Value)) {fuel : Nat}
    (rest : List Char), NumberlessEntries entries → (moreEntries entries).length < fuel →
    entriesOfText fuel false (moreEntries entries ++ '\x7d' :: rest) =
      (entryDocuments entries ('\x7d' :: rest), none, rest)
  | [], fuel + 1, rest, _, _ => entriesOfText_end fuel false rest
  | (key, value) :: entries, fuel + 2, rest, h, hfuel => by
    simp only [moreEntries, quoted, List.length_cons, List.length_append] at hfuel
    have htext : moreEntries ((key, value) :: entries) ++ '\x7d' :: rest =
        ',' :: (quoted key ++ ':' :: (value.text ++ (moreEntries entries ++ '\x7d' :: rest))) := by
      simp [moreEntries]
    rw [htext, entriesOfText_next, keyOfText_quoted, ofText_text value _ h.1 (by omega),
      extent_behind_document h.1, entriesOfText_moreEntries entries rest h.2 (by omega),
      entryDocuments]

end

/-- The compact text of a value is read as its document. -/
theorem parse_compact {value : Value} (h : value.Numberless) :
    parse value.compact.toList = value.document [] := by
  have htext := ofText_text value [] h
    (show value.text.length ≤ 3 * value.text.length + 3 by omega)
  rw [List.append_nil] at htext
  rw [parse, value.toList_compact, htext]

end Document

end Declutter.Json
