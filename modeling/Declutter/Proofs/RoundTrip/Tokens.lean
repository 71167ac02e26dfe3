import Declutter.Proofs.RoundTrip.Spelling
import Declutter.Text.Quoted
import Mathlib.Data.List.Basic

/-!
# Texts of tokens

How the words, strings, numerals and signs that a type is printed with are read, in front of the
characters that can stand behind them. Words are of ASCII: there the letters of identifiers and
those of the grammar's words are the same.
-/

namespace Declutter.Syntax

/-! ## Characters of ASCII -/

def isAscii (c : Char) : Bool := c.toNat < 128

/-- What holds of the first characters holds of all of ASCII. -/
theorem forall_isAscii {P : Char → Prop} (h : ∀ n < 128, P (Char.ofNat n)) {c : Char}
    (hc : isAscii c = true) : P c := by
  have hat := h c.toNat (of_decide_eq_true hc)
  rwa [Char.ofNat_toNat] at hat

/-- What is tested of each character of a list holds of all of them. -/
theorem forall_mem_of_all {P : Char → Prop} [DecidablePred P] {cs : List Char}
    (h : cs.all (fun c => decide (P c)) = true) : ∀ c ∈ cs, P c :=
  fun c hc => of_decide_eq_true (List.all_eq_true.mp h c hc)

/-- A character that begins a word begins nothing else. -/
theorem startsWord_of_isWordStart {c : Char} (hc : isAscii c = true) (h : isWordStart c = true) :
    startsWord c = true ∧ isLineEnd c = false ∧ isGapBlank c = false ∧
      ['/', '\x00', '#', '-', '='].contains c = false :=
  forall_isAscii (P := fun c => isWordStart c = true → startsWord c = true ∧
    isLineEnd c = false ∧ isGapBlank c = false ∧ ['/', '\x00', '#', '-', '='].contains c = false)
    (by decide) hc h

theorem continuesWord_of_isWordPart {c : Char} (hc : isAscii c = true) (h : isWordPart c = true) :
    continuesWord c = true ∧ c ≠ '\\' :=
  forall_isAscii (P := fun c => isWordPart c = true → continuesWord c = true ∧ c ≠ '\\')
    (by decide) hc h

/-- The next character is one of these. -/
def StandsBefore (stops behind : List Char) : Prop := ∃ c ∈ stops, ∃ more, behind = c :: more

/-- The characters that can stand behind a word. -/
def wordStops : List Char := [';', ',', ')', ']', '>', '?', ' ', '[', ':', '.', '<']

theorem not_continuesWord_of_mem_wordStops :
    ∀ c ∈ wordStops, continuesWord c = false ∧ c ≠ '\\' := forall_mem_of_all (by decide)

theorem not_doubled {c mark : Char} (h : c ≠ mark) (rest : List Char) :
    ¬[mark, mark] <+: c :: rest := by
  intro hprefix
  obtain ⟨rfl, -⟩ := List.cons_prefix_cons.mp hprefix
  exact h rfl

/-! ## Words -/

/-- A word of ASCII. -/
def isPlainWord (word : String) : Bool := word.toList.all isAscii && isIdentifier word

theorem Word.scan_eq {word behind : List Char} (h : ∀ c ∈ word, continuesWord c = true ∧ c ≠ '\\')
    (hbehind : StandsBefore wordStops behind) (offset : Nat) :
    Word.scan 0 offset (word ++ behind) = ⟨word, word.length, false, [], none⟩ := by
  induction word generalizing offset with
  | nil =>
    obtain ⟨c, hc, more, rfl⟩ := hbehind
    obtain ⟨hends, hslash⟩ := not_continuesWord_of_mem_wordStops c hc
    rw [List.nil_append, Word.scan.eq_def]
    simp only [if_neg hslash, hends, Bool.false_eq_true, if_false]
    rfl
  | cons c word ih =>
    obtain ⟨hpart, hslash⟩ := h c List.mem_cons_self
    have hrest := ih (fun later hmem => h later (List.mem_cons_of_mem _ hmem)) (offset + c.utf8Size)
    rw [List.cons_append, Word.scan.eq_def]
    simp only [if_neg hslash, hpart, if_true, hrest]
    rfl

theorem Scans.word {c : Char} {text behind : List Char}
    (h : isPlainWord (String.ofList (c :: text)) = true) (hbehind : StandsBefore wordStops behind) :
    Scans c text behind (wordToken (String.ofList (c :: text))) := by
  simp only [isPlainWord, isIdentifier, String.toList_ofList, isWord, List.all_cons,
    Bool.and_eq_true, List.all_eq_true] at h
  obtain ⟨⟨hascii, hasciis⟩, hstart, hparts⟩ := h
  obtain ⟨hstarts, hline, hblank, hother⟩ := startsWord_of_isWordStart hascii hstart
  have hpart : isWordPart c = true := by rw [isWordPart, hstart, Bool.true_or]
  have hscan (offset : Nat) : Word.scan 0 offset (c :: text ++ behind) =
      ⟨c :: text, text.length + 1, false, [], none⟩ := by
    refine Word.scan_eq (fun later hmem => ?_) hbehind offset
    rcases List.mem_cons.mp hmem with rfl | hmem
    · exact continuesWord_of_isWordPart hascii hpart
    · exact continuesWord_of_isWordPart (hasciis later hmem) (hparts later hmem)
  simp only [List.contains_cons, List.contains_nil, Bool.or_false, Bool.or_eq_false_iff,
    beq_eq_false_iff_ne] at hother
  obtain ⟨hslash, hnul, hhash, hdash, hequals⟩ := hother
  refine ⟨fun allowed offset => ?_, ?_, ⟨hline, hblank, hslash, hnul, hhash⟩, not_doubled hdash _,
    not_doubled hequals _⟩
  · rw [Lexer.scanToken, if_pos (by rw [hstarts]; simp), Word.ofText, ← List.cons_append, hscan]
    unfold wordToken
    cases keywords.contains (String.ofList (c :: text)) <;> rfl
  · obtain hword | hword := wordToken_cases (String.ofList (c :: text)) <;> rw [hword] <;> rfl

/-! ## Digits -/

namespace Digits

theorem scan_digit {radix value : Nat} {limit : Option Nat} {behindDigit : Bool} {c : Char}
    {cs : List Char} (hlimit : limit ≠ some 0) (hc : c ≠ '_')
    (hvalue : digitValue? radix c = some value) :
    scan radix limit behindDigit (c :: cs) =
      (scan radix (limit.map (· - 1)) true cs).add value := by
  rw [scan, if_neg hlimit, if_neg hc, hvalue]

theorem scan_limit (radix : Nat) (behindDigit : Bool) (cs : List Char) :
    scan radix (some 0) behindDigit cs = ⟨[], 0, 0⟩ := by
  cases cs with
  | nil => rfl
  | cons c cs => rw [scan, if_pos rfl]

end Digits

/-! ## Strings -/

namespace Quoted

/-- A string with a character in front, written with so many. -/
def behind (value : List Char) (length : Nat) (quoted : Quoted) : Quoted :=
  { quoted with value := value ++ quoted.value, length := quoted.length + length }

/-- Characters of an escape are passed by. -/
theorem scan_skip (quote : Char) (escape rest : List Char) (offset : Nat) : ∃ place,
    scan quote escape.length offset (escape ++ rest) =
      (scan quote 0 place rest).behind [] escape.length := by
  induction escape generalizing offset with
  | nil => exact ⟨offset, rfl⟩
  | cons c escape ih =>
    obtain ⟨place, hrest⟩ := ih (offset + c.utf8Size)
    refine ⟨place, ?_⟩
    rw [List.length_cons, List.cons_append, scan, hrest]
    rfl

/-- An escape stands for its characters. -/
theorem scan_escape {escape value rest : List Char} {offset : Nat}
    (h : Escape.ofText false offset (escape ++ rest) = .chars value escape.length []) : ∃ place,
    scan '"' 0 offset ('\\' :: (escape ++ rest)) =
      (scan '"' 0 place rest).behind value (escape.length + 1) := by
  obtain ⟨place, hskip⟩ := scan_skip '"' escape rest (offset + 1)
  refine ⟨place, ?_⟩
  rw [scan.eq_def]
  simp only [h, hskip]
  rfl

theorem digitValue?_hexDigit : ∀ n < 16, digitValue? 16 (Text.hexDigit n) = some n ∧
    Text.hexDigit n ≠ '_' := by decide

/-- Four digits stand for the character of their number. -/
theorem ofText_hexDigit {n : Nat} (hn : n < 32) (rest : List Char) (offset : Nat) :
    Escape.ofText false offset
      ('u' :: '0' :: '0' :: Text.hexDigit (n / 16) :: Text.hexDigit (n % 16) :: rest) =
      .chars [Char.ofNat n] 5 [] := by
  obtain ⟨hhigh, hhighSign⟩ := digitValue?_hexDigit (n / 16) (by omega)
  obtain ⟨hlow, hlowSign⟩ := digitValue?_hexDigit (n % 16) (by omega)
  have hdigits : Digits.scan 16 (some 4) false
      ('0' :: '0' :: Text.hexDigit (n / 16) :: Text.hexDigit (n % 16) :: rest) =
      ⟨[0, 0, n / 16, n % 16], 4, 0⟩ := by
    rw [Digits.scan_digit (by simp) (by decide) (by rfl),
      Digits.scan_digit (by simp) (by decide) (by rfl),
      Digits.scan_digit (by simp) hhighSign hhigh, Digits.scan_digit (by simp) hlowSign hlow]
    exact congrArg (fun digits : Digits => (((digits.add (n % 16)).add (n / 16)).add 0).add 0)
      (Digits.scan_limit 16 true rest)
  have hvalue : Digits.value 16 ⟨[0, 0, n / 16, n % 16], 4, 0⟩ = n := by
    simp only [Digits.value, List.foldl_cons, List.foldl_nil]
    omega
  have hscalar : (decide (n < 0xd800) || decide (0xdfff < n)) = true := by
    rw [decide_eq_true (by omega), Bool.true_or]
  rw [Escape.ofText, Escape.ofUnicode]
  · simp only [hdigits, hvalue, hscalar]
    rfl
  · rintro cs ⟨⟩

/-- A character between quotes is read as itself. -/
theorem scan_escapeChar (c : Char) (rest : List Char) (offset : Nat) : ∃ place,
    scan '"' 0 offset (Text.escapeChar c ++ rest) =
      (scan '"' 0 place rest).behind [c] (Text.escapeChar c).length := by
  have hshort {letter c : Char} (h : Escape.ofText false offset ([letter] ++ rest) =
      .chars [c] 1 []) : ∃ place, scan '"' 0 offset (['\\', letter] ++ rest) =
        (scan '"' 0 place rest).behind [c] 2 := scan_escape h
  have hcode {n : Nat} (h : c.toNat = n) : Char.ofNat n = c := by rw [← h, Char.ofNat_toNat]
  -- the escapes of one letter that are told by the character, then those told by its number
  unfold Text.escapeChar
  iterate 5
    split
    · subst_vars
      exact hshort rfl
  split
  · rename_i h
    rw [← hcode h]
    exact hshort rfl
  split
  · rename_i h
    rw [← hcode h]
    exact hshort rfl
  split
  · rename_i h
    have hescape := ofText_hexDigit h rest offset
    rw [hcode rfl] at hescape
    exact scan_escape hescape
  · -- a character that stands for itself
    rename_i hquote hslash hline hreturn _ _ _ _
    refine ⟨offset + c.utf8Size, ?_⟩
    rw [List.singleton_append, scan.eq_def]
    simp only [if_neg hquote, if_neg hslash, hline, hreturn, decide_false, Bool.or_false,
      Bool.false_eq_true, if_false]
    rfl

theorem scan_quote (value behind : List Char) (offset : Nat) :
    scan '"' 0 offset (value.flatMap Text.escapeChar ++ '"' :: behind) =
      ⟨value, (value.flatMap Text.escapeChar).length + 1, true, [], none⟩ := by
  induction value generalizing offset with
  | nil =>
    rw [List.flatMap_nil, List.nil_append, scan.eq_def]
    rfl
  | cons c value ih =>
    rw [List.flatMap_cons, List.append_assoc]
    obtain ⟨place, hscan⟩ :=
      scan_escapeChar c (value.flatMap Text.escapeChar ++ '"' :: behind) offset
    rw [hscan, ih]
    simp [Quoted.behind]
    omega

end Quoted

/-- A string between quotes is read as itself. -/
theorem Scans.quoted (value : String) (behind : List Char) :
    Scans '"' (value.toList.flatMap Text.escapeChar ++ ['"']) behind
      (.string value (Text.quote value)) := by
  have hstart : startsWord '"' = false := by decide
  have hraw : ('"' :: (value.toList.flatMap Text.escapeChar ++ '"' :: behind)).take
      ((value.toList.flatMap Text.escapeChar).length + 1 + 1) =
        '"' :: value.toList.flatMap Text.escapeChar ++ ['"'] := by
    have hassoc : '"' :: (value.toList.flatMap Text.escapeChar ++ '"' :: behind) =
        ('"' :: value.toList.flatMap Text.escapeChar ++ ['"']) ++ behind := by simp
    rw [hassoc, List.take_left' (by simp)]
  refine ⟨fun allowed offset => ?_, rfl, by decide, by simp, by simp⟩
  rw [List.append_assoc, List.singleton_append, Lexer.scanToken, hstart,
    if_neg (by decide), if_pos (by decide), Quoted.ofText, Quoted.scan_quote]
  simp only [if_true, hraw, String.ofList_toList, List.length_append, List.length_singleton]
  rfl

/-! ## Numerals -/

/-- The characters that can stand behind a type. -/
def typeStops : List Char := [';', ',', ')', ']', '>', '?', ' ', '[']

/-- The digits of a decimal integer, with no zero in front. -/
def isNumeral : List Char → Bool
  | [] => false
  | c :: cs => c.isDigit && cs.all Char.isDigit && (c ≠ '0' || cs.isEmpty)

theorem isAscii_of_isDigit {c : Char} (h : c.isDigit = true) : isAscii c = true := by
  simp only [Char.isDigit, Bool.and_eq_true, decide_eq_true_eq, UInt32.le_iff_toNat_le] at h
  have hle : c.toNat ≤ 57 := h.2
  exact decide_eq_true (by omega)

/-- A digit begins a numeral and nothing else. -/
theorem startsWord_of_isDigit {c : Char} (h : c.isDigit = true) :
    (startsWord c || c = '\\') = false ∧ (c = '"' || c = '\'') = false ∧ isLineEnd c = false ∧
      isGapBlank c = false ∧ ['/', '\x00', '#', '-', '=', '.', '_'].contains c = false ∧
      (digitValue? 10 c).isSome :=
  forall_isAscii (P := fun c => c.isDigit = true → (startsWord c || c = '\\') = false ∧
    (c = '"' || c = '\'') = false ∧ isLineEnd c = false ∧ isGapBlank c = false ∧
    ['/', '\x00', '#', '-', '=', '.', '_'].contains c = false ∧ (digitValue? 10 c).isSome)
    (by decide) (isAscii_of_isDigit h) h

theorem stops_numeral : ∀ c ∈ typeStops, digitValue? 10 c = none ∧ startsWord c = false ∧
    ['_', 'n', '.', 'e', 'E', 'x', 'X', 'o', 'O', 'b', 'B'].contains c = false :=
  forall_mem_of_all (by decide)

theorem Digits.scan_eq {text behind : List Char} (h : ∀ c ∈ text, c.isDigit = true)
    (hbehind : StandsBefore typeStops behind) (behindDigit : Bool) : ∃ values,
    Digits.scan 10 none behindDigit (text ++ behind) = ⟨values, text.length, 0⟩ := by
  induction text generalizing behindDigit with
  | nil =>
    obtain ⟨c, hc, more, rfl⟩ := hbehind
    obtain ⟨hvalue, -, hother⟩ := stops_numeral c hc
    have hsign : c ≠ '_' := by
      rintro rfl
      simp at hother
    refine ⟨[], ?_⟩
    rw [List.nil_append, scan, if_neg (by simp), if_neg hsign, hvalue]
    rfl
  | cons c text ih =>
    obtain ⟨-, -, -, -, hother, hdigit⟩ := startsWord_of_isDigit (h c List.mem_cons_self)
    obtain ⟨values, hscan⟩ := ih (fun later hmem => h later (List.mem_cons_of_mem _ hmem)) true
    obtain ⟨value, hvalue⟩ := Option.isSome_iff_exists.mp hdigit
    have hsign : c ≠ '_' := by
      rintro rfl
      simp at hother
    refine ⟨value :: values, ?_⟩
    rw [List.cons_append, Digits.scan_digit (by simp) hsign hvalue, Option.map_none, hscan]
    rfl

namespace Numeral

/-- How messages show an integer of these digits. -/
def shownDigits (values : List Nat) : String :=
  shown (decimal (values.foldl (fun total digit => total * 10 + digit) 0) 0)

/-- An integer has neither a fraction nor an exponent behind its digits. -/
theorem ofFraction_eq (digits : List Char) {behind : List Char}
    (hbehind : StandsBefore typeStops behind) (values : List Nat) (offset : Nat) :
    ofFraction offset (digits ++ behind) values digits.length [] =
      ⟨.number (shownDigits values) (String.ofList digits), digits.length, []⟩ := by
  obtain ⟨d, hd, more, rfl⟩ := hbehind
  obtain ⟨-, hends, hstop⟩ := stops_numeral d hd
  simp only [List.contains_cons, List.contains_nil, Bool.or_false, Bool.or_eq_false_iff,
    beq_eq_false_iff_ne] at hstop
  obtain ⟨-, -, hpoint, hexponent, hExponent, -⟩ := hstop
  have hdrop : (digits ++ d :: more).drop digits.length = d :: more := List.drop_left
  have htake : (digits ++ d :: more).take digits.length = digits := List.take_left
  have hnone (place : Nat) : exponent place (d :: more) = (.ok 0, 0, []) := by
    rw [exponent.eq_def]
    simp [hexponent, hExponent]
  unfold ofFraction
  simp only [hdrop, List.head?_cons, Option.some.injEq, hpoint, Bool.false_eq_true,
    if_false, hnone, finish, Nat.add_zero, hends, htake]
  simp only [List.append_nil]
  rfl

theorem ofDecimal_eq {c : Char} {text behind : List Char} (h : isNumeral (c :: text) = true)
    (hbehind : StandsBefore typeStops behind) : ∃ values, ∀ offset,
    ofDecimal offset (c :: text ++ behind) =
      ⟨.number (shownDigits values) (String.ofList (c :: text)), (c :: text).length, []⟩ := by
  simp only [isNumeral, Bool.and_eq_true, List.all_eq_true, Bool.or_eq_true, decide_eq_true_eq,
    List.isEmpty_iff] at h
  obtain ⟨⟨hdigit, hdigits⟩, hzero⟩ := h
  obtain ⟨values, hscan⟩ :=
    Digits.scan_eq (List.forall_mem_cons.mpr ⟨hdigit, hdigits⟩) hbehind false
  refine ⟨values, fun offset => ?_⟩
  have hfraction := ofFraction_eq (c :: text) hbehind values offset
  obtain ⟨d, hd, more, rfl⟩ := hbehind
  have hbigint : d ≠ 'n' := by
    rintro rfl
    revert hd
    decide
  have hdrop : (c :: text ++ d :: more).drop (c :: text).length = d :: more := List.drop_left
  have hoctal : ¬(((c :: text ++ d :: more).head? = some '0' &&
      decide (1 < (c :: text).length)) = true) := by
    rcases hzero with hzero | rfl <;> simp [*]
  unfold ofDecimal Digits.ofText
  simp only [hscan, hdrop, List.head?_cons, Option.some.injEq, if_neg hbigint]
  rw [if_neg hoctal]
  exact hfraction

/-- No radix but ten is named by what stands behind a zero. -/
theorem ofText_eq {c : Char} {text behind : List Char} (h : isNumeral (c :: text) = true)
    (hbehind : StandsBefore typeStops behind) (offset : Nat) :
    ofText offset (c :: text ++ behind) = ofDecimal offset (c :: text ++ behind) := by
  simp only [isNumeral, Bool.and_eq_true, Bool.or_eq_true, decide_eq_true_eq,
    List.isEmpty_iff] at h
  obtain ⟨⟨hdigit, -⟩, hzero⟩ := h
  unfold ofText
  split
  · rename_i next more heq
    obtain ⟨rfl, hnext⟩ := List.cons.inj heq
    obtain rfl : text = [] := hzero.resolve_left fun h => h rfl
    obtain ⟨d, hd, later, rfl⟩ := hbehind
    obtain ⟨rfl, -⟩ := List.cons.inj hnext
    obtain ⟨-, -, hstop⟩ := stops_numeral d hd
    simp only [List.contains_cons, List.contains_nil, Bool.or_false, Bool.or_eq_false_iff,
      beq_eq_false_iff_ne] at hstop
    obtain ⟨-, -, -, -, -, hx, hX, ho, hO, hb, hB⟩ := hstop
    simp only [hx, hX, ho, hO, hb, hB, decide_false, Bool.or_false, Bool.false_eq_true, if_false]
  · rename_i heq
    obtain ⟨rfl, -⟩ := List.cons.inj heq
    cases hdigit
  · rfl

end Numeral

/-- A decimal integer with no zero in front is read as itself. -/
theorem Scans.numeral {c : Char} {text behind : List Char} (h : isNumeral (c :: text) = true)
    (hbehind : StandsBefore typeStops behind) : ∃ value,
    Scans c text behind (.number value (String.ofList (c :: text))) := by
  have hdigit : c.isDigit = true := by
    simp only [isNumeral, Bool.and_eq_true] at h
    exact h.1.1
  obtain ⟨hword, hquote, hline, hblank, hother, -⟩ := startsWord_of_isDigit hdigit
  simp only [List.contains_cons, List.contains_nil, Bool.or_false, Bool.or_eq_false_iff,
    beq_eq_false_iff_ne] at hother
  obtain ⟨hslash, hnul, hhash, hdash, hequals, -⟩ := hother
  obtain ⟨values, hdecimal⟩ := Numeral.ofDecimal_eq h hbehind
  refine ⟨Numeral.shownDigits values, fun allowed offset => ?_, rfl,
    ⟨hline, hblank, hslash, hnul, hhash⟩, not_doubled hdash _, not_doubled hequals _⟩
  rw [Lexer.scanToken, hword, hquote, hdigit, if_neg (by simp), if_neg (by simp),
    if_pos (by simp), ← List.cons_append, Numeral.ofText_eq h hbehind, hdecimal]
  rfl

/-! ## Signs -/

/-- The signs of a type that no longer one begins with. -/
def marks : List Char := ['(', ')', '[', ']', '\x7b', '\x7d', ';', ',', ':', '<', '>']

/-- The signs that longer ones begin with, in which they are doubled or in front of `=` or `>`. -/
def operators : List Char := ['?', '|', '&', '=', '-', '.']

def signStarts : List Char := marks ++ operators

/-- A character that begins a sign begins nothing else. -/
theorem not_startsWord_of_mem_signStarts : ∀ c ∈ signStarts,
    (startsWord c || c = '\\') = false ∧ (c = '"' || c = '\'') = false ∧ c.isDigit = false ∧
      isLineEnd c = false ∧ isGapBlank c = false ∧ ['/', '\x00', '#'].contains c = false :=
  forall_mem_of_all (by decide)

theorem Scans.sign {c : Char} {text behind : List Char} {sign : String} (hstart : c ∈ signStarts)
    (hsign : Lexer.signOf? ⟨true⟩ (c :: (text ++ behind)) = some sign)
    (hlength : sign.length = text.length + 1) (hplain : (Token.sign sign).isPlain = true)
    (hdigit : (c = '.' && ((text ++ behind).head?.map Char.isDigit).getD false) = false)
    (hdash : ¬['-', '-'] <+: c :: (text ++ behind))
    (hequals : ¬['=', '='] <+: c :: (text ++ behind)) : Scans c text behind (.sign sign) := by
  obtain ⟨hword, hquote, hnumeral, hline, hblank, hother⟩ :=
    not_startsWord_of_mem_signStarts c hstart
  simp only [List.contains_cons, List.contains_nil, Bool.or_false, Bool.or_eq_false_iff,
    beq_eq_false_iff_ne] at hother
  obtain ⟨hslash, hnul, hhash⟩ := hother
  refine ⟨fun allowed offset => ?_, hplain, ⟨hline, hblank, hslash, hnul, hhash⟩, hdash, hequals⟩
  rw [Lexer.scanToken, hword, hquote, hnumeral, hdigit, if_neg (by simp), if_neg (by simp),
    if_neg (by simp), if_neg hslash, hsign, ← hlength]

theorem Scans.dots (behind : List Char) : Scans '.' ['.', '.'] behind (.sign "...") :=
  .sign (by decide) rfl rfl rfl rfl (not_doubled (by decide) _) (not_doubled (by decide) _)

theorem isPlain_singleton : ∀ c ∈ signStarts, (Token.sign (String.singleton c)).isPlain = true ∧
    (String.singleton c).length = 1 := forall_mem_of_all (by decide)

theorem mem_signStarts_of_mem_marks :
    ∀ c ∈ marks, c ∈ signStarts ∧ c ≠ '.' ∧ c ≠ '-' ∧ c ≠ '=' := forall_mem_of_all (by decide)

theorem Scans.mark {c : Char} (h : c ∈ marks) (behind : List Char) :
    Scans c [] behind (.sign (String.singleton c)) := by
  obtain ⟨hstart, hpoint, hdash, hequals⟩ := mem_signStarts_of_mem_marks c h
  obtain ⟨hplain, hlength⟩ := isPlain_singleton c hstart
  refine .sign hstart ?_ hlength hplain (by simp [hpoint]) (not_doubled hdash _)
    (not_doubled hequals _)
  simp only [marks, List.mem_cons, List.not_mem_nil, or_false] at h
  rcases h with rfl | rfl | rfl | rfl | rfl | rfl | rfl | rfl | rfl | rfl | rfl <;> rfl

theorem isPrefixOf_eq_false {c d : Char} (h : d ≠ c) (cs ds : List Char) :
    (c :: cs).isPrefixOf (d :: ds) = false := by
  rw [List.isPrefixOf, beq_eq_false_iff_ne.mpr h.symm, Bool.false_and]

theorem Scans.operator {c next : Char} (h : c ∈ operators) (hsame : next ≠ c)
    (hequals : next ≠ '=') (hgreater : next ≠ '>') (hpoint : c = '.' → next.isDigit = false)
    (behind : List Char) : Scans c [] (next :: behind) (.sign (String.singleton c)) := by
  have hstart : c ∈ signStarts := List.mem_append_right _ h
  obtain ⟨hplain, hlength⟩ := isPlain_singleton c hstart
  have hdouble (mark : Char) : ¬[mark, mark] <+: c :: ([] ++ next :: behind) := by
    intro hprefix
    obtain ⟨rfl, hrest⟩ := List.cons_prefix_cons.mp hprefix
    exact hsame (List.cons_prefix_cons.mp hrest).1.symm
  refine .sign hstart ?_ hlength hplain (by simpa using hpoint) (hdouble '-') (hdouble '=')
  simp only [operators, List.mem_cons, List.not_mem_nil, or_false] at h
  rcases h with rfl | rfl | rfl | rfl | rfl | rfl <;>
    simp [Lexer.signOf?, Lexer.signs, isPrefixOf_eq_false, hsame, hequals, hgreater]

end Declutter.Syntax
