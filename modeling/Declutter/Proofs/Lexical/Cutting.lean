import Declutter.Proofs.Lexical.Scanning

/-!
# Verbatim text and the lexical grammar

The scanner of verbatim text is no lexer: it knows no substitutions, no regular expressions and no
line ends but one. `Plain` elements are those that it takes for what they are. Of a text of plain
elements it reads each element by itself (`spelled_append`), so that its words are the names among
the elements.
-/

namespace Declutter.Lexical

open Syntax (startsWord continuesWord isLineEnd isGapBlank)
open Verbatim (lexemes Lexeme markedFrom endsInAccess inertLength quotedLength)

variable {divides : Nat → Bool}

/-! ## Plain elements -/

/-- Whether a text in front of `behind` has no quotes and no beginning of a comment. -/
def isCode (behind : List Char) : List Char → Bool
  | [] => true
  | c :: cs =>
    !(['"', '\'', '\x60'].contains c) &&
      !(c = '/' && ((cs ++ behind).head? = some '/' || (cs ++ behind).head? = some '*')) &&
      isCode behind cs

/-- Whether a backslash takes the end of a line with it. -/
def escapesLine : List Char → Bool
  | [] => false
  | '\\' :: c :: cs => c = '\n' || escapesLine cs
  | _ :: cs => escapesLine cs

/-- Whether an element in front of `behind` is one that the scanner knows: a name is of letters and
numbers, a string goes over no line end, and no template over one that is escaped, a template has
no substitutions, a line comment ends in front of a line feed, and a regular expression has nothing
that looks like a quote or a comment. -/
def Element.isPlain (element : Element) (behind : List Char) : Bool :=
  match element.kind with
  | .lineComment =>
    behind.isEmpty || ['\n'].isPrefixOf behind || ['\r', '\n'].isPrefixOf behind
  | .string => !element.text.contains '\n'
  | .template =>
    element.text.head? = some '\x60' && element.text.getLast? = some '\x60' &&
      !escapesLine element.text
  | .regex => isCode behind element.text
  | .word => isWord element.text
  | .stray => false
  | .blank | .blockComment | .number | .sign => true

/-- Whether all elements of a text are plain. -/
def Plain : List Element → Bool
  | [] => true
  | e :: es => e.isPlain (es.flatMap Element.text) && Plain es

/-! ## Code -/

theorem isCode_append {behind front back : List Char} (h : isCode behind (front ++ back) = true) :
    isCode behind back = true := by
  induction front with
  | nil => exact h
  | cons c front ih =>
    rw [List.cons_append, isCode, Bool.and_eq_true] at h
    exact ih h.2

/-- Nothing quoted and no comment begins in code. -/
theorem inertLength_of_isCode {behind : List Char} {c : Char} {cs : List Char}
    (h : isCode behind (c :: cs) = true) : inertLength (c :: (cs ++ behind)) = none := by
  simp only [isCode, Bool.and_eq_true, Bool.not_eq_true', List.contains_eq_mem, List.mem_cons,
    List.not_mem_nil, or_false, decide_eq_false_iff_not, not_or, Bool.and_eq_false_imp,
    decide_eq_true_eq, Bool.or_eq_false_iff] at h
  obtain ⟨⟨⟨hdouble, hsingle, htemplate⟩, hslash⟩, _⟩ := h
  unfold inertLength
  split
  · rename_i heq
    exact absurd (List.cons.inj heq).1 hdouble
  · rename_i heq
    exact absurd (List.cons.inj heq).1 hsingle
  · rename_i heq
    exact absurd (List.cons.inj heq).1 htemplate
  · rename_i heq
    exact absurd (by rw [(List.cons.inj heq).2]; rfl) (hslash (List.cons.inj heq).1).1
  · rename_i heq
    exact absurd (by rw [(List.cons.inj heq).2]; rfl) (hslash (List.cons.inj heq).1).2
  · rfl

theorem isCode_nil {behind text : List Char} (h : isCode behind text = true) :
    isCode [] text = true := by
  induction text with
  | nil => rfl
  | cons c cs ih =>
    simp only [isCode, Bool.and_eq_true] at h ⊢
    refine ⟨⟨h.1.1, ?_⟩, ih h.2⟩
    cases cs with
    | nil => simp
    | cons d cs => exact h.1.2

theorem lexemes_word {c : Char} {cs rest : List Char} (hword : isWord (c :: cs) = true)
    (hrest : ∀ d, rest.head? = some d → isWordPart d = false) :
    lexemes (c :: (cs ++ rest)) = .word (c :: cs) :: lexemes rest := by
  have hfirst := Verbatim.firstLexeme_of_isWord hword hrest
  rw [Verbatim.lexemes_cons (show (Verbatim.firstLexeme c (cs ++ rest)).text ++ rest = _ by
    rw [hfirst]; rfl), hfirst]

theorem lexemes_other {c : Char} {cs : List Char} (hinert : inertLength (c :: cs) = none)
    (hstart : isWordStart c = false) : lexemes (c :: cs) = .other c :: lexemes cs := by
  have hfirst : Verbatim.firstLexeme c cs = .other c := by
    rw [Verbatim.firstLexeme_of_inertLength_eq_none hinert, if_neg (by simp [hstart])]
  rw [Verbatim.lexemes_cons (show (Verbatim.firstLexeme c cs).text ++ cs = _ by
    rw [hfirst]; rfl), hfirst]

/-- Code in front of a text is cut by itself if no word goes over the place where it ends. -/
theorem lexemes_append {text behind : List Char} (hcode : isCode behind text = true)
    (hend : (∀ c ∈ text, isWordPart c = false) ∨
      ∀ d, behind.head? = some d → isWordPart d = false) :
    lexemes (text ++ behind) = lexemes text ++ lexemes behind := by
  -- by the length of the text, since a word is cut off as a whole
  induction hlength : text.length using Nat.strong_induction_on generalizing text with
  | _ length ih =>
    cases text with
    | nil => rfl
    | cons c cs =>
      rw [List.length_cons] at hlength
      by_cases hstart : isWordStart c = true
      · have hbehind : ∀ d, behind.head? = some d → isWordPart d = false := by
          obtain hnone | hbehind := hend
          · have hc := hnone c List.mem_cons_self
            rw [Verbatim.isWordPart_of_isWordStart hstart] at hc
            cases hc
          · exact hbehind
        have hword : isWord (c :: cs.takeWhile isWordPart) = true :=
          Verbatim.isWord_cons hstart fun d hd => List.mem_takeWhile_imp hd
        have hcs : cs = cs.takeWhile isWordPart ++ cs.dropWhile isWordPart :=
          List.takeWhile_append_dropWhile.symm
        generalize cs.takeWhile isWordPart = run at hword hcs
        have htail : ∀ d, (cs.dropWhile isWordPart).head? = some d → isWordPart d = false :=
          fun d => Verbatim.eq_false_of_head?_dropWhile
        generalize cs.dropWhile isWordPart = tail at hcs htail
        subst hcs
        -- a word at the end of the text ends there with `behind` too
        have hjoined : ∀ d, (tail ++ behind).head? = some d → isWordPart d = false := by
          cases tail with
          | nil => exact hbehind
          | cons e tail => exact htail
        have hrest := ih tail.length (by rw [← hlength, List.length_append]; omega)
          (isCode_append (show isCode behind ((c :: run) ++ tail) = true from hcode))
          (.inr hbehind) rfl
        rw [List.cons_append, List.append_assoc, lexemes_word hword hjoined, hrest,
          lexemes_word hword htail, List.cons_append]
      · have hcs : isCode behind cs = true :=
          isCode_append (show isCode behind ([c] ++ cs) = true from hcode)
        have hrest := ih cs.length (by omega) hcs
          (hend.imp_left fun h d hd => h d (List.mem_cons_of_mem c hd)) rfl
        have hinert : inertLength (c :: cs) = none := by
          have h := inertLength_of_isCode (isCode_nil hcode)
          rwa [List.append_nil] at h
        rw [Bool.not_eq_true] at hstart
        rw [List.cons_append, lexemes_other (inertLength_of_isCode hcode) hstart, hrest,
          lexemes_other hinert hstart, List.cons_append]

/-! ## Quoted text -/

theorem lexemes_inert {text behind : List Char} (hne : text ≠ [])
    (h : inertLength (text ++ behind) = some text.length) :
    lexemes (text ++ behind) = .inert text :: lexemes behind := by
  cases text with
  | nil => exact absurd rfl hne
  | cons c cs =>
    rw [List.cons_append] at h ⊢
    have hfirst : Verbatim.firstLexeme c (cs ++ behind) = .inert (c :: cs) := by
      rw [Verbatim.firstLexeme_of_inertLength_eq_some h, ← List.cons_append, List.take_left]
    rw [Verbatim.lexemes_cons (show (Verbatim.firstLexeme c (cs ++ behind)).text ++ behind = _ by
      rw [hfirst]; rfl), hfirst]

theorem quotedLength_of_stringLength {quote : Char} (hquote : quote ≠ '\\') {cs : List Char}
    {n : Nat} (h : stringLength quote cs = some n) (hline : '\n' ∉ cs.take n) :
    quotedLength quote false cs = some n := by
  fun_induction stringLength quote cs generalizing n with
  | case1 => cases h
  | case2 cs ih =>
    obtain ⟨m, _, rfl⟩ := Option.map_eq_some_iff.mp h
    simp at hline
  | case3 c cs hreturn ih =>
    obtain ⟨m, hm, rfl⟩ := Option.map_eq_some_iff.mp h
    rw [List.take_succ_cons, List.take_succ_cons, List.mem_cons, List.mem_cons, not_or, not_or]
      at hline
    rw [quotedLength, if_neg (Ne.symm hline.2.1), ih hm hline.2.2]
    rfl
  | case4 cs =>
    obtain rfl := Option.some.inj h
    rw [Verbatim.quotedLength_cons hquote, if_pos rfl]
  | case5 c cs hreturn hescape hquoted hstop => cases h
  | case6 c cs hreturn hescape hquoted hgo ih =>
    obtain ⟨m, hm, rfl⟩ := Option.map_eq_some_iff.mp h
    have hc : c ≠ '\\' := by
      rintro rfl
      cases cs with
      | nil => cases hm
      | cons d cs => exact hescape d cs rfl rfl
    rw [List.take_succ_cons, List.mem_cons, not_or] at hline
    rw [Verbatim.quotedLength_cons hc, if_neg hquoted, if_neg (by simp [Ne.symm hline.1]),
      ih hm hline.2]
    rfl

theorem take_ne_nil_of_templateLength {cs : List Char} {n : Nat}
    (h : templateLength cs = some n) : cs.take n ≠ [] := by
  obtain ⟨body, rest, rfl, rfl, hbody⟩ := exists_of_templateLength h
  rw [List.take_left]
  rintro rfl
  cases hbody []

theorem escapesLine_cons {c : Char} (hc : c ≠ '\\') (cs : List Char) :
    escapesLine (c :: cs) = escapesLine cs := by
  rw [escapesLine]
  exact fun d cs heq => absurd heq hc

theorem quotedLength_of_templateLength {cs : List Char} {n : Nat}
    (h : templateLength cs = some n) (hend : (cs.take n).getLast? = some '\x60')
    (hline : escapesLine (cs.take n) = false) : quotedLength '\x60' true cs = some n := by
  fun_induction templateLength cs generalizing n with
  | case1 => cases h
  | case2 c cs ih =>
    obtain ⟨m, hm, rfl⟩ := Option.map_eq_some_iff.mp h
    rw [List.take_succ_cons, List.take_succ_cons] at hend hline
    rw [escapesLine, Bool.or_eq_false_iff, decide_eq_false_iff_not] at hline
    have hrest := take_ne_nil_of_templateLength hm
    rw [List.getLast?_cons_of_ne_nil (by simp), List.getLast?_cons_of_ne_nil hrest] at hend
    rw [quotedLength, if_neg hline.1, ih hm hend hline.2]
    rfl
  | case3 cs =>
    obtain rfl := Option.some.inj h
    rfl
  | case4 cs =>
    obtain rfl := Option.some.inj h
    cases hend
  | case5 c cs hescape hclose hsubstitution ih =>
    obtain ⟨m, hm, rfl⟩ := Option.map_eq_some_iff.mp h
    have hc : c ≠ '\\' := by
      rintro rfl
      cases cs with
      | nil => cases hm
      | cons d cs => exact hescape d cs rfl rfl
    rw [List.take_succ_cons, List.getLast?_cons_of_ne_nil (take_ne_nil_of_templateLength hm)] at hend
    rw [List.take_succ_cons, escapesLine_cons hc] at hline
    rw [Verbatim.quotedLength_cons hc, if_neg hclose, if_neg (by simp), ih hm hend hline]
    rfl

/-- A string, template or block comment is one piece whatever stands behind it. -/
theorem lexemes_quoted {kind : Kind} {c : Char} {body rest : List Char}
    (hspelled : Spelled kind c body rest)
    (hplain : Element.isPlain ⟨kind, c :: body⟩ rest = true)
    (hkind : kind = .string ∨ kind = .template ∨ kind = .blockComment) (behind : List Char) :
    lexemes ((c :: body) ++ behind) = .inert (c :: body) :: lexemes behind := by
  apply lexemes_inert (by simp)
  rw [List.cons_append, List.length_cons]
  cases hspelled with
  | string hquote h =>
    have hescape : c ≠ '\\' := by rintro rfl; simp at hquote
    simp only [Element.isPlain, Bool.not_eq_true', List.contains_eq_mem, List.mem_cons,
      decide_eq_false_iff_not, not_or] at hplain
    have hlength := quotedLength_of_stringLength hescape h (by rw [List.take_left]; exact hplain.2)
    have hstays := Verbatim.quotedLength_take hescape hlength behind
    rw [List.take_left] at hstays
    obtain rfl | rfl := hquote <;> rw [inertLength, hstays] <;> rfl
  | template h =>
    simp only [Element.isPlain, Bool.and_eq_true, decide_eq_true_eq, Bool.not_eq_true'] at hplain
    obtain ⟨⟨hc, hlast⟩, hline⟩ := hplain
    obtain rfl : c = '\x60' := Option.some.inj hc
    have hbody := take_ne_nil_of_templateLength h
    rw [List.take_left] at hbody
    rw [List.getLast?_cons_of_ne_nil hbody] at hlast
    rw [escapesLine_cons (by decide)] at hline
    have hlength := quotedLength_of_templateLength h (by rwa [List.take_left])
      (by rwa [List.take_left])
    have hstays := Verbatim.quotedLength_take (by decide) hlength behind
    rw [List.take_left] at hstays
    rw [inertLength, hstays]
    rfl
  | @blockComment body _ h => rw [List.cons_append, inertLength, h]; rfl
  | _ => simp at hkind

/-! ## Texts of plain elements -/

theorem continuesWord_of_isDigit {c : Char} (h : c.isDigit = true) : continuesWord c = true :=
  Syntax.forall_isAscii (P := fun c => c.isDigit = true → continuesWord c = true) (by decide)
    (Syntax.isAscii_of_isDigit h) h

/-- What the scanner makes of a piece: a word and whether it names a type, or single characters. -/
def spell : Lexeme × Bool → List (List Char × Bool)
  | (.word text, names) => [(text, names)]
  | (.inert text, _) => text.map fun c => ([c], false)
  | (.other c, _) => [([c], false)]

/-- The words of a text behind another, given back to front, and its characters outside of them. -/
def spelled (before text : List Char) : List (List Char × Bool) :=
  (markedFrom before (lexemes text)).flatMap spell

theorem markedFrom_append (before : List Char) (front back : List Lexeme) :
    markedFrom before (front ++ back) =
      markedFrom before front ++
        markedFrom ((front.flatMap Lexeme.text).reverse ++ before) back := by
  induction front generalizing before with
  | nil => rfl
  | cons first front ih =>
    rw [List.cons_append, Verbatim.markedFrom_cons, Verbatim.markedFrom_cons, ih, List.cons_append,
      List.flatMap_cons, List.reverse_append, List.append_assoc]

theorem spelled_append_of_lexemes {text behind : List Char}
    (h : lexemes (text ++ behind) = lexemes text ++ lexemes behind) (before : List Char) :
    spelled before (text ++ behind) =
      spelled before text ++ spelled (text.reverse ++ before) behind := by
  rw [spelled, h, markedFrom_append, Verbatim.text_lexemes, List.flatMap_append]
  rfl

theorem isWordPart_of_isBlank {c : Char} (h : (isLineEnd c || isGapBlank c) = true) :
    isWordPart c = false := by
  by_cases hblank : Text.isBlank c = true
  · by_contra hpart
    rw [Verbatim.isBlank_eq_false_of_isWordPart (Bool.not_eq_false _ ▸ hpart)] at hblank
    cases hblank
  · have hline : isLineEnd c = false := by
      by_contra hline
      apply hblank
      simp only [isLineEnd, Bool.not_eq_false, Bool.or_eq_true, decide_eq_true_eq] at hline
      obtain ((rfl | rfl) | hline) | hline := hline
      · rfl
      · rfl
      · simp [Text.isBlank, hline]
      · simp [Text.isBlank, hline]
    rw [Bool.not_eq_true] at hblank
    simp only [isGapBlank, hline, hblank, Bool.false_or, Bool.not_false, Bool.true_and,
      decide_eq_true_eq] at h
    rw [← Char.ofNat_toNat c, h]
    decide +kernel

/-- What is no character of a name, but begins an element. -/
theorem isWordPart_of_mem {c : Char}
    (h : c ∈ ['/', '"', '\'', '\x60'] ++ signs) : isWordPart c = false := by
  have hall : (['/', '"', '\'', '\x60'] ++ signs).all (!isWordPart ·) = true := by
    decide +kernel
  simpa using List.all_eq_true.mp hall c h

/-- A character of a word that an element begins with goes on with a name. -/
theorem continuesWord_of_spelled {kind : Kind} {c : Char} {body rest : List Char}
    (hspelled : Spelled kind c body rest)
    (hplain : Element.isPlain ⟨kind, c :: body⟩ rest = true) (hpart : isWordPart c = true) :
    continuesWord c = true := by
  have hother : c ∈ ['/', '"', '\'', '\x60'] ++ signs → continuesWord c = true := by
    intro hmem
    rw [isWordPart_of_mem hmem] at hpart
    cases hpart
  cases hspelled with
  | blank hc =>
    rw [isWordPart_of_isBlank hc] at hpart
    cases hpart
  | string hquote => obtain rfl | rfl := hquote <;> exact hother (by decide)
  | template =>
    simp only [Element.isPlain, Bool.and_eq_true, decide_eq_true_eq] at hplain
    obtain rfl : c = '\x60' := Option.some.inj hplain.1.1
    exact hother (by decide)
  | number hc =>
    obtain hdigit | rfl := hc
    · exact continuesWord_of_isDigit hdigit
    · exact hother (by decide)
  | word hc => exact continuesWord_of_startsWord hc
  | sign hc => exact hother (List.mem_append_right _ hc)
  | _ => exact hother (by decide)

/-- Where no name goes on, no word of the scanner does. -/
theorem isWordPart_of_ends {state : State} {es : List Element} (hread : Reads divides state es)
    (hplain : Plain es = true) (hends : Ends (es.flatMap Element.text)) :
    ∀ d, (es.flatMap Element.text).head? = some d → isWordPart d = false := by
  intro d hd
  cases hread with
  | nil => cases hd
  | cons hspelled =>
    obtain rfl := Option.some.inj hd
    by_contra hpart
    rw [Plain, Bool.and_eq_true] at hplain
    have hword := continuesWord_of_spelled hspelled hplain.1 (Bool.not_eq_false _ ▸ hpart)
    rw [hends _ hd] at hword
    cases hword

theorem isCode_of_forall {text behind : List Char}
    (h : ∀ c ∈ text, c ∉ ['/', '"', '\'', '\x60']) : isCode behind text = true := by
  induction text with
  | nil => rfl
  | cons c cs ih =>
    have hc := h c List.mem_cons_self
    simp only [List.mem_cons, List.not_mem_nil, or_false, not_or] at hc
    rw [isCode, ih fun d hd => h d (List.mem_cons_of_mem c hd)]
    simp [hc]

theorem not_mem_of_all {p : Char → Bool} {c : Char} {cs : List Char} (hc : p c = true)
    (hall : cs.all (!p ·) = true) : c ∉ cs := by
  intro hmem
  have hnot := List.all_eq_true.mp hall c hmem
  rw [hc] at hnot
  cases hnot

theorem not_mem_of_isNumberPart {c : Char} (h : isNumberPart c = true) :
    c ∉ ['/', '"', '\'', '\x60'] :=
  not_mem_of_all h (by decide +kernel)

/-- All that is neither quoted nor a comment is code. -/
theorem isCode_of_spelled {kind : Kind} {c : Char} {body rest : List Char}
    (hspelled : Spelled kind c body rest)
    (hplain : Element.isPlain ⟨kind, c :: body⟩ rest = true)
    (hkind : kind = .blank ∨ kind = .regex ∨ kind = .number ∨ kind = .word ∨ kind = .sign) :
    isCode rest (c :: body) = true := by
  have hpart {d : Char} (h : continuesWord d = true) : isNumberPart d = true := by
    rw [isNumberPart, h]
    rfl
  cases hspelled with
  | blank hc =>
    apply isCode_of_forall
    intro d hd
    obtain rfl := List.mem_singleton.mp hd
    exact not_mem_of_all (p := fun c => isLineEnd c || isGapBlank c) hc (by decide +kernel)
  | regex => exact hplain
  | number hc hbody =>
    apply isCode_of_forall
    intro d hd
    apply not_mem_of_isNumberPart
    obtain rfl | hd := List.mem_cons.mp hd
    · obtain hdigit | rfl := hc
      · exact hpart (continuesWord_of_isDigit hdigit)
      · decide
    · exact hbody d hd
  | word hc hbody =>
    apply isCode_of_forall
    intro d hd
    apply not_mem_of_isNumberPart
    obtain rfl | hd := List.mem_cons.mp hd
    · exact hpart (continuesWord_of_startsWord hc)
    · exact hpart (hbody d hd)
  | slash hrest =>
    have hline : rest.head? ≠ some '/' := fun h => (hrest _ h).1 rfl
    have hblock : rest.head? ≠ some '*' := fun h => (hrest _ h).2 rfl
    simp [isCode, hline, hblock]
  | sign hc =>
    apply isCode_of_forall
    intro d hd
    obtain rfl := List.mem_singleton.mp hd
    exact not_mem_of_all (p := (signs.contains ·)) (by simpa using hc) (by decide)
  | _ => simp at hkind

/-- A single character that stands for itself is no part of a word. -/
theorem Spelled.isWordPart_eq {kind : Kind} {c : Char} {body rest : List Char}
    (hspelled : Spelled kind c body rest) (hkind : kind = .blank ∨ kind = .sign) :
    ∀ d ∈ c :: body, isWordPart d = false := by
  cases hspelled with
  | blank hc => simpa using isWordPart_of_isBlank hc
  | slash => simpa using isWordPart_of_mem (show '/' ∈ _ by decide)
  | sign hc => simpa using isWordPart_of_mem (List.mem_append_right _ hc)
  | _ => simp at hkind

theorem Spelled.ends {kind : Kind} {c : Char} {body rest : List Char}
    (hspelled : Spelled kind c body rest)
    (hkind : kind = .regex ∨ kind = .number ∨ kind = .word) : Ends rest := by
  cases hspelled with
  | regex hrest | number _ _ hrest | word _ _ hrest => exact hrest
  | _ => simp at hkind

theorem lexemes_lineComment {body rest : List Char} (hbody : '\n' ∉ body)
    (hrest : ∀ d, rest.head? = some d → d = '\n') :
    lexemes (('/' :: '/' :: body) ++ rest) = .inert ('/' :: '/' :: body) :: lexemes rest := by
  apply lexemes_inert (by simp)
  have hself : body.takeWhile (· ≠ '\n') = body := by
    apply List.takeWhile_eq_self_iff.mpr
    intro d hd
    simpa using fun h : d = '\n' => hbody (h ▸ hd)
  have htake : (body.takeWhile (· ≠ '\n') ++ rest).takeWhile (· ≠ '\n') =
      body.takeWhile (· ≠ '\n') :=
    Verbatim.takeWhile_append_of_head? fun d hd => by simp [hrest d hd]
  rw [hself] at htake
  rw [List.cons_append, List.cons_append, inertLength, htake, List.length_cons, List.length_cons,
    Nat.add_comm]

theorem spelled_inert {text piece rest : List Char}
    (h : lexemes text = .inert piece :: lexemes rest) (before : List Char) :
    spelled before text =
      piece.map (fun c => ([c], false)) ++ spelled (piece.reverse ++ before) rest := by
  rw [spelled, h, Verbatim.markedFrom_cons, List.flatMap_cons]
  rfl

/-- A line comment is spelled by itself, although the scanner takes the first character of `\r\n`
for a part of it. -/
theorem spelled_lineComment {body rest : List Char} (hbody : ∀ d ∈ body, isLineEnd d = false)
    (hrest : (rest.isEmpty || ['\n'].isPrefixOf rest || ['\r', '\n'].isPrefixOf rest) = true)
    (before : List Char) :
    spelled before (('/' :: '/' :: body) ++ rest) =
      spelled before ('/' :: '/' :: body) ++
        spelled (('/' :: '/' :: body).reverse ++ before) rest := by
  have hline : '\n' ∉ body := by
    intro hmem
    have hend := hbody _ hmem
    revert hend
    decide
  have halone := lexemes_lineComment hline (show ∀ d, [].head? = some d → d = '\n' by simp)
  rw [List.append_nil] at halone
  rw [spelled_inert halone, List.append_assoc]
  -- either way the carriage return is spelled as a character of its own
  by_cases hreturn : ['\r', '\n'].isPrefixOf rest = true
  · obtain ⟨behind, rfl⟩ := List.isPrefixOf_iff_prefix.mp hreturn
    have hpiece : lexemes (('/' :: '/' :: body) ++ (['\r', '\n'] ++ behind)) =
        .inert (('/' :: '/' :: body) ++ ['\r']) :: lexemes ('\n' :: behind) := by
      have hlong := lexemes_lineComment (show '\n' ∉ body ++ ['\r'] by simpa using hline)
        (show ∀ d, ('\n' :: behind).head? = some d → d = '\n' by simp)
      simpa using hlong
    have hother (front : List Char) : spelled front (['\r', '\n'] ++ behind) =
        (['\r'], false) :: spelled ('\r' :: front) ('\n' :: behind) := by
      have hcut : lexemes (['\r', '\n'] ++ behind) = .other '\r' :: lexemes ('\n' :: behind) :=
        lexemes_other rfl (by decide)
      rw [spelled, hcut, Verbatim.markedFrom_cons, List.flatMap_cons]
      rfl
    rw [spelled_inert hpiece, hother, List.map_append, List.reverse_append, List.append_assoc]
    rfl
  · have hend : ∀ d, rest.head? = some d → d = '\n' := by
      intro d hd
      cases rest with
      | nil => cases hd
      | cons e rest =>
        rw [Bool.not_eq_true] at hreturn
        rw [hreturn, Bool.or_false, List.isEmpty_cons, Bool.false_or] at hrest
        obtain ⟨_, hprefix⟩ := List.isPrefixOf_iff_prefix.mp hrest
        rw [← Option.some.inj hd]
        exact (List.cons.inj hprefix).1.symm
    rw [spelled_inert (lexemes_lineComment hline hend)]
    rfl

/-- Each plain element is spelled by itself. -/
theorem spelled_append {state : State} {e : Element} {es : List Element}
    (hread : Reads divides state (e :: es)) (hplain : Plain (e :: es) = true)
    (before : List Char) :
    spelled before (e.text ++ es.flatMap Element.text) =
      spelled before e.text ++ spelled (e.text.reverse ++ before) (es.flatMap Element.text) := by
  obtain ⟨hfirst, hrest⟩ := Bool.and_eq_true_iff.mp hplain
  cases hread with
  | @cons _ kind c body _ hspelled hscan hread =>
    -- comments and quoted text are one piece; the others are code, which no word may go beyond
    cases kind with
    | lineComment =>
      cases hspelled with
      | lineComment hbody => exact spelled_lineComment hbody hfirst before
    | string | template | blockComment =>
      have hinert := lexemes_quoted hspelled hfirst (by simp)
      apply spelled_append_of_lexemes
      have hself := hinert []
      rw [List.append_nil] at hself
      rw [hinert, hself]
      rfl
    | blank | sign =>
      apply spelled_append_of_lexemes
      exact lexemes_append (isCode_of_spelled hspelled hfirst (by simp))
        (.inl (hspelled.isWordPart_eq (by simp)))
    | regex | number | word =>
      apply spelled_append_of_lexemes
      exact lexemes_append (isCode_of_spelled hspelled hfirst (by simp))
        (.inr (isWordPart_of_ends hread hrest (hspelled.ends (by simp))))
    | stray => cases hfirst

end Declutter.Lexical
