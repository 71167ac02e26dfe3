import Declutter.Proofs.Lexical.Cutting

/-!
# Names that are replaced

A text of plain elements with a name replaced has the elements of the text, with that name replaced
(`elements_rename`).
-/

namespace Declutter.Lexical

open Syntax (startsWord continuesWord isLineEnd isGapBlank)
open Verbatim (lexemes Lexeme markedFrom endsInAccess rename)

variable {divides : Nat → Bool}

/-! ## Elements with other names -/

/-- Whether a text is a name of the grammar, written without escapes. -/
def isName : List Char → Bool
  | [] => false
  | c :: cs => startsWord c && cs.all continuesWord

/-- An element, or a name in place of a name. -/
inductive Swapped : Element → Element → Prop
  | refl (e : Element) : Swapped e e
  | word {v w : List Char} (hw : isName w = true) : Swapped ⟨.word, v⟩ ⟨.word, w⟩

theorem Meets.trans {a b c : List Char} (hab : Meets a b) (hbc : Meets b c) : Meets a c := by
  obtain hab | ⟨d, e, hd, he, hdstart, hestart⟩ := hab
  · obtain hbc | ⟨d, e, hd, he, hstarts⟩ := hbc
    · exact .inl (hbc.trans hab)
    · exact .inr ⟨d, e, hab ▸ hd, he, hstarts⟩
  · obtain hbc | ⟨f, g, _, hg, _, hgstart⟩ := hbc
    · exact .inr ⟨d, e, hd, hbc ▸ he, hdstart, hestart⟩
    · exact .inr ⟨d, g, hd, hg, hdstart, hgstart⟩

/-- What is read first in front of elements. -/
theorem Reads.cons_of_scan {state : State} {kind : Kind} {c : Char} {body : List Char}
    {es : List Element}
    (hscan : scan (divides state.slashes) state.continues c (body ++ es.flatMap Element.text) =
      (kind, body.length))
    (hkind : kind ≠ .stray) (hrest : Reads divides (state.next ⟨kind, c :: body⟩) es) :
    Reads divides state (⟨kind, c :: body⟩ :: es) := by
  obtain ⟨body', rest, hsplit, hlength, hspelled, hstays⟩ := bounded_scan hscan hkind
  obtain ⟨rfl, rfl⟩ := List.append_inj hsplit hlength.symm
  exact .cons hspelled hstays hrest

/-- No blank begins a name. -/
theorem isBlank_of_startsWord {c : Char} (h : startsWord c = true) :
    (isLineEnd c || isGapBlank c) = false := by
  have hall : (0xfeff :: Verbatim.blanks).all (fun n => !startsWord (Char.ofNat n)) = true := by
    decide +kernel
  by_contra hblank
  have hmem : c.toNat ∈ 0xfeff :: Verbatim.blanks := by
    simp only [isLineEnd, isGapBlank, Text.isBlank, Bool.not_eq_false, Bool.or_eq_true,
      Bool.and_eq_true, decide_eq_true_eq] at hblank
    simp only [Verbatim.blanks, List.mem_cons, List.not_mem_nil, or_false]
    obtain (((rfl | rfl) | hline) | hline) | ⟨_, hblank⟩ := hblank
    · simp
    · simp
    all_goals omega
  have hc := List.all_eq_true.mp hall c.toNat hmem
  rw [Char.ofNat_toNat, h] at hc
  cases hc

/-- A name is read up to where no name goes on. -/
theorem scan_name {c : Char} {cs rest : List Char} (hname : isName (c :: cs) = true)
    (hrest : Ends rest) (divides continues : Bool) :
    scan divides continues c (cs ++ rest) = (.word, cs.length) := by
  rw [isName, Bool.and_eq_true, List.all_eq_true] at hname
  have hself : cs.takeWhile continuesWord = cs := List.takeWhile_eq_self_iff.mpr hname.2
  rw [scan, if_neg (by simp [isBlank_of_startsWord hname.1]), if_pos hname.1,
    takeWhile_append_of_ends hrest, hself]

/-- Other names do not change how a text begins. -/
theorem Reads.meets {state : State} {es es' : List Element} (hread : Reads divides state es)
    (h : List.Forall₂ Swapped es es') :
    Meets (es.flatMap Element.text) (es'.flatMap Element.text) := by
  cases h with
  | nil => exact .inl rfl
  | cons hfirst _ =>
    cases hread with
    | cons hspelled =>
      cases hfirst with
      | refl => exact .inl rfl
      | @word _ w hw =>
        cases w with
        | nil => cases hw
        | cons d w =>
          rw [isName, Bool.and_eq_true] at hw
          cases hspelled with
          | word hc => exact .inr ⟨_, d, rfl, rfl, hc, hw.1⟩

/-- Where names are replaced by names, the text that comes out has the new elements. -/
theorem Reads.of_swapped {state : State} {es es' : List Element} (hread : Reads divides state es)
    (h : List.Forall₂ Swapped es es') : Reads divides state es' := by
  -- a swap changes neither the state behind an element nor whether a name begins there
  induction hread generalizing es' with
  | nil =>
    cases h
    exact .nil _
  | @cons state kind c body es hspelled hscan hrest ih =>
    cases h with
    | cons hfirst hswapped =>
      have hmeets := hrest.meets hswapped
      cases hfirst with
      | refl =>
        refine .cons_of_scan (hscan _ hmeets) ?_ (ih hswapped)
        rintro rfl
        cases hspelled
      | @word _ w hw =>
        cases w with
        | nil => cases hw
        | cons d w =>
          cases hspelled with
          | word _ _ hends =>
            have hends' := hends.of_head?_eq (hmeets.head?_eq hends)
            exact .cons_of_scan (scan_name hw hends' _ _) (by simp) (ih hswapped)

/-! ## A name that is replaced -/

/-- An element behind some text, given back to front, with the name `old` replaced by `new` if the
scanner takes it for a type. -/
def swap (old new before : List Char) (element : Element) : Element :=
  if element.kind = .word && element.text = old && !endsInAccess before then ⟨.word, new⟩
  else element

/-- Elements behind some text with a name replaced. -/
def swapFrom (old new before : List Char) : List Element → List Element
  | [] => []
  | e :: es => swap old new before e :: swapFrom old new (e.text.reverse ++ before) es

/-- Whether no number and no regular expression has a word in it that the scanner would replace. -/
def isFree (old : List Char) (es : List Element) : Bool :=
  es.all fun e =>
    !((e.kind = .number || e.kind = .regex) && (lexemes e.text).contains (.word old))

theorem swapped_swap {new : List Char} (hnew : isName new = true) (old before : List Char)
    (e : Element) : Swapped e (swap old new before e) := by
  unfold swap
  split
  · rename_i h
    obtain ⟨kind, text⟩ := e
    simp only [Bool.and_eq_true, decide_eq_true_eq] at h
    obtain ⟨⟨rfl, _⟩, _⟩ := h
    exact .word hnew
  · exact .refl e

theorem swapped_swapFrom {new : List Char} (hnew : isName new = true) (old before : List Char)
    (es : List Element) : List.Forall₂ Swapped es (swapFrom old new before es) := by
  induction es generalizing before with
  | nil => exact .nil
  | cons e es ih => exact .cons (swapped_swap hnew old before e) (ih _)

/-- What is written for a word or a character. -/
def respell (old new : List Char) (piece : List Char × Bool) : List Char :=
  if piece.2 && piece.1 = old then new else piece.1

theorem respell_spell (old new before : List Char) (piece : Lexeme) :
    (spell (piece, Verbatim.names before piece)).flatMap (respell old new) =
      if Verbatim.names before piece && piece.text = old then new else piece.text := by
  cases piece with
  | word text => exact List.append_nil _
  | inert text => simp [spell, respell, Lexeme.text, Verbatim.names, List.flatMap_map]
  | other c => simp [spell, respell, Lexeme.text, Verbatim.names]

/-- Replacing a word is respelling. -/
theorem toList_rename (text old new : String) :
    (rename text old new).toList =
      (spelled [] text.toList).flatMap (respell old.toList new.toList) := by
  have hpieces (before : List Char) (pieces : List Lexeme) :
      ((markedFrom before pieces).flatMap fun piece =>
        if piece.2 && piece.1.text = old.toList then new.toList else piece.1.text) =
      ((markedFrom before pieces).flatMap spell).flatMap (respell old.toList new.toList) := by
    induction pieces generalizing before with
    | nil => rfl
    | cons first pieces ih =>
      rw [Verbatim.markedFrom_cons, List.flatMap_cons, List.flatMap_cons, List.flatMap_append, ih,
        respell_spell]
  rw [rename, String.toList_ofList]
  exact hpieces [] _

/-- Text that does not hold the word stays. -/
theorem flatMap_respell_of_not_mem {old text : List Char} (h : .word old ∉ lexemes text)
    (new before : List Char) : (spelled before text).flatMap (respell old new) = text := by
  conv => rhs; rw [← Verbatim.text_lexemes text]
  rw [spelled]
  generalize lexemes text = pieces at h
  induction pieces generalizing before with
  | nil => rfl
  | cons first pieces ih =>
    rw [List.mem_cons, not_or] at h
    have hother : (Verbatim.names before first && first.text = old) = false := by
      cases first with
      | word text =>
        have hne : text ≠ old := fun heq => h.1 (by rw [heq])
        simp [Lexeme.text, hne]
      | _ => rfl
    rw [Verbatim.markedFrom_cons, List.flatMap_cons, List.flatMap_append, ih _ h.2, respell_spell,
      hother, List.flatMap_cons]
    rfl

theorem lexemes_name {c : Char} {body rest : List Char}
    (hplain : Element.isPlain ⟨.word, c :: body⟩ rest = true) :
    lexemes (c :: body) = [.word (c :: body)] := by
  have hword : isWord (c :: body) = true := hplain
  have hcut := lexemes_word hword (show ∀ d, [].head? = some d → isWordPart d = false by simp)
  rwa [List.append_nil] at hcut

/-- A name is a word of the scanner. -/
theorem spelled_name {c : Char} {body rest : List Char}
    (hplain : Element.isPlain ⟨.word, c :: body⟩ rest = true) (before : List Char) :
    spelled before (c :: body) = [(c :: body, !endsInAccess before)] := by
  rw [spelled, lexemes_name hplain]
  rfl

/-- Only in names, numbers and regular expressions does the scanner find words. -/
theorem not_mem_lexemes {kind : Kind} {c : Char} {body rest : List Char}
    (hspelled : Spelled kind c body rest)
    (hplain : Element.isPlain ⟨kind, c :: body⟩ rest = true)
    (hkind : kind ≠ .word ∧ kind ≠ .number ∧ kind ≠ .regex) (text : List Char) :
    .word text ∉ lexemes (c :: body) := by
  cases kind with
  | lineComment =>
    cases hspelled with
    | @lineComment body _ hbody =>
      have hline : '\n' ∉ body := fun hmem => absurd (hbody _ hmem) (by decide)
      have hcut := lexemes_lineComment hline (show ∀ d, [].head? = some d → d = '\n' by simp)
      rw [List.append_nil] at hcut
      rw [hcut]
      simp [Verbatim.lexemes, Verbatim.lexemesAfter]
  | string | template | blockComment =>
    have hcut := lexemes_quoted hspelled hplain (by simp) []
    rw [List.append_nil] at hcut
    rw [hcut]
    simp [Verbatim.lexemes, Verbatim.lexemesAfter]
  | blank | sign =>
    -- a word would begin with a character of the element
    have hpart := hspelled.isWordPart_eq (by simp)
    intro hmem
    have hword := Verbatim.isWord_of_mem_lexemes
      (show lexemes ((lexemes (c :: body)).flatMap Lexeme.text) = _ by
        rw [Verbatim.text_lexemes]) hmem
    have hsub : text ⊆ c :: body := fun d hd => by
      rw [← Verbatim.text_lexemes (c :: body)]
      exact List.mem_flatMap.mpr ⟨_, hmem, hd⟩
    cases text with
    | nil => cases hword
    | cons d text =>
      rw [isWord, Bool.and_eq_true] at hword
      have hd := Verbatim.isWordPart_of_isWordStart hword.1
      rw [hpart d (hsub List.mem_cons_self)] at hd
      cases hd
  | word | number | regex => simp at hkind
  | stray => cases hplain

/-- A plain element is written again with the name replaced. -/
theorem flatMap_respell_element {state : State} {e : Element} {es : List Element}
    (hread : Reads divides state (e :: es)) (hplain : Plain (e :: es) = true) {old : List Char}
    (hfree : isFree old (e :: es) = true) (new before : List Char) :
    (spelled before e.text).flatMap (respell old new) = (swap old new before e).text := by
  have hfirst := (Bool.and_eq_true_iff.mp hplain).1
  cases hread with
  | @cons _ kind c body _ hspelled =>
    by_cases hword : kind = .word
    · subst hword
      rw [spelled_name hfirst, List.flatMap_singleton, respell, swap]
      by_cases hold : c :: body = old <;> cases endsInAccess before <;> simp [hold]
    · have hnone : .word old ∉ lexemes (c :: body) := by
        by_cases hkind : kind = .number ∨ kind = .regex
        · rw [isFree, List.all_cons, Bool.and_eq_true] at hfree
          have hnone := hfree.1
          simp only [Bool.not_eq_true', Bool.and_eq_false_imp, Bool.or_eq_true, decide_eq_true_eq,
            List.contains_eq_mem, decide_eq_false_iff_not] at hnone
          exact hnone hkind
        · rw [not_or] at hkind
          exact not_mem_lexemes hspelled hfirst ⟨hword, hkind⟩ old
      rw [flatMap_respell_of_not_mem hnone, swap, if_neg (by simp [hword])]

/-- A text of plain elements with a name replaced is that of the elements with the name replaced. -/
theorem flatMap_respell {state : State} {es : List Element} (hread : Reads divides state es)
    (hplain : Plain es = true) {old : List Char} (hfree : isFree old es = true)
    (new before : List Char) :
    (spelled before (es.flatMap Element.text)).flatMap (respell old new) =
      (swapFrom old new before es).flatMap Element.text := by
  induction es generalizing state before with
  | nil => rfl
  | cons e es ih =>
    rw [List.flatMap_cons, spelled_append hread hplain, List.flatMap_append,
      flatMap_respell_element hread hplain hfree]
    have hplain' := (Bool.and_eq_true_iff.mp hplain).2
    have hfree' := (Bool.and_eq_true_iff.mp hfree).2
    cases hread with
    | cons _ _ hread =>
      rw [ih hread hplain' hfree']
      rfl

theorem Plain.ne_stray {es : List Element} (h : Plain es = true) :
    ∀ e ∈ es, e.kind ≠ .stray := by
  induction es with
  | nil => simp
  | cons e es ih =>
    obtain ⟨hfirst, hrest⟩ := Bool.and_eq_true_iff.mp h
    intro d hd
    obtain rfl | hd := List.mem_cons.mp hd
    · intro hkind
      rw [Element.isPlain, hkind] at hfirst
      cases hfirst
    · exact ih hrest d hd

theorem reads_elements {text : List Char} (h : Plain (elements divides text) = true) :
    Reads divides .start (elements divides text) :=
  reads_elementsAfter .start text (Plain.ne_stray h)

/-- The elements of a text with a name replaced are those of the text, with that name replaced. -/
theorem elements_rename {text old new : String}
    (hplain : Plain (elements divides text.toList) = true)
    (hfree : isFree old.toList (elements divides text.toList) = true)
    (hnew : isName new.toList = true) :
    elements divides (rename text old new).toList =
      swapFrom old.toList new.toList [] (elements divides text.toList) := by
  have hread := reads_elements hplain
  have htext := flatMap_respell hread hplain hfree new.toList []
  rw [text_elements] at htext
  have hswapped := hread.of_swapped (swapped_swapFrom hnew old.toList [] _)
  rw [toList_rename, htext]
  exact hswapped.elementsAfter_eq

end Declutter.Lexical
