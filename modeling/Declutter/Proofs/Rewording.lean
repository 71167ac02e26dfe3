import Declutter.Proofs.VerbatimText
import Mathlib.Data.List.Forall2
import Mathlib.Data.List.TakeWhile

/-!
# Text with other words

Replacing words of a text by words does not change how the rest of it is cut up: quotes and
comments are closed where they were before, and a word that was a member access stays one. So the
pieces of a text with a word replaced are the pieces of the text with that word replaced
(`marked_rename`), and a word that is replaced twice might as well be replaced once
(`rename_rename`).
-/

namespace Declutter.Verbatim

/-! ## Characters of words -/

/-- Some characters of a word. -/
def IsRun (cs : List Char) : Prop := cs ≠ [] ∧ ∀ c ∈ cs, isWordPart c = true

theorem isRun_of_isWord {cs : List Char} (h : isWord cs = true) : IsRun cs := by
  cases cs with
  | nil => cases h
  | cons c cs =>
    rw [isWord, Bool.and_eq_true, List.all_eq_true] at h
    refine ⟨by simp, fun d hd => ?_⟩
    rcases List.mem_cons.mp hd with heq | hd
    · rw [heq, isWordPart, h.1, Bool.true_or]
    · exact h.2 d hd

theorem IsRun.reverse {cs : List Char} (h : IsRun cs) : IsRun cs.reverse :=
  ⟨by simpa using h.1, fun c hc => h.2 c (List.mem_reverse.mp hc)⟩

/-- What begins, ends or joins something in verbatim text is not part of a word. -/
theorem isWordPart_eq_false_of_mem {c : Char}
    (h : c ∈ ['\\', '"', '\'', '\x60', '\n', '/', '*', '.']) : isWordPart c = false := by
  have hall : ['\\', '"', '\'', '\x60', '\n', '/', '*', '.'].all (!isWordPart ·) = true := by
    decide
  simpa using List.all_eq_true.mp hall c h

theorem ne_of_isWordPart {c d : Char} (hc : isWordPart c = true) (hd : isWordPart d = false) :
    c ≠ d := by
  intro heq
  rw [heq, hd] at hc
  cases hc

/-- The code points of the property White_Space. -/
def blanks : List Nat :=
  [9, 10, 11, 12, 13, 0x20, 0x85, 0xa0, 0x1680, 0x2000, 0x2001, 0x2002, 0x2003, 0x2004, 0x2005,
    0x2006, 0x2007, 0x2008, 0x2009, 0x200a, 0x2028, 0x2029, 0x202f, 0x205f, 0x3000]

theorem isBlank_eq_false_of_isWordPart {c : Char} (h : isWordPart c = true) :
    Text.isBlank c = false := by
  have hall : blanks.all (fun n => !isWordPart (Char.ofNat n)) = true := by decide +kernel
  by_contra hblank
  have hmem : c.toNat ∈ blanks := by
    simp only [Text.isBlank, Bool.not_eq_false, Bool.or_eq_true, Bool.and_eq_true,
      decide_eq_true_eq] at hblank
    simp only [blanks, List.mem_cons, List.not_mem_nil, or_false]
    omega
  have hpart := List.all_eq_true.mp hall c.toNat hmem
  rw [Char.ofNat_toNat, h] at hpart
  cases hpart

/-! ## Texts that differ in words -/

/-- Two texts that are the same but for characters of words in the same places. -/
inductive Reworded : List Char → List Char → Prop
  | nil : Reworded [] []
  | same (c : Char) {cs ds : List Char} (h : Reworded cs ds) : Reworded (c :: cs) (c :: ds)
  | word {v w cs ds : List Char} (hv : IsRun v) (hw : IsRun w) (h : Reworded cs ds) :
      Reworded (v ++ cs) (w ++ ds)

namespace Reworded

theorem symm {cs ds : List Char} (h : Reworded cs ds) : Reworded ds cs := by
  induction h with
  | nil => exact .nil
  | same c _ ih => exact .same c ih
  | word hv hw _ ih => exact .word hw hv ih

theorem append_same {cs ds : List Char} (h : Reworded cs ds) (front : List Char) :
    Reworded (front ++ cs) (front ++ ds) := by
  induction front with
  | nil => exact h
  | cons c front ih => exact .same c ih

/-- A character that is not part of a word is in both texts. -/
theorem exists_cons {c : Char} {cs ds : List Char} (h : Reworded (c :: cs) ds)
    (hc : isWordPart c = false) : ∃ rest, ds = c :: rest ∧ Reworded cs rest := by
  generalize hcs : c :: cs = text at h
  cases h with
  | nil => cases hcs
  | same d h =>
    obtain ⟨rfl, rfl⟩ := List.cons.inj hcs
    exact ⟨_, rfl, h⟩
  | @word v w cs' ds' hv hw h =>
    cases v with
    | nil => exact absurd rfl hv.1
    | cons d v =>
      obtain ⟨rfl, -⟩ := List.cons.inj hcs
      rw [hv.2 c List.mem_cons_self] at hc
      cases hc

theorem eq_nil {ds : List Char} (h : Reworded [] ds) : ds = [] := by
  generalize hcs : ([] : List Char) = text at h
  cases h with
  | nil => rfl
  | same => cases hcs
  | word hv _ _ => exact absurd (List.append_eq_nil_iff.mp hcs.symm).1 hv.1

/-- A text that does not go on with a word is followed by the same in both texts. -/
theorem head?_eq {cs ds : List Char} (h : Reworded cs ds)
    (hcs : ∀ c, cs.head? = some c → isWordPart c = false) : ds.head? = cs.head? := by
  cases cs with
  | nil => rw [h.eq_nil]
  | cons c cs =>
    obtain ⟨rest, rfl, _⟩ := h.exists_cons (hcs c rfl)
    rfl

end Reworded

/-! ## Quotes and comments -/

/-- Whether a quoted text is closed. The text is what stands behind the opening quote; it may
begin behind a backslash. -/
def closes (quote : Char) (multiline : Bool) : (escaped : Bool) → List Char → Bool
  | _, [] => false
  | true, c :: cs => c ≠ '\n' && closes quote multiline false cs
  | false, c :: cs =>
    if c = '\\' then closes quote multiline true cs
    else c = quote || (!(c = '\n' && !multiline) && closes quote multiline false cs)

theorem isSome_quotedLength {quote : Char} (hquote : quote ≠ '\\') (multiline : Bool)
    (cs : List Char) :
    (quotedLength quote multiline cs).isSome = closes quote multiline false cs := by
  fun_induction quotedLength quote multiline cs with
  | case1 => rfl
  | case2 cs => simp [closes]
  | case3 c cs hc ih => simp [closes, hc, ih]
  | case4 cs => simp [closes, hquote]
  | case5 c cs hescape hquoted hstop =>
    rw [Bool.or_eq_true, decide_eq_true_eq] at hstop
    rcases hstop with rfl | hline
    · -- a backslash is last in the text
      cases cs with
      | nil => rfl
      | cons d cs => exact (hescape d cs rfl rfl).elim
    · rw [Bool.and_eq_true, decide_eq_true_eq] at hline
      simp [closes, hline.1, hline.2, hline.1 ▸ hquoted]
  | case6 c cs hescape hquoted hgo ih =>
    rw [Bool.or_eq_true, not_or, decide_eq_true_eq] at hgo
    simp [closes, hgo.1, hquoted, ih, hgo.2]

/-- Characters of words neither close a quoted text nor keep it open. -/
theorem closes_append_of_isWordPart {quote : Char} (hquote : isWordPart quote = false)
    (multiline : Bool) {v : List Char} (hv : ∀ c ∈ v, isWordPart c = true) (cs : List Char) :
    closes quote multiline false (v ++ cs) = closes quote multiline false cs := by
  induction v with
  | nil => rfl
  | cons c v ih =>
    have hc := hv c List.mem_cons_self
    have hescape : c ≠ '\\' := ne_of_isWordPart hc (isWordPart_eq_false_of_mem (by simp))
    have hline : c ≠ '\n' := ne_of_isWordPart hc (isWordPart_eq_false_of_mem (by simp))
    have hclose : c ≠ quote := ne_of_isWordPart hc hquote
    rw [List.cons_append, closes, if_neg hescape, ih fun d hd => hv d (List.mem_cons_of_mem c hd)]
    simp [hline, hclose]

theorem closes_append_of_isRun {quote : Char} (hquote : isWordPart quote = false)
    (multiline escaped : Bool) {v : List Char} (hv : IsRun v) (cs : List Char) :
    closes quote multiline escaped (v ++ cs) = closes quote multiline false cs := by
  cases escaped with
  | false => exact closes_append_of_isWordPart hquote multiline hv.2 cs
  | true =>
    cases v with
    | nil => exact absurd rfl hv.1
    | cons c v =>
      have hline : c ≠ '\n' :=
        ne_of_isWordPart (hv.2 c List.mem_cons_self) (isWordPart_eq_false_of_mem (by simp))
      have hrest := closes_append_of_isWordPart hquote multiline
        (fun d hd => hv.2 d (List.mem_cons_of_mem c hd)) cs
      rw [List.cons_append, closes, hrest]
      simp [hline]

theorem Reworded.closes_eq {quote : Char} (hquote : isWordPart quote = false) (multiline : Bool)
    {cs ds : List Char} (h : Reworded cs ds) (escaped : Bool) :
    closes quote multiline escaped ds = closes quote multiline escaped cs := by
  induction h generalizing escaped with
  | nil => rfl
  | same c _ ih => cases escaped <;> simp only [closes, ih]
  | word hv hw _ ih =>
    rw [closes_append_of_isRun hquote multiline escaped hv,
      closes_append_of_isRun hquote multiline escaped hw, ih]

/-- Whether a block comment is closed. The text may begin behind a `*`. -/
def closesComment : (starred : Bool) → List Char → Bool
  | _, [] => false
  | starred, c :: cs => (starred && c = '/') || closesComment (c = '*') cs

theorem isSome_blockCommentLength (cs : List Char) :
    (blockCommentLength cs).isSome = closesComment false cs := by
  fun_induction blockCommentLength cs with
  | case1 => rfl
  | case2 cs => simp [closesComment]
  | case3 c cs hclosed ih =>
    rw [Option.isSome_map, ih, closesComment, Bool.false_and, Bool.false_or]
    by_cases hstar : c = '*'
    · -- the `*` is not followed by a `/`, so it does not matter
      cases cs with
      | nil => rfl
      | cons d cs =>
        have hd : d ≠ '/' := fun heq => hclosed cs hstar (by rw [heq])
        simp [closesComment, hstar, hd]
    · simp [hstar]

theorem closesComment_append_of_isRun (starred : Bool) {v : List Char} (hv : IsRun v)
    (cs : List Char) : closesComment starred (v ++ cs) = closesComment false cs := by
  obtain ⟨hne, hv⟩ := hv
  induction v generalizing starred with
  | nil => exact absurd rfl hne
  | cons c v ih =>
    have hc := hv c List.mem_cons_self
    have hslash : c ≠ '/' := ne_of_isWordPart hc (isWordPart_eq_false_of_mem (by simp))
    have hstar : c ≠ '*' := ne_of_isWordPart hc (isWordPart_eq_false_of_mem (by simp))
    rw [List.cons_append, closesComment, decide_eq_false hslash, decide_eq_false hstar,
      Bool.and_false, Bool.false_or]
    cases v with
    | nil => rfl
    | cons d v => exact ih false (by simp) fun e he => hv e (List.mem_cons_of_mem c he)

theorem Reworded.closesComment_eq {cs ds : List Char} (h : Reworded cs ds) (starred : Bool) :
    closesComment starred ds = closesComment starred cs := by
  induction h generalizing starred with
  | nil => rfl
  | same c _ ih => simp only [closesComment, ih]
  | word hv hw _ ih =>
    rw [closesComment_append_of_isRun starred hv, closesComment_append_of_isRun starred hw, ih]

theorem Reworded.quotedLength_eq_none {quote : Char} (hquote : isWordPart quote = false)
    (hne : quote ≠ '\\') {multiline : Bool} {cs ds : List Char} (h : Reworded cs ds)
    (hnone : quotedLength quote multiline cs = none) :
    quotedLength quote multiline ds = none := by
  rw [← Option.not_isSome_iff_eq_none, isSome_quotedLength hne] at hnone ⊢
  rwa [h.closes_eq hquote multiline false]

theorem Reworded.blockCommentLength_eq_none {cs ds : List Char} (h : Reworded cs ds)
    (hnone : blockCommentLength cs = none) : blockCommentLength ds = none := by
  rw [← Option.not_isSome_iff_eq_none, isSome_blockCommentLength] at hnone ⊢
  rwa [h.closesComment_eq false]

/-- Where nothing quoted and no comment begins, none begins with other words behind. -/
theorem Reworded.inertLength_eq_none {c : Char} {cs ds : List Char} (h : Reworded cs ds)
    (hnone : inertLength (c :: cs) = none) : inertLength (c :: ds) = none := by
  unfold inertLength at hnone
  split at hnone
  · rename_i heq
    obtain ⟨rfl, rfl⟩ := List.cons.inj heq
    rw [Option.map_eq_none_iff] at hnone
    rw [inertLength, h.quotedLength_eq_none (by decide) (by decide) hnone]
    rfl
  · rename_i heq
    obtain ⟨rfl, rfl⟩ := List.cons.inj heq
    rw [Option.map_eq_none_iff] at hnone
    rw [inertLength, h.quotedLength_eq_none (by decide) (by decide) hnone]
    rfl
  · rename_i heq
    obtain ⟨rfl, rfl⟩ := List.cons.inj heq
    rw [Option.map_eq_none_iff] at hnone
    rw [inertLength, h.quotedLength_eq_none (by decide) (by decide) hnone]
    rfl
  · cases hnone
  · rename_i rest heq
    obtain ⟨rfl, rfl⟩ := List.cons.inj heq
    rw [Option.map_eq_none_iff] at hnone
    obtain ⟨rest', rfl, hrest⟩ := h.exists_cons (by decide)
    rw [inertLength, hrest.blockCommentLength_eq_none hnone]
    rfl
  · rename_i hdouble hsingle htemplate hline hblock
    unfold inertLength
    split
    · rename_i heq
      exact (hdouble cs (by rw [(List.cons.inj heq).1])).elim
    · rename_i heq
      exact (hsingle cs (by rw [(List.cons.inj heq).1])).elim
    · rename_i heq
      exact (htemplate cs (by rw [(List.cons.inj heq).1])).elim
    · rename_i heq
      obtain ⟨rfl, rfl⟩ := List.cons.inj heq
      obtain ⟨rest, rfl, _⟩ := h.symm.exists_cons (by decide)
      exact (hline rest rfl).elim
    · rename_i heq
      obtain ⟨rfl, rfl⟩ := List.cons.inj heq
      obtain ⟨rest, rfl, _⟩ := h.symm.exists_cons (by decide)
      exact (hblock rest rfl).elim
    · rfl

/-! ## What is inert stays inert -/

theorem quotedLength_cons {quote c : Char} (hc : c ≠ '\\') (multiline : Bool) (cs : List Char) :
    quotedLength quote multiline (c :: cs) =
      if c = quote then some 1
      else if c = '\n' && !multiline then none
      else (quotedLength quote multiline cs).map (· + 1) := by
  rw [quotedLength]
  · simp [hc]
  · intro d rest heq
    exact absurd heq hc

/-- A quoted text ends where it ends, whatever stands behind it. -/
theorem quotedLength_take {quote : Char} (hquote : quote ≠ '\\') {multiline : Bool}
    {cs : List Char} {n : Nat} (h : quotedLength quote multiline cs = some n) (ds : List Char) :
    quotedLength quote multiline (cs.take n ++ ds) = some n := by
  fun_induction quotedLength quote multiline cs generalizing n with
  | case1 => cases h
  | case2 cs => cases h
  | case3 c cs hc ih =>
    obtain ⟨m, hm, rfl⟩ := Option.map_eq_some_iff.mp h
    rw [List.take_succ_cons, List.take_succ_cons, List.cons_append, List.cons_append, quotedLength,
      if_neg hc, ih hm]
    rfl
  | case4 cs =>
    obtain rfl := Option.some.inj h
    rw [List.take_succ_cons, List.take_zero, List.singleton_append, quotedLength_cons hquote,
      if_pos rfl]
  | case5 c cs hescape hquoted hstop => cases h
  | case6 c cs hescape hquoted hgo ih =>
    obtain ⟨m, hm, rfl⟩ := Option.map_eq_some_iff.mp h
    rw [Bool.or_eq_true, not_or, decide_eq_true_eq] at hgo
    rw [List.take_succ_cons, List.cons_append, quotedLength_cons hgo.1, if_neg hquoted,
      if_neg hgo.2, ih hm]
    rfl

theorem two_le_of_blockCommentLength {cs : List Char} {n : Nat}
    (h : blockCommentLength cs = some n) : 2 ≤ n := by
  fun_induction blockCommentLength cs generalizing n with
  | case1 => cases h
  | case2 cs => exact Nat.le_of_eq (Option.some.inj h)
  | case3 c cs hclosed ih =>
    obtain ⟨m, hm, rfl⟩ := Option.map_eq_some_iff.mp h
    have := ih hm
    omega

theorem blockCommentLength_take {cs : List Char} {n : Nat} (h : blockCommentLength cs = some n)
    (ds : List Char) : blockCommentLength (cs.take n ++ ds) = some n := by
  fun_induction blockCommentLength cs generalizing n with
  | case1 => cases h
  | case2 cs =>
    obtain rfl := Option.some.inj h
    rfl
  | case3 c cs hclosed ih =>
    obtain ⟨m, hm, rfl⟩ := Option.map_eq_some_iff.mp h
    have htwo := two_le_of_blockCommentLength hm
    rw [List.take_succ_cons, List.cons_append, blockCommentLength, ih hm]
    · rfl
    · -- at least two characters are taken, so the one behind `c` is the same as before
      intro rest hstar hrest
      cases cs with
      | nil => cases hm
      | cons d cs =>
        obtain ⟨k, rfl⟩ := Nat.exists_eq_add_of_le' htwo
        rw [List.take_succ_cons, List.cons_append] at hrest
        exact hclosed cs hstar (by rw [(List.cons.inj hrest).1])

theorem take_length_takeWhile (p : Char → Bool) (cs : List Char) :
    cs.take (cs.takeWhile p).length = cs.takeWhile p :=
  (List.prefix_iff_eq_take.mp (List.takeWhile_prefix p)).symm

theorem drop_length_takeWhile (p : Char → Bool) (cs : List Char) :
    cs.drop (cs.takeWhile p).length = cs.dropWhile p := by
  calc cs.drop (cs.takeWhile p).length
      = (cs.takeWhile p ++ cs.dropWhile p).drop (cs.takeWhile p).length := by
        rw [List.takeWhile_append_dropWhile]
    _ = cs.dropWhile p := List.drop_left

theorem eq_false_of_head?_dropWhile {p : Char → Bool} {cs : List Char} {c : Char}
    (h : (cs.dropWhile p).head? = some c) : p c = false := by
  have hhead := List.head?_dropWhile_not p cs
  rw [h] at hhead
  exact hhead

/-- The front of a text that is taken while `p` holds, before something where it does not. -/
theorem takeWhile_append_of_head? {p : Char → Bool} {cs ds : List Char}
    (h : ∀ d, ds.head? = some d → p d = false) :
    (cs.takeWhile p ++ ds).takeWhile p = cs.takeWhile p := by
  have hds : ds.takeWhile p = [] := by
    cases ds with
    | nil => rfl
    | cons d ds => rw [List.takeWhile_cons_of_neg (by simp [h d rfl])]
  rw [List.takeWhile_append_of_pos fun c hc => (List.mem_takeWhile_imp hc), hds, List.append_nil]

/-- A quoted text or comment is what it is whatever stands behind it, but for the end of a line
behind a line comment. -/
theorem inertLength_take {cs : List Char} {n : Nat} (h : inertLength cs = some n) {ds : List Char}
    (hds : Reworded (cs.drop n) ds) : inertLength (cs.take n ++ ds) = some n := by
  unfold inertLength at h
  split at h
  · obtain ⟨m, hm, rfl⟩ := Option.map_eq_some_iff.mp h
    rw [List.take_succ_cons, List.cons_append, inertLength, quotedLength_take (by decide) hm]
    rfl
  · obtain ⟨m, hm, rfl⟩ := Option.map_eq_some_iff.mp h
    rw [List.take_succ_cons, List.cons_append, inertLength, quotedLength_take (by decide) hm]
    rfl
  · obtain ⟨m, hm, rfl⟩ := Option.map_eq_some_iff.mp h
    rw [List.take_succ_cons, List.cons_append, inertLength, quotedLength_take (by decide) hm]
    rfl
  · rename_i cs
    obtain rfl := Option.some.inj h
    rw [Nat.add_comm, List.drop_succ_cons, List.drop_succ_cons, drop_length_takeWhile] at hds
    -- the line ends behind the comment, and goes on ending there
    have hend : ∀ d, ds.head? = some d → decide (d ≠ '\n') = false := by
      intro d hd
      rw [hds.head?_eq fun c hc => ?_] at hd
      · exact eq_false_of_head?_dropWhile hd
      · have hline := eq_false_of_head?_dropWhile hc
        rw [decide_eq_false_iff_not, not_not] at hline
        rw [hline]
        exact isWordPart_eq_false_of_mem (by simp)
    rw [Nat.add_comm, List.take_succ_cons, List.take_succ_cons, take_length_takeWhile,
      List.cons_append, List.cons_append, inertLength, takeWhile_append_of_head? hend, Nat.add_comm]
  · obtain ⟨m, hm, rfl⟩ := Option.map_eq_some_iff.mp h
    rw [List.take_succ_cons, List.take_succ_cons, List.cons_append, List.cons_append, inertLength,
      blockCommentLength_take hm]
    rfl
  · cases h

/-! ## Pieces -/

/-- A piece and what may stand in its place: itself, or a word for a word. -/
inductive Replaces : Lexeme → Lexeme → Prop
  | refl (lexeme : Lexeme) : Replaces lexeme lexeme
  | word {v w : List Char} (hv : isWord v = true) (hw : isWord w = true) :
      Replaces (.word v) (.word w)

theorem Replaces.reworded {old new : Lexeme} (h : Replaces old new) {cs ds : List Char}
    (hrest : Reworded cs ds) : Reworded (old.text ++ cs) (new.text ++ ds) := by
  cases h with
  | refl => exact hrest.append_same old.text
  | word hv hw => exact .word (isRun_of_isWord hv) (isRun_of_isWord hw) hrest

theorem Replaces.text_ne_nil {old new : Lexeme} (h : Replaces old new) (hold : old.text ≠ []) :
    new.text ≠ [] := by
  cases h with
  | refl => exact hold
  | word _ hw => exact (isRun_of_isWord hw).1

theorem Replaces.reworded_reverse {old new : Lexeme} (h : Replaces old new) {cs ds : List Char}
    (hrest : Reworded cs ds) : Reworded (old.text.reverse ++ cs) (new.text.reverse ++ ds) := by
  cases h with
  | refl => exact hrest.append_same old.text.reverse
  | word hv hw => exact .word (isRun_of_isWord hv).reverse (isRun_of_isWord hw).reverse hrest

theorem reworded_flatMap {old new : List Lexeme} (h : List.Forall₂ Replaces old new) :
    Reworded (old.flatMap Lexeme.text) (new.flatMap Lexeme.text) := by
  induction h with
  | nil => exact .nil
  | cons hfirst _ ih => exact hfirst.reworded ih

theorem lexemesAfter_eq_lexemes_drop (skip : Nat) (cs : List Char) :
    lexemesAfter skip cs = lexemes (cs.drop skip) := by
  induction cs generalizing skip with
  | nil => cases skip <;> rfl
  | cons c cs ih =>
    cases skip with
    | zero => rfl
    | succ skip => rw [lexemesAfter, ih, List.drop_succ_cons]

/-- The pieces of a text are the first and those of the text behind it. -/
theorem lexemes_cons {c : Char} {cs rest : List Char}
    (h : (firstLexeme c cs).text ++ rest = c :: cs) :
    lexemes (c :: cs) = firstLexeme c cs :: lexemes rest := by
  obtain ⟨front, htext, _⟩ := text_firstLexeme c cs
  rw [htext, List.cons_append] at h
  rw [lexemes, lexemesAfter, lexemesAfter_eq_lexemes_drop, htext, List.length_cons,
    Nat.add_sub_cancel, ← (List.cons.inj h).2, List.drop_left]

theorem isWord_cons {c : Char} {cs : List Char} (hc : isWordStart c = true)
    (hcs : ∀ d ∈ cs, isWordPart d = true) : isWord (c :: cs) = true := by
  rw [isWord, hc, Bool.true_and, List.all_eq_true]
  exact hcs

theorem isWordPart_of_isWordStart {c : Char} (h : isWordStart c = true) : isWordPart c = true := by
  rw [isWordPart, h, Bool.true_or]

/-- Neither a quoted text nor a comment begins like a word. -/
theorem inertLength_of_isWordPart {c : Char} (h : isWordPart c = true) (cs : List Char) :
    inertLength (c :: cs) = none := by
  have hne : ∀ d ∈ ['\\', '"', '\'', '\x60', '\n', '/', '*', '.'], c ≠ d :=
    fun d hd => ne_of_isWordPart h (isWordPart_eq_false_of_mem hd)
  unfold inertLength
  split
  · rename_i heq
    exact absurd (List.cons.inj heq).1 (hne _ (by simp))
  · rename_i heq
    exact absurd (List.cons.inj heq).1 (hne _ (by simp))
  · rename_i heq
    exact absurd (List.cons.inj heq).1 (hne _ (by simp))
  · rename_i heq
    exact absurd (List.cons.inj heq).1 (hne _ (by simp))
  · rename_i heq
    exact absurd (List.cons.inj heq).1 (hne _ (by simp))
  · rfl

/-- A word is read up to where no word goes on. -/
theorem firstLexeme_of_isWord {c : Char} {cs rest : List Char} (hword : isWord (c :: cs) = true)
    (hrest : ∀ d, rest.head? = some d → isWordPart d = false) :
    firstLexeme c (cs ++ rest) = .word (c :: cs) := by
  rw [isWord, Bool.and_eq_true, List.all_eq_true] at hword
  have hcs : cs.takeWhile isWordPart = cs := List.takeWhile_eq_self_iff.mpr hword.2
  have hend : (cs.takeWhile isWordPart ++ rest).takeWhile isWordPart = cs.takeWhile isWordPart :=
    takeWhile_append_of_head? hrest
  rw [hcs] at hend
  rw [firstLexeme, inertLength_of_isWordPart (isWordPart_of_isWordStart hword.1)]
  simp only [hword.1, if_true, hend]

theorem firstLexeme_of_inertLength_eq_some {c : Char} {cs : List Char} {n : Nat}
    (h : inertLength (c :: cs) = some n) : firstLexeme c cs = .inert ((c :: cs).take n) := by
  rw [firstLexeme, h]

theorem firstLexeme_of_inertLength_eq_none {c : Char} {cs : List Char}
    (h : inertLength (c :: cs) = none) :
    firstLexeme c cs =
      if isWordStart c then .word (c :: cs.takeWhile isWordPart) else .other c := by
  rw [firstLexeme, h]

/-- A quoted text or comment stays what is read first. -/
theorem firstLexeme_inert {c : Char} {cs rest : List Char} {n : Nat}
    (h : inertLength (c :: cs) = some n) (hrest : Reworded ((c :: cs).drop n) rest) :
    ∀ d ds, (c :: cs).take n ++ rest = d :: ds → firstLexeme d ds = .inert ((c :: cs).take n) := by
  intro d ds hds
  have hlength := inertLength_take h hrest
  rw [hds] at hlength
  rw [firstLexeme_of_inertLength_eq_some hlength, ← hds]
  by_cases hle : n ≤ (c :: cs).length
  · rw [List.take_append_of_le_length (by rw [List.length_take]; omega), List.take_take,
      Nat.min_self]
  · -- the text is at its end
    rw [List.drop_eq_nil_of_le (by omega)] at hrest
    rw [hrest.eq_nil, List.append_nil, List.take_take, Nat.min_self]

/-- What stands first in a text stands there with other words behind it, and if it is a word it
can be replaced by one. -/
theorem firstLexeme_of_replaces {c d : Char} {cs ds rest rest' : List Char} {new : Lexeme}
    (hcs : (firstLexeme c cs).text ++ rest = c :: cs) (hrest : Reworded rest rest')
    (hnew : Replaces (firstLexeme c cs) new) (hds : new.text ++ rest' = d :: ds) :
    firstLexeme d ds = new := by
  cases hinert : inertLength (c :: cs) with
  | some n =>
    rw [firstLexeme_of_inertLength_eq_some hinert] at hcs hnew
    cases hnew
    have hdrop : rest = (c :: cs).drop n :=
      List.append_cancel_left (hcs.trans (List.take_append_drop n (c :: cs)).symm)
    rw [hdrop] at hrest
    exact firstLexeme_inert hinert hrest d ds hds
  | none =>
    rw [firstLexeme_of_inertLength_eq_none hinert] at hcs hnew
    by_cases hstart : isWordStart c = true
    · rw [if_pos hstart] at hcs hnew
      have hword : isWord (c :: cs.takeWhile isWordPart) = true :=
        isWord_cons hstart fun e he => List.mem_takeWhile_imp he
      have hsplit : cs.takeWhile isWordPart ++ rest =
          cs.takeWhile isWordPart ++ cs.dropWhile isWordPart :=
        (List.cons.inj hcs).2.trans List.takeWhile_append_dropWhile.symm
      have hdrop : rest = cs.dropWhile isWordPart := List.append_cancel_left hsplit
      -- no word goes on behind it, before or after
      have hend : ∀ e, rest'.head? = some e → isWordPart e = false := by
        intro e he
        rw [hrest.head?_eq fun e he => eq_false_of_head?_dropWhile (hdrop ▸ he), hdrop] at he
        exact eq_false_of_head?_dropWhile he
      obtain ⟨w, hw, rfl⟩ : ∃ w, isWord w = true ∧ new = .word w := by
        cases hnew with
        | refl => exact ⟨_, hword, rfl⟩
        | word _ hw => exact ⟨_, hw, rfl⟩
      cases w with
      | nil => cases hw
      | cons e w =>
        obtain ⟨rfl, rfl⟩ := List.cons.inj hds
        exact firstLexeme_of_isWord hw hend
    · rw [if_neg hstart] at hcs hnew
      cases hnew
      have hdrop : rest = cs := (List.cons.inj hcs).2
      obtain ⟨rfl, rfl⟩ : c = d ∧ rest' = ds := List.cons.inj hds
      rw [hdrop] at hrest
      rw [firstLexeme_of_inertLength_eq_none (hrest.inertLength_eq_none hinert), if_neg hstart]

/-- Where pieces of a text are replaced, the text that comes out has the new pieces. -/
theorem lexemes_of_replaces {old new : List Lexeme} (h : List.Forall₂ Replaces old new)
    (hold : lexemes (old.flatMap Lexeme.text) = old) :
    lexemes (new.flatMap Lexeme.text) = new := by
  induction h with
  | nil => rfl
  | @cons first first' rest rest' hfirst hrest ih =>
    rw [List.flatMap_cons] at hold ⊢
    cases hcs : first.text ++ rest.flatMap Lexeme.text with
    | nil =>
      rw [hcs] at hold
      cases hold
    | cons c cs =>
      rw [hcs] at hold
      have hread : firstLexeme c cs = first := (List.cons.inj hold).1
      rw [← hread] at hcs hfirst
      rw [lexemes_cons hcs] at hold
      have hnew := ih (List.cons.inj hold).2
      cases hds : first'.text ++ rest'.flatMap Lexeme.text with
      | nil =>
        -- no piece is empty
        obtain ⟨front, hfront, _⟩ := text_firstLexeme c cs
        exact absurd (List.append_eq_nil_iff.mp hds).1 (hfirst.text_ne_nil (by simp [hfront]))
      | cons d ds =>
        have hread' : firstLexeme d ds = first' :=
          firstLexeme_of_replaces hcs (reworded_flatMap hrest) hfirst hds
        rw [← hread'] at hds
        rw [lexemes_cons hds, hread', hnew]

/-! ## Words that name types -/

theorem Reworded.dropWhile_isBlank {cs ds : List Char} (h : Reworded cs ds) :
    Reworded (cs.dropWhile Text.isBlank) (ds.dropWhile Text.isBlank) := by
  induction h with
  | nil => exact .nil
  | @same c cs ds h ih =>
    by_cases hblank : Text.isBlank c = true
    · rw [List.dropWhile_cons_of_pos hblank, List.dropWhile_cons_of_pos hblank]
      exact ih
    · rw [List.dropWhile_cons_of_neg hblank, List.dropWhile_cons_of_neg hblank]
      exact .same c h
  | @word v w cs ds hv hw h _ =>
    have hkept : ∀ {u es : List Char}, IsRun u → (u ++ es).dropWhile Text.isBlank = u ++ es := by
      intro u es hu
      cases u with
      | nil => exact absurd rfl hu.1
      | cons c u =>
        have hc := isBlank_eq_false_of_isWordPart (hu.2 c List.mem_cons_self)
        rw [List.cons_append, List.dropWhile_cons_of_neg (by simp [hc])]
    rw [hkept hv, hkept hw]
    exact .word hv hw h

/-- How many dots a text begins with. -/
def dots (cs : List Char) : Nat := (cs.takeWhile (· = '.')).length

theorem dots_cons_dot (cs : List Char) : dots ('.' :: cs) = dots cs + 1 := rfl

theorem dots_of_head?_ne {cs : List Char} (h : ∀ rest, cs ≠ '.' :: rest) : dots cs = 0 := by
  cases cs with
  | nil => rfl
  | cons c cs =>
    have hc : c ≠ '.' := fun heq => h cs (by rw [heq])
    rw [dots, List.takeWhile_cons_of_neg (by simpa using hc), List.length_nil]

/-- One dot is a member access, and so are two; three are not. -/
theorem endsInAccess_eq (before : List Char) :
    endsInAccess before = decide (dots (before.dropWhile Text.isBlank) = 1 ∨
      dots (before.dropWhile Text.isBlank) = 2) := by
  unfold endsInAccess
  split
  · rename_i heq
    rw [heq, dots_cons_dot, dots_cons_dot, dots_cons_dot]
    simp
  · rename_i rest hthree heq
    have hrest : dots rest < 2 := by
      by_cases htwo : ∃ behind, rest = '.' :: behind
      · obtain ⟨behind, rfl⟩ := htwo
        rw [dots_cons_dot, dots_of_head?_ne fun others h => hthree others (by rw [h])]
        omega
      · rw [dots_of_head?_ne fun behind h => htwo ⟨behind, h⟩]
        omega
    rw [heq, dots_cons_dot]
    simp only [true_eq_decide_iff]
    omega
  · rename_i hnone
    rw [dots_of_head?_ne hnone]
    simp

theorem Reworded.dots_eq {cs ds : List Char} (h : Reworded cs ds) : dots ds = dots cs := by
  induction h with
  | nil => rfl
  | @same c cs ds _ ih =>
    by_cases hc : c = '.'
    · rw [hc, dots_cons_dot, dots_cons_dot, ih]
    · rw [dots_of_head?_ne (by simpa using hc), dots_of_head?_ne (by simpa using hc)]
  | word hv hw _ _ =>
    have hnone : ∀ {u es : List Char}, IsRun u → dots (u ++ es) = 0 := by
      intro u es hu
      cases u with
      | nil => exact absurd rfl hu.1
      | cons c u =>
        have hc : c ≠ '.' :=
          ne_of_isWordPart (hu.2 c List.mem_cons_self) (isWordPart_eq_false_of_mem (by simp))
        exact dots_of_head?_ne (by simpa using hc)
    rw [hnone hv, hnone hw]

/-- Whether a text ends in a member access does not depend on its words. -/
theorem Reworded.endsInAccess_eq {cs ds : List Char} (h : Reworded cs ds) :
    endsInAccess ds = endsInAccess cs := by
  rw [Verbatim.endsInAccess_eq, Verbatim.endsInAccess_eq, h.dropWhile_isBlank.dots_eq]

/-! ## Replacing one word -/

/-- A marked piece with the word `old` replaced by `new`. -/
def replaceWord (old new : String) (piece : Lexeme × Bool) : Lexeme × Bool :=
  if piece.2 && piece.1.text = old.toList then (.word new.toList, piece.2) else piece

theorem rename_eq (text old new : String) :
    rename text old new = String.ofList
      (((marked text.toList).map (replaceWord old new)).flatMap (·.1.text)) := by
  have hpiece : ∀ piece : Lexeme × Bool, (replaceWord old new piece).1.text =
      if piece.2 && piece.1.text = old.toList then new.toList else piece.1.text := by
    intro piece
    unfold replaceWord
    split <;> rfl
  rw [rename, List.flatMap_map]
  simp only [hpiece]

/-- A piece that is replaced is a word, and replaced by one. -/
theorem replaces_replaceWord {old new : String} (hnew : isIdentifier new = true)
    {piece : Lexeme × Bool} (hmark : piece.2 = true → ∃ v, piece.1 = .word v ∧ isWord v = true) :
    Replaces piece.1 (replaceWord old new piece).1 := by
  unfold replaceWord
  split
  · rename_i h
    rw [Bool.and_eq_true] at h
    obtain ⟨v, hword, hv⟩ := hmark h.1
    rw [hword]
    exact .word hv hnew
  · exact .refl piece.1

/-- Every word of a text is one. -/
theorem isWord_of_mem_lexemes {v : List Char} {pieces : List Lexeme}
    (hpieces : lexemes (pieces.flatMap Lexeme.text) = pieces) (h : .word v ∈ pieces) :
    isWord v = true := by
  induction pieces with
  | nil => cases h
  | cons first rest ih =>
    rw [List.flatMap_cons] at hpieces
    cases hcs : first.text ++ rest.flatMap Lexeme.text with
    | nil =>
      rw [hcs] at hpieces
      cases hpieces
    | cons c cs =>
      rw [hcs] at hpieces
      have hread : firstLexeme c cs = first := (List.cons.inj hpieces).1
      rw [← hread] at hcs
      rw [lexemes_cons hcs] at hpieces
      rcases List.mem_cons.mp h with heq | hmem
      · rw [← heq] at hread
        cases hinert : inertLength (c :: cs) with
        | some n =>
          rw [firstLexeme_of_inertLength_eq_some hinert] at hread
          cases hread
        | none =>
          rw [firstLexeme_of_inertLength_eq_none hinert] at hread
          split at hread
          · rename_i hstart
            obtain rfl := Lexeme.word.inj hread
            exact isWord_cons hstart fun e he => List.mem_takeWhile_imp he
          · cases hread
      · exact ih (List.cons.inj hpieces).2 hmem

/-- Whether a piece behind some text, given back to front, is a word that can name a type. -/
def names (before : List Char) : Lexeme → Bool
  | .word _ => !endsInAccess before
  | _ => false

theorem markedFrom_cons (before : List Char) (first : Lexeme) (rest : List Lexeme) :
    markedFrom before (first :: rest) =
      (first, names before first) :: markedFrom (first.text.reverse ++ before) rest := by
  cases first <;> rfl

/-- Only words are marked. -/
theorem exists_word_of_names {before : List Char} {piece : Lexeme}
    (h : names before piece = true) : ∃ v, piece = .word v := by
  cases piece with
  | word v => exact ⟨v, rfl⟩
  | _ => cases h

theorem exists_word_of_mem_markedFrom {before : List Char} {pieces : List Lexeme}
    {piece : Lexeme × Bool} (h : piece ∈ markedFrom before pieces) (hmark : piece.2 = true) :
    ∃ v, piece.1 = .word v ∧ .word v ∈ pieces := by
  induction pieces generalizing before with
  | nil => cases h
  | cons first rest ih =>
    rw [markedFrom_cons] at h
    rcases List.mem_cons.mp h with heq | hmem
    · rw [heq] at hmark ⊢
      obtain ⟨v, rfl⟩ := exists_word_of_names hmark
      exact ⟨v, rfl, List.mem_cons_self⟩
    · obtain ⟨v, hword, hv⟩ := ih hmem
      exact ⟨v, hword, List.mem_cons_of_mem first hv⟩

theorem Replaces.names_eq {old new : Lexeme} (h : Replaces old new) {before before' : List Char}
    (hbefore : Reworded before before') : names before' new = names before old := by
  cases h with
  | refl => cases old <;> simp only [names, hbefore.endsInAccess_eq]
  | word => simp only [names, hbefore.endsInAccess_eq]

theorem replaceWord_snd (old new : String) (piece : Lexeme × Bool) :
    (replaceWord old new piece).2 = piece.2 := by
  unfold replaceWord
  split <;> rfl

/-- Pieces that are replaced are marked as before. -/
theorem markedFrom_map_replaceWord {old new : String} (hnew : isIdentifier new = true)
    {before before' : List Char} (hbefore : Reworded before before') {pieces : List Lexeme}
    (hwords : ∀ v, .word v ∈ pieces → isWord v = true) :
    markedFrom before' (((markedFrom before pieces).map (replaceWord old new)).map Prod.fst) =
      (markedFrom before pieces).map (replaceWord old new) := by
  induction pieces generalizing before before' with
  | nil => rfl
  | cons first rest ih =>
    have hfirst : Replaces first (replaceWord old new (first, names before first)).1 := by
      show Replaces (Prod.fst (first, names before first)) _
      apply replaces_replaceWord hnew
      intro hmark
      obtain ⟨v, rfl⟩ := exists_word_of_names hmark
      exact ⟨v, rfl, hwords v List.mem_cons_self⟩
    have hrest := ih (hfirst.reworded_reverse hbefore)
      fun v hv => hwords v (List.mem_cons_of_mem first hv)
    rw [markedFrom_cons, List.map_cons, List.map_cons, markedFrom_cons, hrest,
      hfirst.names_eq hbefore]
    congr 1
    exact Prod.ext rfl (replaceWord_snd old new (first, names before first)).symm

theorem lexemes_text_lexemes (text : List Char) :
    lexemes ((lexemes text).flatMap Lexeme.text) = lexemes text := by
  rw [text_lexemes]

/-- The pieces of a text with a word replaced are those of the text, with that word replaced. -/
theorem marked_rename (text old : String) {new : String} (h : isIdentifier new = true) :
    marked (rename text old new).toList = (marked text.toList).map (replaceWord old new) := by
  have hwords : ∀ v, .word v ∈ lexemes text.toList → isWord v = true :=
    fun v hv => isWord_of_mem_lexemes (lexemes_text_lexemes text.toList) hv
  have hreplaces : List.Forall₂ Replaces (lexemes text.toList)
      (((marked text.toList).map (replaceWord old new)).map Prod.fst) := by
    rw [List.map_map]
    conv => arg 2; rw [← map_fst_markedFrom [] (lexemes text.toList)]
    rw [List.forall₂_map_left_iff, List.forall₂_map_right_iff, marked, List.forall₂_same]
    intro piece hpiece
    apply replaces_replaceWord h
    intro hmark
    obtain ⟨v, hword, hv⟩ := exists_word_of_mem_markedFrom hpiece hmark
    exact ⟨v, hword, hwords v hv⟩
  have htext : (rename text old new).toList =
      (((marked text.toList).map (replaceWord old new)).map Prod.fst).flatMap Lexeme.text := by
    rw [rename_eq, String.toList_ofList]
    simp only [List.flatMap_map]
  rw [htext, marked, lexemes_of_replaces hreplaces (lexemes_text_lexemes text.toList)]
  exact markedFrom_map_replaceWord h .nil hwords

/-- Every marked piece is one of the words. -/
theorem exists_mem_wordsFrom {pieces : List (Lexeme × Bool)} {piece : Lexeme × Bool}
    (h : piece ∈ pieces) (hmark : piece.2 = true) (offset : Nat) :
    ∃ word ∈ wordsFrom offset pieces, word.2 = String.ofList piece.1.text := by
  induction pieces generalizing offset with
  | nil => cases h
  | cons first rest ih =>
    rcases List.mem_cons.mp h with rfl | hmem
    · refine ⟨(offset, String.ofList piece.1.text), ?_, rfl⟩
      rw [wordsFrom]
      simp only [hmark, if_true]
      exact List.mem_cons_self
    · obtain ⟨word, hword, htext⟩ := ih hmem (offset + Text.byteLength first.1.text)
      refine ⟨word, ?_, htext⟩
      rw [wordsFrom]
      split
      · exact List.mem_cons_of_mem _ hword
      · exact hword

/-- A word that is replaced by one that the text does not have, and that by a third, might as well
be replaced by the third. -/
theorem rename_rename (text old new : String) {between : String}
    (hbetween : isIdentifier between = true) (hfresh : ∀ word ∈ words text, word.2 ≠ between) :
    rename (rename text old between) between new = rename text old new := by
  have hpiece : ∀ piece ∈ marked text.toList,
      replaceWord between new (replaceWord old between piece) = replaceWord old new piece := by
    intro piece hpiece
    have hother : piece.2 = true → piece.1.text ≠ between.toList := by
      intro hmark heq
      obtain ⟨word, hword, htext⟩ := exists_mem_wordsFrom hpiece hmark 0
      apply hfresh word hword
      rw [htext, heq, String.ofList_toList]
    by_cases hold : (piece.2 && piece.1.text = old.toList) = true
    · have hmark : piece.2 = true := (Bool.and_eq_true_iff.mp hold).1
      rw [replaceWord, replaceWord, replaceWord, if_pos hold, if_pos hold,
        if_pos (by simp [hmark, Lexeme.text])]
    · have hkept : ¬(piece.2 && piece.1.text = between.toList) = true := by
        rw [Bool.and_eq_true, decide_eq_true_eq]
        exact fun h => hother h.1 h.2
      rw [replaceWord, replaceWord, replaceWord, if_neg hold, if_neg hold, if_neg hkept]
  rw [rename_eq, marked_rename text old hbetween, List.map_map, rename_eq]
  congr 2
  exact List.map_congr_left hpiece

end Declutter.Verbatim
