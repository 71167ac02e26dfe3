import Declutter.Proofs.Lexical.Elements
import Declutter.Proofs.Rewording
import Declutter.Proofs.RoundTrip.Tokens

/-!
# Where elements end

An element is read as it is whatever stands behind it, as long as a name does not come to stand
where none stood (`bounded_scan`). `Spelled` says what is written where an element of a kind is
read, and `Reads` that a list of elements is what its text is cut into.
-/

namespace Declutter.Lexical

open Syntax (startsWord continuesWord isLineEnd isGapBlank regexLength startsWord_of_isDigit)
open Verbatim (blockCommentLength blockCommentLength_take takeWhile_append_of_head?
  eq_false_of_head?_dropWhile)

/-! ## Where an element ends -/

/-- No name goes on where a text begins. -/
def Ends (rest : List Char) : Prop := ∀ c, rest.head? = some c → continuesWord c = false

/-- A text begins as another does: with the same character, or both with a name. -/
def Meets (rest rest' : List Char) : Prop :=
  rest'.head? = rest.head? ∨
    ∃ c d, rest.head? = some c ∧ rest'.head? = some d ∧ startsWord c = true ∧ startsWord d = true

theorem continuesWord_of_startsWord {c : Char} (h : startsWord c = true) :
    continuesWord c = true := by
  rw [continuesWord, h]
  rfl

theorem Meets.head?_eq {rest rest' : List Char} (h : Meets rest rest') (hends : Ends rest) :
    rest'.head? = rest.head? := by
  obtain heq | ⟨c, d, hc, _, hstart, _⟩ := h
  · exact heq
  · have hword := continuesWord_of_startsWord hstart
    rw [hends c hc] at hword
    cases hword

theorem Ends.of_head?_eq {rest rest' : List Char} (h : Ends rest)
    (hhead : rest'.head? = rest.head?) : Ends rest' := by
  rw [Ends, hhead]
  exact h

theorem ends_dropWhile (cs : List Char) : Ends (cs.dropWhile continuesWord) :=
  fun _ h => eq_false_of_head?_dropWhile h

theorem takeWhile_append_of_ends {rest : List Char} (h : Ends rest) (cs : List Char) :
    (cs ++ rest).takeWhile continuesWord = cs.takeWhile continuesWord := by
  have hrest : rest.takeWhile continuesWord = [] := by
    cases rest with
    | nil => rfl
    | cons c rest => rw [List.takeWhile_cons_of_neg (by simp [h c rfl])]
  rw [List.takeWhile_append, hrest, List.append_nil]
  split
  · rename_i hlength
    exact (List.takeWhile_prefix continuesWord).eq_of_length hlength |>.symm
  · rfl

theorem dropWhile_append_of_ends {rest : List Char} (h : Ends rest) (cs : List Char) :
    (cs ++ rest).dropWhile continuesWord = cs.dropWhile continuesWord ++ rest := by
  have hsplit := List.takeWhile_append_dropWhile (p := continuesWord) (l := cs ++ rest)
  rw [takeWhile_append_of_ends h] at hsplit
  conv at hsplit => rhs; rw [← List.takeWhile_append_dropWhile (p := continuesWord) (l := cs)]
  rw [List.append_assoc] at hsplit
  exact List.append_cancel_left hsplit

theorem stringLength_cons {quote c : Char} (hc : c ≠ '\\') (cs : List Char) :
    stringLength quote (c :: cs) =
      if c = quote then some 1
      else if c = '\n' || c = '\r' then none
      else (stringLength quote cs).map (· + 1) := by
  rw [stringLength]
  · intro cs heq
    exact absurd heq hc
  · intro d cs heq
    exact absurd heq hc

theorem stringLength_escape {quote c : Char} {cs : List Char}
    (h : c = '\r' → cs.head? ≠ some '\n') :
    stringLength quote ('\\' :: c :: cs) = (stringLength quote cs).map (· + 2) := by
  rw [stringLength]
  intro rest hc hcs
  exact h hc (by rw [hcs]; rfl)

/-- A string is as long whatever stands behind it. -/
theorem exists_of_stringLength {quote : Char} (hquote : quote ≠ '\\') {cs : List Char} {n : Nat}
    (h : stringLength quote cs = some n) :
    ∃ body rest, cs = body ++ rest ∧ body.length = n ∧
      ∀ rest', stringLength quote (body ++ rest') = some n := by
  fun_induction stringLength quote cs generalizing n with
  | case1 => cases h
  | case2 cs ih =>
    obtain ⟨m, hm, rfl⟩ := Option.map_eq_some_iff.mp h
    obtain ⟨body, rest, rfl, hlength, hbody⟩ := ih hm
    refine ⟨'\\' :: '\r' :: '\n' :: body, rest, rfl, by simp [hlength], fun rest' => ?_⟩
    simp only [List.cons_append, stringLength, hbody, Option.map_some]
  | case3 c cs hreturn ih =>
    obtain ⟨m, hm, rfl⟩ := Option.map_eq_some_iff.mp h
    obtain ⟨body, rest, rfl, hlength, hbody⟩ := ih hm
    -- the closing quote stands in `body`, so that no line feed can come behind `c` from `rest'`
    refine ⟨'\\' :: c :: body, rest, rfl, by simp [hlength], fun rest' => ?_⟩
    rw [List.cons_append, List.cons_append, stringLength_escape, hbody, Option.map_some]
    cases body with
    | nil => cases hbody []
    | cons d body => exact fun hc hd => hreturn _ hc (by rw [Option.some.inj hd]; rfl)
  | case4 cs =>
    obtain rfl := Option.some.inj h
    refine ⟨[quote], cs, rfl, rfl, fun rest' => ?_⟩
    rw [List.singleton_append, stringLength_cons hquote, if_pos rfl]
  | case5 c cs hreturn hescape hquoted hstop => cases h
  | case6 c cs hreturn hescape hquoted hgo ih =>
    obtain ⟨m, hm, rfl⟩ := Option.map_eq_some_iff.mp h
    obtain ⟨body, rest, rfl, hlength, hbody⟩ := ih hm
    have hc : c ≠ '\\' := by
      rintro rfl
      cases hcs : body ++ rest with
      | nil =>
        rw [hcs] at hm
        cases hm
      | cons d cs => exact hescape d cs rfl hcs
    refine ⟨c :: body, rest, rfl, by simp [hlength], fun rest' => ?_⟩
    rw [List.cons_append, stringLength_cons hc, if_neg hquoted, if_neg hgo, hbody, Option.map_some]

theorem exists_of_templateLength {cs : List Char} {n : Nat} (h : templateLength cs = some n) :
    ∃ body rest, cs = body ++ rest ∧ body.length = n ∧
      ∀ rest', templateLength (body ++ rest') = some n := by
  fun_induction templateLength cs generalizing n with
  | case1 => cases h
  | case2 c cs ih =>
    obtain ⟨m, hm, rfl⟩ := Option.map_eq_some_iff.mp h
    obtain ⟨body, rest, rfl, hlength, hbody⟩ := ih hm
    refine ⟨'\\' :: c :: body, rest, rfl, by simp [hlength], fun rest' => ?_⟩
    rw [List.cons_append, List.cons_append, templateLength, hbody, Option.map_some]
  | case3 cs =>
    obtain rfl := Option.some.inj h
    exact ⟨['\x60'], cs, rfl, rfl, fun rest' => rfl⟩
  | case4 cs =>
    obtain rfl := Option.some.inj h
    exact ⟨['$', '\x7b'], cs, rfl, rfl, fun rest' => rfl⟩
  | case5 c cs hescape hend hsubstitution ih =>
    obtain ⟨m, hm, rfl⟩ := Option.map_eq_some_iff.mp h
    obtain ⟨body, rest, rfl, hlength, hbody⟩ := ih hm
    refine ⟨c :: body, rest, rfl, by simp [hlength], fun rest' => ?_⟩
    cases body with
    | nil => cases hbody []
    | cons d body =>
      rw [List.cons_append, templateLength, hbody, Option.map_some]
      -- neither an escape nor a substitution begins with `c`, as `d` is there whatever follows
      · exact fun e cs hc hcs => hescape d (body ++ rest) hc rfl
      · exact hend
      · intro cs hc hcs
        exact hsubstitution (body ++ rest) hc (by rw [List.cons_append, (List.cons.inj hcs).1])

theorem exists_of_blockCommentLength {cs : List Char} {n : Nat}
    (h : blockCommentLength cs = some n) :
    ∃ body rest, cs = body ++ rest ∧ body.length = n ∧
      ∀ rest', blockCommentLength (body ++ rest') = some n := by
  have hle : n ≤ cs.length := by
    fun_induction blockCommentLength cs generalizing n with
    | case1 => cases h
    | case2 cs =>
      obtain rfl := Option.some.inj h
      simp
    | case3 c cs hclosed ih =>
      obtain ⟨m, hm, rfl⟩ := Option.map_eq_some_iff.mp h
      exact Nat.succ_le_succ (ih hm)
  exact ⟨cs.take n, cs.drop n, (List.take_append_drop n cs).symm, List.length_take_of_le hle,
    blockCommentLength_take h⟩

theorem exists_of_regexLength {inClass escaped : Bool} {cs : List Char} {n : Nat}
    (h : regexLength inClass escaped cs = some n) :
    ∃ body rest, cs = body ++ '/' :: rest ∧ body.length = n ∧
      ∀ rest', regexLength inClass escaped (body ++ '/' :: rest') = some n := by
  induction cs generalizing inClass escaped n with
  | nil => cases h
  | cons c cs ih =>
    rw [regexLength] at h
    split_ifs at h with hline hescaped hclosed
    · obtain ⟨m, hm, rfl⟩ := Option.map_eq_some_iff.mp h
      obtain ⟨body, rest, rfl, hlength, hbody⟩ := ih hm
      refine ⟨c :: body, rest, rfl, by simp [hlength], fun rest' => ?_⟩
      rw [List.cons_append, regexLength, if_neg hline, if_pos hescaped, hbody, Option.map_some]
    · obtain rfl := Option.some.inj h
      obtain ⟨rfl, hclass⟩ : c = '/' ∧ inClass = false := by simpa using hclosed
      refine ⟨[], cs, rfl, rfl, fun rest' => ?_⟩
      rw [List.nil_append, regexLength, if_neg hline, if_neg hescaped, if_pos hclosed]
    · obtain ⟨m, hm, rfl⟩ := Option.map_eq_some_iff.mp h
      obtain ⟨body, rest, rfl, hlength, hbody⟩ := ih hm
      refine ⟨c :: body, rest, rfl, by simp [hlength], fun rest' => ?_⟩
      rw [List.cons_append, regexLength, if_neg hline, if_neg hescaped, if_neg hclosed, hbody,
        Option.map_some]

theorem head?_append_eq {rest rest' : List Char} (h : rest'.head? = rest.head?)
    (body : List Char) : (body ++ rest').head? = (body ++ rest).head? := by
  rw [List.head?_append, List.head?_append, h]

/-- What stands in a number behind its first character. -/
def isNumberPart (c : Char) : Bool := continuesWord c || c = '.' || c = '+' || c = '-'

theorem isNumberPart_of_mem_takeWhile {cs : List Char} {c : Char}
    (h : c ∈ cs.takeWhile continuesWord) : isNumberPart c = true := by
  have hc : continuesWord c = true := List.mem_takeWhile_imp h
  rw [isNumberPart, hc]
  rfl

theorem dropWhile_takeWhile_append {cs rest : List Char} (h : Ends rest) :
    (cs.takeWhile continuesWord ++ rest).dropWhile continuesWord = rest := by
  have hsplit := List.takeWhile_append_dropWhile (p := continuesWord)
    (l := cs.takeWhile continuesWord ++ rest)
  rw [takeWhile_append_of_head? h] at hsplit
  exact List.append_cancel_left hsplit

theorem exists_of_exponentLength (beginning : List Char) {behind : List Char}
    (hends : Ends behind) :
    ∃ body rest, behind = body ++ rest ∧ body.length = exponentLength beginning behind ∧
      (∀ c ∈ body, isNumberPart c = true) ∧ Ends rest ∧
      ∀ rest', rest'.head? = rest.head? →
        exponentLength beginning (body ++ rest') = body.length := by
  unfold exponentLength
  split
  · rename_i hexponent
    cases behind with
    | nil => simp at hexponent
    | cons sign cs =>
      have hsign : isNumberPart sign = true := by
        have hcases : sign = '+' ∨ sign = '-' := by
          simp only [Bool.and_eq_true, Bool.or_eq_true, List.head?_cons, decide_eq_true_eq,
            Option.some.injEq] at hexponent
          exact hexponent.2
        obtain rfl | rfl := hcases <;> decide
      refine ⟨sign :: cs.takeWhile continuesWord, cs.dropWhile continuesWord, ?_, rfl, ?_,
        ends_dropWhile cs, fun rest' hhead => ?_⟩
      · rw [List.cons_append, List.takeWhile_append_dropWhile]
      · intro d hd
        obtain rfl | hd := List.mem_cons.mp hd
        · exact hsign
        · exact isNumberPart_of_mem_takeWhile hd
      · rw [List.head?_cons] at hexponent
        rw [List.cons_append, List.head?_cons, if_pos hexponent, List.tail_cons,
          takeWhile_append_of_head? ((ends_dropWhile cs).of_head?_eq hhead), List.length_cons]
  · rename_i hnone
    refine ⟨[], behind, rfl, rfl, by simp, hends, fun rest' hhead => ?_⟩
    rw [List.nil_append, hhead, if_neg hnone, List.length_nil]

theorem exists_of_digitsLength (beginning cs : List Char) :
    ∃ body rest, cs = body ++ rest ∧ body.length = digitsLength beginning cs ∧
      (∀ c ∈ body, isNumberPart c = true) ∧ Ends rest ∧
      ∀ rest', rest'.head? = rest.head? → digitsLength beginning (body ++ rest') = body.length := by
  obtain ⟨body, rest, hbehind, hlength, hbody, hrest, hstays⟩ :=
    exists_of_exponentLength (beginning ++ cs.takeWhile continuesWord) (ends_dropWhile cs)
  refine ⟨cs.takeWhile continuesWord ++ body, rest, ?_, ?_, ?_, hrest, fun rest' hhead => ?_⟩
  · rw [List.append_assoc, ← hbehind, List.takeWhile_append_dropWhile]
  · rw [List.length_append, hlength]
    rfl
  · intro c hc
    obtain hc | hc := List.mem_append.mp hc
    · exact isNumberPart_of_mem_takeWhile hc
    · exact hbody c hc
  · have hends : Ends (body ++ rest') :=
      (hbehind ▸ ends_dropWhile cs).of_head?_eq (head?_append_eq hhead body)
    rw [List.append_assoc, digitsLength, takeWhile_append_of_head? hends,
      dropWhile_takeWhile_append hends, hstays rest' hhead, List.length_append]

/-- A number is as long whatever stands behind it. -/
theorem exists_of_numberLength (c : Char) (cs : List Char) :
    ∃ body rest, cs = body ++ rest ∧ body.length = numberLength c cs ∧
      (∀ d ∈ body, isNumberPart d = true) ∧ Ends rest ∧
      ∀ rest', rest'.head? = rest.head? → numberLength c (body ++ rest') = body.length := by
  unfold numberLength
  dsimp only
  split
  · rename_i hpoint
    rw [Bool.and_eq_true, decide_eq_true_eq] at hpoint
    obtain ⟨hdecimal, hhead⟩ := hpoint
    obtain ⟨fraction, hbehind⟩ := List.head?_eq_some_iff.mp hhead
    rw [hbehind, List.tail_cons]
    obtain ⟨body, rest, rfl, hlength, hbody, hrest, hstays⟩ := exists_of_digitsLength [] fraction
    refine ⟨cs.takeWhile continuesWord ++ '.' :: body, rest, ?_, ?_, ?_, hrest,
      fun rest' hhead' => ?_⟩
    · rw [List.append_assoc, List.cons_append, ← hbehind, List.takeWhile_append_dropWhile]
    · rw [List.length_append, List.length_cons, hlength]
      omega
    · intro d hd
      obtain hd | hd := List.mem_append.mp hd
      · exact isNumberPart_of_mem_takeWhile hd
      · obtain rfl | hd := List.mem_cons.mp hd
        · decide
        · exact hbody d hd
    · -- the digits stop at the point
      have hends : Ends ('.' :: (body ++ rest')) := by
        intro d hd
        obtain rfl := Option.some.inj hd
        decide
      rw [List.append_assoc, List.cons_append, takeWhile_append_of_head? hends,
        dropWhile_takeWhile_append hends, List.head?_cons, if_pos (by rw [hdecimal]; rfl),
        List.tail_cons, hstays rest' hhead', List.length_append, List.length_cons]
      omega
  · rename_i hnone
    obtain ⟨body, rest, rfl, hlength, hbody, hrest, hstays⟩ := exists_of_digitsLength [c] cs
    refine ⟨body, rest, rfl, hlength, hbody, hrest, fun rest' hhead => ?_⟩
    have hends := hrest.of_head?_eq hhead
    rw [takeWhile_append_of_ends hrest, dropWhile_append_of_ends hrest] at hnone
    rw [takeWhile_append_of_ends hends, dropWhile_append_of_ends hends, head?_append_eq hhead,
      if_neg hnone, hstays rest' hhead]

/-! ## What an element is -/

/-- What is written where an element of a kind is read: `c` and `body` are its text, and `rest` is
the text behind it. -/
inductive Spelled : Kind → (c : Char) → (body rest : List Char) → Prop
  | blank {c : Char} {rest : List Char} (hc : (isLineEnd c || isGapBlank c) = true) :
      Spelled .blank c [] rest
  | lineComment {body rest : List Char} (hbody : ∀ d ∈ body, isLineEnd d = false)
      (hrest : ∀ d, rest.head? = some d → isLineEnd d = true) :
      Spelled .lineComment '/' ('/' :: body) rest
  | blockComment {body rest : List Char}
      (h : ∀ rest', blockCommentLength (body ++ rest') = some body.length) :
      Spelled .blockComment '/' ('*' :: body) rest
  | string {quote : Char} {body rest : List Char} (hquote : quote = '"' ∨ quote = '\'')
      (h : stringLength quote (body ++ rest) = some body.length) :
      Spelled .string quote body rest
  | template {c : Char} {body rest : List Char}
      (h : templateLength (body ++ rest) = some body.length) : Spelled .template c body rest
  | regex {body flags rest : List Char} (hrest : Ends rest) :
      Spelled .regex '/' (body ++ '/' :: flags) rest
  | number {c : Char} {body rest : List Char} (hc : c.isDigit = true ∨ c = '.')
      (hbody : ∀ d ∈ body, isNumberPart d = true) (hrest : Ends rest) :
      Spelled .number c body rest
  | word {c : Char} {body rest : List Char} (hc : startsWord c = true)
      (hbody : ∀ d ∈ body, continuesWord d = true) (hrest : Ends rest) :
      Spelled .word c body rest
  | slash {rest : List Char}
      (hrest : ∀ d, rest.head? = some d → d ≠ '/' ∧ d ≠ '*') : Spelled .sign '/' [] rest
  | sign {c : Char} {rest : List Char} (hc : c ∈ signs) : Spelled .sign c [] rest

theorem Meets.append {rest rest' : List Char} (h : Meets rest rest') (body : List Char) :
    Meets (body ++ rest) (body ++ rest') := by
  cases body with
  | nil => exact h
  | cons c body => exact .inl rfl

theorem isDigit_eq_false_of_startsWord {c : Char} (h : startsWord c = true) :
    c.isDigit = false := by
  by_contra hdigit
  have hother := (startsWord_of_isDigit (Bool.not_eq_false _ ▸ hdigit)).1
  rw [h] at hother
  cases hother

theorem continuesWord_of_isLineEnd {c : Char} (h : isLineEnd c = true) :
    continuesWord c = false := by
  have hall : [0xa, 0xd, 0x2028, 0x2029].all (fun n => !continuesWord (Char.ofNat n)) = true := by
    decide +kernel
  have hmem : c.toNat ∈ [0xa, 0xd, 0x2028, 0x2029] := by
    simp only [isLineEnd, Bool.or_eq_true, decide_eq_true_eq] at h
    obtain ((rfl | rfl) | h) | h := h <;> simp [*]
  have hc := List.all_eq_true.mp hall c.toNat hmem
  rwa [Char.ofNat_toNat, Bool.not_eq_true'] at hc

/-- Where no number begins, none does with another name behind its first character. -/
theorem Meets.no_number {c : Char} {cs cs' : List Char} (h : Meets cs cs')
    (hcs : ¬(c.isDigit || (c = '.' && cs.head?.any Char.isDigit)) = true) :
    ¬(c.isDigit || (c = '.' && cs'.head?.any Char.isDigit)) = true := by
  obtain heq | ⟨_, d, _, hd, _, hstart⟩ := h
  · rwa [heq]
  · rw [Bool.not_eq_true, Bool.or_eq_false_iff] at hcs ⊢
    rw [hd, Option.any_some, isDigit_eq_false_of_startsWord hstart, Bool.and_false]
    exact ⟨hcs.1, rfl⟩

theorem eq_some_of_closed {kind found : Kind} {length : Option Nat} {n : Nat}
    (h : closed kind length = (found, n)) (hfound : found ≠ .stray) :
    length = some n ∧ kind = found := by
  cases length with
  | none =>
    obtain ⟨rfl, _⟩ := Prod.mk.inj h
    exact absurd rfl hfound
  | some m =>
    obtain ⟨rfl, rfl⟩ := Prod.mk.inj h
    exact ⟨rfl, rfl⟩

/-- A slash that begins no comment begins none with another name behind it. -/
theorem Meets.ne_slash {cs cs' : List Char} (h : Meets cs cs')
    (hcs : ∀ d, cs.head? = some d → d ≠ '/' ∧ d ≠ '*') :
    ∀ d, cs'.head? = some d → d ≠ '/' ∧ d ≠ '*' := by
  obtain heq | ⟨_, d, _, hd, _, hstart⟩ := h
  · rwa [heq]
  · rw [hd]
    rintro _ ⟨⟩
    constructor
    · rintro rfl
      exact absurd hstart (by decide)
    · rintro rfl
      exact absurd hstart (by decide)

theorem scanSlash_of_ne {cs : List Char} (h : ∀ d, cs.head? = some d → d ≠ '/' ∧ d ≠ '*')
    (divides : Bool) :
    scanSlash divides cs =
      if divides then (.sign, 0)
      else closed .regex ((regexLength false false cs).map fun n =>
        n + 1 + ((cs.drop (n + 1)).takeWhile continuesWord).length) := by
  unfold scanSlash
  split
  · exact absurd rfl (h '/' rfl).1
  · exact absurd rfl (h '*' rfl).2
  · rfl

theorem drop_append_cons (body rest : List Char) (c : Char) :
    (body ++ c :: rest).drop (body.length + 1) = rest := by
  rw [← List.drop_drop, List.drop_left, List.drop_one, List.tail_cons]

/-- What is read behind `c` is a beginning of the text, spelled as its kind is, and is read in front
of every text that begins as the text behind it does. -/
def Bounded (read : List Char → Kind × Nat) (c : Char) (cs : List Char) (found : Kind × Nat) :
    Prop :=
  ∃ body rest, cs = body ++ rest ∧ body.length = found.2 ∧ Spelled found.1 c body rest ∧
    ∀ rest', Meets rest rest' → read (body ++ rest') = found

theorem bounded_lineComment (divides : Bool) (cs : List Char) :
    Bounded (scanSlash divides) '/' ('/' :: cs) (scanSlash divides ('/' :: cs)) := by
  have hline : ∀ d, (cs.dropWhile (!isLineEnd ·)).head? = some d → isLineEnd d = true :=
    fun d hd => by simpa using eq_false_of_head?_dropWhile hd
  have hends : Ends (cs.dropWhile (!isLineEnd ·)) :=
    fun d hd => continuesWord_of_isLineEnd (hline d hd)
  refine ⟨'/' :: cs.takeWhile (!isLineEnd ·), cs.dropWhile (!isLineEnd ·), ?_, rfl,
    .lineComment (fun d hd => by simpa using List.mem_takeWhile_imp hd) hline,
    fun rest' hmeets => ?_⟩
  · rw [List.cons_append, List.takeWhile_append_dropWhile]
  · have hrest' : ∀ d, rest'.head? = some d → (!isLineEnd d) = false := by
      rw [hmeets.head?_eq hends]
      exact fun d hd => by rw [hline d hd]; rfl
    rw [List.cons_append, scanSlash, takeWhile_append_of_head? hrest']
    rfl

theorem bounded_blockComment (divides : Bool) {cs : List Char} {n : Nat}
    (h : blockCommentLength cs = some n) :
    Bounded (scanSlash divides) '/' ('*' :: cs) (.blockComment, n + 1) := by
  obtain ⟨body, rest, rfl, rfl, hbody⟩ := exists_of_blockCommentLength h
  refine ⟨'*' :: body, rest, rfl, rfl, .blockComment hbody, fun rest' _ => ?_⟩
  rw [List.cons_append, scanSlash, hbody]
  rfl

theorem bounded_slash {cs : List Char} (hcs : ∀ d, cs.head? = some d → d ≠ '/' ∧ d ≠ '*') :
    Bounded (scanSlash true) '/' cs (.sign, 0) := by
  refine ⟨[], cs, rfl, rfl, .slash hcs, fun rest' hmeets => ?_⟩
  rw [List.nil_append, scanSlash_of_ne (hmeets.ne_slash hcs), if_pos rfl]

/-- A regular expression ends behind its flags. -/
theorem bounded_regex {cs : List Char} (hcs : ∀ d, cs.head? = some d → d ≠ '/' ∧ d ≠ '*')
    {n : Nat} (h : regexLength false false cs = some n) :
    Bounded (scanSlash false) '/' cs
      (.regex, n + 1 + ((cs.drop (n + 1)).takeWhile continuesWord).length) := by
  obtain ⟨body, rest, rfl, rfl, hbody⟩ := exists_of_regexLength h
  rw [drop_append_cons]
  have hends := ends_dropWhile rest
  refine ⟨body ++ '/' :: rest.takeWhile continuesWord, rest.dropWhile continuesWord, ?_, ?_,
    .regex hends, fun rest' hmeets => ?_⟩
  · rw [List.append_assoc, List.cons_append, List.takeWhile_append_dropWhile]
  · rw [List.length_append, List.length_cons]
    omega
  · -- the flags go on as far as they can, so what follows is no name and stays none
    have hrest' := hends.of_head?_eq (hmeets.head?_eq hends)
    have hslash : Meets ('/' :: rest) ('/' :: (rest.takeWhile continuesWord ++ rest')) := .inl rfl
    rw [List.append_assoc, List.cons_append, scanSlash_of_ne ((hslash.append body).ne_slash hcs),
      if_neg (by simp), hbody, Option.map_some, drop_append_cons,
      takeWhile_append_of_head? hrest']
    rfl

/-- What a slash begins ends where it does whatever stands behind it. -/
theorem bounded_scanSlash {divides : Bool} {cs : List Char} {found : Kind × Nat}
    (h : scanSlash divides cs = found) (hkind : found.1 ≠ .stray) :
    Bounded (scanSlash divides) '/' cs found := by
  subst h
  by_cases hcomment : ∀ d, cs.head? = some d → d ≠ '/' ∧ d ≠ '*'
  · rw [scanSlash_of_ne hcomment] at hkind ⊢
    cases divides with
    | true => exact bounded_slash hcomment
    | false =>
      cases hlength : regexLength false false cs with
      | none => simp [hlength, closed] at hkind
      | some n => exact bounded_regex hcomment hlength
  · cases cs with
    | nil => exact absurd (fun d hd => nomatch hd) hcomment
    | cons c cs =>
      have hc : c = '/' ∨ c = '*' := by
        by_contra hother
        rw [not_or] at hother
        refine hcomment fun d hd => ?_
        obtain rfl := Option.some.inj hd
        exact hother
      obtain rfl | rfl := hc
      · exact bounded_lineComment divides cs
      · rw [scanSlash] at hkind ⊢
        cases hlength : blockCommentLength cs with
        | none => simp [hlength, closed] at hkind
        | some n => exact bounded_blockComment divides hlength

/-- What `c` begins ends where it does whatever stands behind it. -/
theorem bounded_scan {divides continues : Bool} {c : Char} {cs : List Char}
    {found : Kind × Nat} (h : scan divides continues c cs = found) (hkind : found.1 ≠ .stray) :
    Bounded (scan divides continues c) c cs found := by
  obtain ⟨kind, n⟩ := found
  -- only a point asks for what stands behind the element, and no digit can come to stand there
  unfold scan at h
  split_ifs at h with hblank hword hnumber hstring htemplate hslash hsign
  · obtain ⟨rfl, rfl⟩ := Prod.mk.inj h
    exact ⟨[], cs, rfl, rfl, .blank hblank, fun rest' _ => by rw [scan, if_pos hblank]⟩
  · obtain ⟨rfl, rfl⟩ := Prod.mk.inj h
    have hends := ends_dropWhile cs
    refine ⟨cs.takeWhile continuesWord, cs.dropWhile continuesWord,
      List.takeWhile_append_dropWhile.symm, rfl,
      .word hword (fun _ => List.mem_takeWhile_imp) hends, fun rest' hmeets => ?_⟩
    rw [scan, if_neg hblank, if_pos hword,
      takeWhile_append_of_head? (hends.of_head?_eq (hmeets.head?_eq hends))]
  · obtain ⟨rfl, rfl⟩ := Prod.mk.inj h
    obtain ⟨body, rest, rfl, hlength, hbody, hrest, hstays⟩ := exists_of_numberLength c cs
    have hc : c.isDigit = true ∨ c = '.' := by
      simp only [Bool.or_eq_true, Bool.and_eq_true, decide_eq_true_eq] at hnumber
      exact hnumber.imp_right And.left
    refine ⟨body, rest, rfl, hlength, .number hc hbody hrest, fun rest' hmeets => ?_⟩
    have hhead := hmeets.head?_eq hrest
    rw [scan, if_neg hblank, if_neg hword, head?_append_eq hhead, if_pos hnumber,
      hstays rest' hhead, hlength]
  · obtain ⟨hlength, rfl⟩ := eq_some_of_closed h hkind
    have hquote : c = '"' ∨ c = '\'' := by simpa using hstring
    have hescape : c ≠ '\\' := by rintro rfl; simp at hquote
    obtain ⟨body, rest, rfl, hbody, hstays⟩ := exists_of_stringLength hescape hlength
    refine ⟨body, rest, rfl, hbody, .string hquote (by rw [hstays, hbody]), fun rest' hmeets => ?_⟩
    rw [scan, if_neg hblank, if_neg hword, if_neg ((hmeets.append body).no_number hnumber),
      if_pos hstring, hstays]
    rfl
  · obtain ⟨hlength, rfl⟩ := eq_some_of_closed h hkind
    obtain ⟨body, rest, rfl, hbody, hstays⟩ := exists_of_templateLength hlength
    refine ⟨body, rest, rfl, hbody, .template (by rw [hstays, hbody]), fun rest' hmeets => ?_⟩
    rw [scan, if_neg hblank, if_neg hword, if_neg ((hmeets.append body).no_number hnumber),
      if_neg hstring, if_pos htemplate, hstays]
    rfl
  · obtain ⟨body, rest, rfl, hbody, hspelled, hstays⟩ := bounded_scanSlash h hkind
    refine ⟨body, rest, rfl, hbody, hslash ▸ hspelled, fun rest' hmeets => ?_⟩
    rw [scan, if_neg hblank, if_neg hword, if_neg ((hmeets.append body).no_number hnumber),
      if_neg hstring, if_neg htemplate, if_pos hslash]
    exact hstays rest' hmeets
  · obtain ⟨rfl, rfl⟩ := Prod.mk.inj h
    refine ⟨[], cs, rfl, rfl, .sign hsign, fun rest' hmeets => ?_⟩
    rw [List.nil_append, scan, if_neg hblank, if_neg hword, if_neg (hmeets.no_number hnumber),
      if_neg hstring, if_neg htemplate, if_neg hslash, if_pos hsign]
  · obtain ⟨rfl, _⟩ := Prod.mk.inj h
    exact absurd rfl hkind

/-! ## Readings -/

variable {divides : Nat → Bool}

/-- The elements are what their text is cut into, none of them is stray, and each would be read in
front of another text that begins as the text behind it does. -/
inductive Reads (divides : Nat → Bool) : State → List Element → Prop
  | nil (state : State) : Reads divides state []
  | cons {state : State} {kind : Kind} {c : Char} {body : List Char} {es : List Element}
      (hspelled : Spelled kind c body (es.flatMap Element.text))
      (hscan : ∀ rest', Meets (es.flatMap Element.text) rest' →
        scan (divides state.slashes) state.continues c (body ++ rest') = (kind, body.length))
      (hrest : Reads divides (state.next ⟨kind, c :: body⟩) es) :
      Reads divides state (⟨kind, c :: body⟩ :: es)

theorem Reads.elementsAfter_eq {state : State} {es : List Element} (h : Reads divides state es) :
    elementsAfter divides 0 state (es.flatMap Element.text) = es := by
  induction h with
  | nil => rfl
  | cons _ hscan _ ih =>
    rw [List.flatMap_cons, List.cons_append,
      elementsAfter_cons divides _ (hscan _ (.inl rfl)) rfl, ih]

/-- The elements of a text without stray characters. -/
theorem reads_elementsAfter (state : State) (text : List Char)
    (h : ∀ e ∈ elementsAfter divides 0 state text, e.kind ≠ .stray) :
    Reads divides state (elementsAfter divides 0 state text) := by
  -- by the length of the text, since an element takes more than one character
  induction hlength : text.length using Nat.strong_induction_on generalizing state text with
  | _ length ih =>
    cases text with
    | nil => exact .nil state
    | cons c cs =>
      have hmem : firstElement divides state c cs ∈ elementsAfter divides 0 state (c :: cs) :=
        List.mem_cons_self
      have hkind := h _ hmem
      cases hfirst : scan (divides state.slashes) state.continues c cs with
      | mk kind n =>
        rw [firstElement, hfirst] at hkind
        obtain ⟨body, rest, rfl, hlength, hspelled, hscan⟩ := bounded_scan hfirst hkind
        obtain rfl : body.length = n := hlength
        have hcons := elementsAfter_cons divides state hfirst rfl
        have hrest : (elementsAfter divides 0 (state.next ⟨kind, c :: body⟩) rest).flatMap
            Element.text = rest := by rw [text_elementsAfter, List.drop_zero]
        rw [hcons] at h ⊢
        refine .cons (by rwa [hrest]) (by rwa [hrest]) (ih rest.length ?_ _ _ ?_ rfl)
        · rw [← hlength, List.length_cons, List.length_append]
          omega
        · exact fun e he => h e (List.mem_cons_of_mem _ he)

end Declutter.Lexical
