import Declutter.Verbatim

/-!
# The pieces of verbatim text

`lexemes` cuts a text up without losing any of it: put together again its pieces are the text
(`text_lexemes`). So replacing a word by itself changes nothing (`rename_self`).
-/

namespace Declutter.Verbatim

theorem inertLength_pos {cs : List Char} {n : Nat} (h : inertLength cs = some n) : 0 < n := by
  unfold inertLength at h
  split at h
  · obtain ⟨m, _, rfl⟩ := Option.map_eq_some_iff.mp h; omega
  · obtain ⟨m, _, rfl⟩ := Option.map_eq_some_iff.mp h; omega
  · obtain ⟨m, _, rfl⟩ := Option.map_eq_some_iff.mp h; omega
  · injection h with h; omega
  · obtain ⟨m, _, rfl⟩ := Option.map_eq_some_iff.mp h; omega
  · cases h

/-- A lexeme is the front of the text it is read from, and holds something of it. -/
theorem text_firstLexeme (c : Char) (cs : List Char) :
    ∃ rest, (firstLexeme c cs).text = c :: rest ∧ rest <+: cs := by
  unfold firstLexeme
  split
  · rename_i n hlength
    obtain ⟨m, rfl⟩ := Nat.exists_eq_add_of_lt (inertLength_pos hlength)
    refine ⟨cs.take m, ?_, List.take_prefix m cs⟩
    rw [Lexeme.text, Nat.zero_add, List.take_succ_cons]
  · split
    · exact ⟨cs.takeWhile isWordPart, rfl, List.takeWhile_prefix isWordPart⟩
    · exact ⟨[], rfl, List.nil_prefix⟩

theorem text_lexemesAfter (skip : Nat) (cs : List Char) :
    (lexemesAfter skip cs).flatMap Lexeme.text = cs.drop skip := by
  induction cs generalizing skip with
  | nil => cases skip <;> rfl
  | cons c cs ih =>
    cases skip with
    | succ skip => rw [lexemesAfter, ih, List.drop_succ_cons]
    | zero =>
      obtain ⟨rest, htext, behind, rfl⟩ := text_firstLexeme c cs
      rw [lexemesAfter, List.flatMap_cons, ih, htext, List.length_cons, Nat.add_sub_cancel,
        List.drop_left, List.drop_zero, List.cons_append]

/-- The pieces of a text make up the text. -/
theorem text_lexemes (text : List Char) : (lexemes text).flatMap Lexeme.text = text := by
  rw [lexemes, text_lexemesAfter, List.drop_zero]

theorem map_fst_markedFrom (before : List Char) (pieces : List Lexeme) :
    (markedFrom before pieces).map Prod.fst = pieces := by
  induction pieces generalizing before with
  | nil => rfl
  | cons lexeme rest ih =>
    unfold markedFrom
    rw [List.map_cons, ih]

/-- A word replaced by itself leaves the text as it is. -/
theorem rename_self (text word : String) : rename text word word = text := by
  have hpiece : ∀ piece : Lexeme × Bool,
      (if piece.2 && piece.1.text = word.toList then word.toList else piece.1.text) =
        piece.1.text := by
    intro piece
    split
    · rename_i h
      simp only [Bool.and_eq_true, decide_eq_true_eq] at h
      exact h.2.symm
    · rfl
  have hpieces : rename text word word =
      String.ofList (((marked text.toList).map Prod.fst).flatMap Lexeme.text) := by
    rw [List.flatMap_map]
    exact congrArg (fun f => String.ofList ((marked text.toList).flatMap f)) (funext hpiece)
  rw [hpieces, marked, map_fst_markedFrom, text_lexemes, String.ofList_toList]

end Declutter.Verbatim
