import Declutter.Proofs.Rewording

/-!
# The words of a text in which a word is replaced

A text is cut up in the same way before and behind a replacement, so its words stay in order and
only the replaced one is another (`map_snd_words_rename`). What was replaced by a word that the
text did not have can be put back.
-/

namespace Declutter.Verbatim

/-- The word that a marked piece is, if it can name a type. -/
def namedWord? (piece : Lexeme × Bool) : Option String :=
  if piece.2 then some (String.ofList piece.1.text) else none

/-- The words of a text are its marked pieces; only their places depend on the text in front. -/
theorem map_snd_wordsFrom (offset : Nat) (pieces : List (Lexeme × Bool)) :
    (wordsFrom offset pieces).map Prod.snd = pieces.filterMap namedWord? := by
  induction pieces generalizing offset with
  | nil => rfl
  | cons piece pieces ih =>
    obtain ⟨lexeme, isMarked⟩ := piece
    rw [wordsFrom, List.filterMap_cons, namedWord?]
    cases isMarked with
    | true => simp only [if_true, List.map_cons, ih]
    | false => simp only [Bool.false_eq_true, if_false, ih]

theorem namedWord?_replaceWord (old new : String) (piece : Lexeme × Bool) :
    namedWord? (replaceWord old new piece) =
      (namedWord? piece).map fun word => if word = old then new else word := by
  obtain ⟨lexeme, isMarked⟩ := piece
  cases isMarked with
  | false => rfl
  | true =>
    have hword : String.ofList lexeme.text = old ↔ lexeme.text = old.toList := by
      rw [← String.toList_inj, String.toList_ofList]
    by_cases h : lexeme.text = old.toList
    · have hreplaced : replaceWord old new (lexeme, true) = (.word new.toList, true) := by
        rw [replaceWord, if_pos (by simpa using h)]
      rw [hreplaced, namedWord?, namedWord?, if_pos rfl, if_pos rfl, Option.map_some,
        if_pos (hword.mpr h)]
      exact congrArg some String.ofList_toList
    · have hkept : replaceWord old new (lexeme, true) = (lexeme, true) := by
        rw [replaceWord, if_neg (by simpa using h)]
      rw [hkept, namedWord?, if_pos rfl, Option.map_some, if_neg fun heq => h (hword.mp heq)]

/-- The words of a text with a word replaced are those of the text, that word replaced. -/
theorem map_snd_words_rename (text old : String) {new : String} (h : isIdentifier new = true) :
    (words (rename text old new)).map Prod.snd =
      ((words text).map Prod.snd).map fun word => if word = old then new else word := by
  rw [words, words, map_snd_wordsFrom, map_snd_wordsFrom, marked_rename text old h,
    List.filterMap_map, List.map_filterMap]
  exact congrFun (congrArg List.filterMap (funext (namedWord?_replaceWord old new))) _

/-- Replacing a word replaces it among the words of the text and nothing else of them. If the new
word was none of them, replacing it by the old one gives the text again. -/
theorem words_rename_and_rename_back (text old : String) {new : String}
    (hnew : isIdentifier new = true) :
    (words (rename text old new)).map Prod.snd =
        ((words text).map Prod.snd).map (fun word => if word = old then new else word) ∧
      (new ∉ (words text).map Prod.snd → rename (rename text old new) new old = text) := by
  refine ⟨map_snd_words_rename text old hnew, fun hfresh => ?_⟩
  have hwords : ∀ word ∈ words text, word.2 ≠ new := fun word hmem heq =>
    hfresh (List.mem_map.mpr ⟨word, hmem, heq⟩)
  rw [rename_rename text old old hnew hwords, rename_self]

/-- A quote and a comment that are never closed, a number and a point in front of the word, and the
word inside of a string. -/
def entangled : String := "'Root 2Root /* Root. Root\n\"Root\" ...Root // Root"

theorem words_rename_entangled :
    isIdentifier "Tsconfig" = true ∧ "Tsconfig" ∉ (words entangled).map Prod.snd ∧
      (words entangled).map Prod.snd = ["Root", "Root", "Root", "Root"] ∧
      (words (rename entangled "Root" "Tsconfig")).map Prod.snd =
        ["Tsconfig", "Tsconfig", "Tsconfig", "Tsconfig"] ∧
      rename (rename entangled "Root" "Tsconfig") "Tsconfig" "Root" = entangled := by
  have hwords : (words entangled).map Prod.snd = ["Root", "Root", "Root", "Root"] := by rfl
  have hfresh : "Tsconfig" ∉ (words entangled).map Prod.snd := by rw [hwords]; decide
  have hnew : isIdentifier "Tsconfig" = true := by rfl
  obtain ⟨hrenamed, hback⟩ := words_rename_and_rename_back entangled "Root" hnew
  exact ⟨hnew, hfresh, hwords, by rw [hrenamed, hwords]; rfl, hback hfresh⟩

end Declutter.Verbatim
