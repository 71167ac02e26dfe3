import Declutter.Text.Blank
import Declutter.Text.Lines
import Mathlib.Data.List.DropRight
import Mathlib.Data.List.Infix
import Mathlib.Data.List.TakeWhile

/-!
# Lines cut, joined and trimmed

`unlines` puts line ends between lines. Every text is of this form with lines that hold no `\n`
(`exists_eq_unlines`), and `lines` finds these lines again, but for a `\r` in front of a line end,
which it takes for a part of that. Who trims the lines does not notice (`map_lines_unlines`).
-/

namespace Declutter.Text

/-! ## Trimming -/

theorem trimEnd_trimEnd (cs : List Char) : trimEnd (trimEnd cs) = trimEnd cs :=
  List.rdropWhile_idempotent isBlank cs

theorem trimEnd_append_blank {c : Char} (h : isBlank c = true) (cs : List Char) :
    trimEnd (cs ++ [c]) = trimEnd cs := List.rdropWhile_concat_pos isBlank cs c h

theorem prefix_trimEnd (cs : List Char) : trimEnd cs <+: cs := List.rdropWhile_prefix isBlank cs

theorem suffix_trimStart (cs : List Char) : trimStart cs <:+ cs := List.dropWhile_suffix isBlank

/-- A trimmed text does not end in a blank. -/
theorem getLast?_trimEnd_ne {c : Char} (h : isBlank c = true) (cs : List Char) :
    (trimEnd cs).getLast? ≠ some c := by
  intro hlast
  have hhead := List.head?_dropWhile_not isBlank cs.reverse
  rw [trimEnd, List.getLast?_reverse] at hlast
  rw [hlast] at hhead
  simp [h] at hhead

/-- What is trimmed at its end does not begin with a blank if it did not before. -/
theorem trimStart_trim (cs : List Char) : trimStart (trim cs) = trim cs := by
  cases htrim : trim cs with
  | nil => rfl
  | cons c rest =>
    obtain ⟨tail, htail⟩ : trim cs <+: trimStart cs := prefix_trimEnd _
    have hhead := List.head?_dropWhile_not isBlank cs
    rw [← trimStart, ← htail, htrim] at hhead
    rw [trimStart, List.dropWhile_cons_of_neg]
    simpa using hhead

theorem trim_trim (cs : List Char) : trim (trim cs) = trim cs := by
  rw [trim, trimStart_trim, trim, trimEnd_trimEnd]

theorem trimStart_append_of_not {c : Char} (h : isBlank c = false) (cs rest : List Char) :
    trimStart (cs ++ c :: rest) = trimStart cs ++ c :: rest := by
  rw [trimStart, trimStart, List.dropWhile_append, List.dropWhile_cons_of_neg (by simp [h])]
  split
  · rename_i hnil
    rw [List.isEmpty_iff.mp hnil, List.nil_append]
  · rfl

theorem trimEnd_append_of_not {c : Char} (h : isBlank c = false) (cs rest : List Char) :
    trimEnd (cs ++ c :: rest) = cs ++ c :: trimEnd rest := by
  have hreverse : (cs ++ c :: rest).reverse = rest.reverse ++ c :: cs.reverse := by simp
  have hstart := trimStart_append_of_not h rest.reverse cs.reverse
  rw [trimStart, trimStart] at hstart
  rw [trimEnd, trimEnd, hreverse, hstart]
  simp

theorem trim_append_blank {c : Char} (h : isBlank c = true) (cs : List Char) :
    trim (cs ++ [c]) = trim cs := by
  rw [trim, trim, trimStart, trimStart, List.dropWhile_append]
  split
  · rename_i hnil
    rw [List.isEmpty_iff.mp hnil, List.dropWhile_cons_of_pos h, List.dropWhile_nil]
  · exact trimEnd_append_blank h _

theorem trim_append {blanks : List Char} (h : ∀ c ∈ blanks, isBlank c = true) (cs : List Char) :
    trim (blanks ++ cs) = trim cs := by
  rw [trim, trim, trimStart, List.dropWhile_append_of_pos h, trimStart]

/-! ## Lines -/

/-- A line without the `\r` that belongs to its end. -/
def withoutReturn (line : List Char) : List Char :=
  if line.getLast? = some '\r' then line.dropLast else line

theorem withoutReturn_cons {c : Char} {line : List Char} (h : ¬(c = '\r' ∧ line = [])) :
    withoutReturn (c :: line) = c :: withoutReturn line := by
  cases line with
  | nil => simp [withoutReturn, show c ≠ '\r' by simpa using h]
  | cons d line =>
    rw [withoutReturn, withoutReturn, List.getLast?_cons_cons]
    split <;> simp

/-- What does not see a blank at the end of a text does not see whether a line has its `\r`. -/
theorem apply_withoutReturn {α : Type} {f : List Char → α}
    (hf : ∀ {c : Char}, isBlank c = true → ∀ cs, f (cs ++ [c]) = f cs) (line : List Char) :
    f (withoutReturn line) = f line := by
  unfold withoutReturn
  split
  · rename_i hlast
    obtain ⟨front, rfl⟩ := List.getLast?_eq_some_iff.mp hlast
    rw [List.dropLast_concat, hf (by decide)]
  · rfl

/-- A character that ends no line belongs to the first line of a text. -/
theorem lines_cons {c : Char} {cs line : List Char} {rest : List (List Char)} (hc : c ≠ '\n')
    (hreturn : c = '\r' → cs.head? ≠ some '\n') (hne : cs ≠ []) (h : lines cs = line :: rest) :
    lines (c :: cs) = (c :: line) :: rest := by
  cases cs with
  | nil => exact absurd rfl hne
  | cons d cs =>
    apply lines.eq_4
    · exact hc
    · intro behind hcr heq
      apply hreturn hcr
      rw [heq, List.head?_cons]
    · exact h

/-- The line in front of the first line end. -/
theorem lines_append {line : List Char} (h : '\n' ∉ line) (cs : List Char) :
    lines (line ++ '\n' :: cs) = withoutReturn line :: lines cs := by
  induction line with
  | nil => rfl
  | cons c line ih =>
    rw [List.mem_cons, not_or] at h
    by_cases hreturn : c = '\r' ∧ line = []
    · -- a `\r` right in front of the `\n` is no part of the line
      obtain ⟨rfl, rfl⟩ := hreturn
      rfl
    · rw [withoutReturn_cons hreturn]
      apply lines_cons (Ne.symm h.1)
      · intro hc
        cases line with
        | nil => exact absurd ⟨hc, rfl⟩ hreturn
        | cons d line => simpa using fun heq : d = '\n' => h.2 (by simp [heq])
      · simp
      · exact ih h.2

/-- A text without line ends is one line. -/
theorem lines_of_notMem {line : List Char} (h : '\n' ∉ line) (hne : line ≠ []) :
    lines line = [line] := by
  induction line with
  | nil => exact absurd rfl hne
  | cons c line ih =>
    rw [List.mem_cons, not_or] at h
    cases line with
    | nil =>
      apply lines.eq_5
      · exact Ne.symm h.1
      · simp
      · simp
    | cons d line =>
      apply lines_cons (Ne.symm h.1)
      · intro _
        simpa using fun heq : d = '\n' => h.2 (by simp [heq])
      · simp
      · exact ih h.2 (by simp)

/-- Lines with line ends between them. -/
def unlines (lines : List (List Char)) : List Char := ['\n'].intercalate lines

@[simp] theorem unlines_singleton (line : List Char) : unlines [line] = line :=
  List.intercalate_singleton

@[simp] theorem unlines_cons_cons (first second : List Char) (rest : List (List Char)) :
    unlines (first :: second :: rest) = first ++ '\n' :: unlines (second :: rest) := by
  rw [unlines, List.intercalate_cons_cons, List.append_assoc]
  rfl

theorem unlines_cons (first : List Char) (rest : List (List Char)) :
    unlines (first :: rest) = first ++ rest.flatMap ('\n' :: ·) := by
  induction rest generalizing first with
  | nil => simp
  | cons second rest ih => rw [unlines_cons_cons, ih, List.flatMap_cons, List.cons_append]

/-- Every text is cut at its line ends. -/
theorem exists_eq_unlines (text : List Char) :
    ∃ first rest, text = unlines (first :: rest) ∧ ∀ line ∈ first :: rest, '\n' ∉ line := by
  induction text with
  | nil => exact ⟨[], [], by simp, by simp⟩
  | cons c text ih =>
    obtain ⟨first, rest, rfl, hlines⟩ := ih
    by_cases hc : c = '\n'
    · refine ⟨[], first :: rest, ?_, ?_⟩
      · rw [unlines_cons_cons, hc, List.nil_append]
      · rw [List.forall_mem_cons]
        exact ⟨by simp, hlines⟩
    · refine ⟨c :: first, rest, ?_, ?_⟩
      · rw [unlines_cons, unlines_cons, List.cons_append]
      · rw [List.forall_mem_cons] at hlines ⊢
        exact ⟨by simp [Ne.symm hc, hlines.1], hlines.2⟩

/-- Lines are read as they were joined, but for a `\r` in front of a line end. What does not see
that is the same of all lines. -/
theorem map_lines_unlines {α : Type} {f : List Char → α} (hf : ∀ line, f (withoutReturn line) = f line)
    {first : List Char} {rest : List (List Char)} (hlines : ∀ line ∈ first :: rest, '\n' ∉ line)
    (hlast : (first :: rest).getLast? ≠ some []) :
    (lines (unlines (first :: rest))).map f = (first :: rest).map f := by
  induction rest generalizing first with
  | nil =>
    rw [unlines_singleton, lines_of_notMem (hlines first (by simp)) (by simpa using hlast)]
  | cons second rest ih =>
    rw [List.forall_mem_cons] at hlines
    rw [List.getLast?_cons_cons] at hlast
    rw [unlines_cons_cons, lines_append hlines.1, List.map_cons, hf, ih hlines.2 hlast]
    rfl

/-- Lines that do not end in `\r` are read as they were joined. -/
theorem lines_unlines {first : List Char} {rest : List (List Char)}
    (hlines : ∀ line ∈ first :: rest, '\n' ∉ line ∧ line.getLast? ≠ some '\r')
    (hlast : (first :: rest).getLast? ≠ some []) :
    lines (unlines (first :: rest)) = first :: rest := by
  induction rest generalizing first with
  | nil =>
    rw [unlines_singleton, lines_of_notMem (hlines first (by simp)).1 (by simpa using hlast)]
  | cons second rest ih =>
    rw [List.forall_mem_cons] at hlines
    rw [List.getLast?_cons_cons] at hlast
    rw [unlines_cons_cons, lines_append hlines.1.1, withoutReturn, if_neg hlines.1.2,
      ih hlines.2 hlast]

end Declutter.Text
