import Declutter.Printer
import Declutter.Proofs.Lines
import Declutter.Reading
import Mathlib.Data.List.Forall2

/-!
# Block comments at any depth

A block comment is read with its lines moved to the left (`alignedBlock`) and printed with each line
at the depth where it stands. What is printed is one block comment again, and reading it gives what
was printed: `alignedBlock_printed`.

Reading and printing cut a comment into lines on their own. The lines are taken along here
(`blockOf`), so that each step is one on lines: what a line may become without the comment ending
earlier or later is `EndsAlike`, and an aligned line that is moved to the right is aligned to what it
was.
-/

namespace Declutter

/-! ## Where a comment ends -/

open Text

/-- A text that ends with the first `*/` in it. -/
def EndsComment (text : List Char) : Prop :=
  ∃ body, text = body ++ ['*', '/'] ∧ ¬['*', '/'] <:+: body

/-- A text that is one block comment. -/
def IsBlockComment (text : List Char) : Prop :=
  ∃ behind, text = '/' :: '*' :: behind ∧ EndsComment behind

/-- No `*/` goes over a line end. -/
theorem infix_append_cons_iff (line cs : List Char) :
    ['*', '/'] <:+: line ++ '\n' :: cs ↔ ['*', '/'] <:+: line ∨ ['*', '/'] <:+: cs := by
  induction line with
  | nil => simp [List.infix_cons_iff]
  | cons c line ih =>
    rw [List.cons_append, List.infix_cons_iff, List.infix_cons_iff, ih, or_assoc]
    cases line <;> simp

theorem endsComment_append_cons_iff (line cs : List Char) :
    EndsComment (line ++ '\n' :: cs) ↔ ¬['*', '/'] <:+: line ∧ EndsComment cs := by
  constructor
  · intro h
    obtain ⟨body, htext, hbody⟩ := h
    rcases List.append_eq_append_iff.mp htext with ⟨front, rfl, hfront⟩ | ⟨back, _, hback⟩
    · -- the line end stands in front of the `*/`
      cases front with
      | nil => simp at hfront
      | cons c front =>
        obtain ⟨rfl, rfl⟩ := List.cons.inj hfront
        rw [infix_append_cons_iff, not_or] at hbody
        exact ⟨hbody.1, front, rfl, hbody.2⟩
    · -- the line end would be part of the `*/`
      have hmem : '\n' ∈ ['*', '/'] := by
        rw [hback]
        simp
      simp at hmem
  · intro h
    obtain ⟨hline, body, rfl, hbody⟩ := h
    refine ⟨line ++ '\n' :: body, by simp, ?_⟩
    rw [infix_append_cons_iff, not_or]
    exact ⟨hline, hbody⟩

/-- Lines of which the last one ends with the first `*/` in all of them. -/
def ClosesAtEnd : List (List Char) → Prop
  | [] => False
  | [line] => EndsComment line
  | line :: next :: lines => ¬['*', '/'] <:+: line ∧ ClosesAtEnd (next :: lines)

theorem endsComment_unlines_iff (first : List Char) (rest : List (List Char)) :
    EndsComment (unlines (first :: rest)) ↔ ClosesAtEnd (first :: rest) := by
  induction rest generalizing first with
  | nil => rw [unlines_singleton, ClosesAtEnd]
  | cons next rest ih => rw [unlines_cons_cons, endsComment_append_cons_iff, ClosesAtEnd, ih]

theorem ClosesAtEnd.getLast?_ne {lines : List (List Char)} (h : ClosesAtEnd lines) :
    lines.getLast? ≠ some [] := by
  induction lines with
  | nil => cases h
  | cons line lines ih =>
    cases lines with
    | nil =>
      obtain ⟨body, hline, _⟩ := h
      simp [hline]
    | cons next lines =>
      rw [List.getLast?_cons_cons]
      exact ih h.2

/-- What a line may become without the comment around it ending earlier or later. -/
structure EndsAlike (old new : List Char) : Prop where
  /-- No `*/` comes about. -/
  noneEarlier : ['*', '/'] <:+: new → ['*', '/'] <:+: old
  /-- The `*/` at the end stays there, as the only one. -/
  endsComment : EndsComment old → EndsComment new

theorem EndsAlike.trans {first second third : List Char} (h : EndsAlike first second)
    (h' : EndsAlike second third) : EndsAlike first third where
  noneEarlier hthird := h.noneEarlier (h'.noneEarlier hthird)
  endsComment hfirst := h'.endsComment (h.endsComment hfirst)

theorem endsAlike_trimEnd (line : List Char) : EndsAlike line (trimEnd line) where
  noneEarlier h := h.trans (prefix_trimEnd line).isInfix
  endsComment h := by
    obtain ⟨body, rfl, hbody⟩ := h
    refine ⟨body, ?_, hbody⟩
    rw [List.append_cons, trimEnd_append_of_not (by decide)]
    rfl

theorem endsAlike_trimStart (line : List Char) : EndsAlike line (trimStart line) where
  noneEarlier h := h.trans (suffix_trimStart line).isInfix
  endsComment h := by
    obtain ⟨body, rfl, hbody⟩ := h
    refine ⟨trimStart body, trimStart_append_of_not (by decide) body ['/'], ?_⟩
    intro h
    exact hbody (h.trans (suffix_trimStart body).isInfix)

theorem endsAlike_cons {c : Char} (h : isBlank c = true) (line : List Char) :
    EndsAlike line (c :: line) := by
  have htail (cs : List Char) (hcs : ['*', '/'] <:+: c :: cs) : ['*', '/'] <:+: cs := by
    rcases List.infix_cons_iff.mp hcs with hfront | hbehind
    · -- a blank is no `*`
      obtain ⟨rfl, _⟩ := List.cons_prefix_cons.mp hfront
      simp [isBlank] at h
    · exact hbehind
  constructor
  · exact htail line
  · intro hline
    obtain ⟨body, rfl, hbody⟩ := hline
    exact ⟨c :: body, rfl, fun h => hbody (htail body h)⟩

theorem endsAlike_append {blanks : List Char} (h : ∀ c ∈ blanks, isBlank c = true) (line : List Char) :
    EndsAlike line (blanks ++ line) := by
  induction blanks with
  | nil => exact ⟨id, id⟩
  | cons c blanks ih =>
    rw [List.forall_mem_cons] at h
    exact (ih h.2).trans (endsAlike_cons h.1 _)

theorem ClosesAtEnd.of_forall₂ {old new : List (List Char)} (h : List.Forall₂ EndsAlike old new)
    (hold : ClosesAtEnd old) : ClosesAtEnd new := by
  induction h with
  | nil => cases hold
  | cons hline hlines ih =>
    cases hlines with
    | nil => exact hline.endsComment hold
    | cons hnext hlines => exact ⟨fun h => hold.1 (hline.noneEarlier h), ih hold.2⟩

/-- A block comment of its lines, the first of them without the opening. -/
def blockOf (first : List Char) (rest : List (List Char)) : List Char :=
  '/' :: '*' :: unlines (first :: rest)

/-- The opening stands on the first line. -/
theorem blockOf_eq_unlines (first : List Char) (rest : List (List Char)) :
    blockOf first rest = unlines (('/' :: '*' :: first) :: rest) := by
  rw [blockOf, unlines_cons, unlines_cons]
  rfl

theorem isBlockComment_blockOf {first : List Char} {rest : List (List Char)}
    (h : ClosesAtEnd (first :: rest)) : IsBlockComment (blockOf first rest) :=
  ⟨_, rfl, (endsComment_unlines_iff first rest).mpr h⟩

theorem IsBlockComment.exists_eq_blockOf {text : List Char} (h : IsBlockComment text) :
    ∃ first rest, text = blockOf first rest ∧ (∀ line ∈ first :: rest, '\n' ∉ line) ∧
      ClosesAtEnd (first :: rest) := by
  obtain ⟨behind, rfl, hends⟩ := h
  obtain ⟨first, rest, rfl, hlines⟩ := exists_eq_unlines behind
  exact ⟨first, rest, rfl, hlines, (endsComment_unlines_iff first rest).mp hends⟩

/-- The last line of a comment is not empty, with the opening on it or not. -/
theorem ClosesAtEnd.getLast?_opened_ne {first : List Char} {rest : List (List Char)}
    (h : ClosesAtEnd (first :: rest)) : (('/' :: '*' :: first) :: rest).getLast? ≠ some [] := by
  cases rest with
  | nil => simp
  | cons next rest =>
    rw [List.getLast?_cons_cons]
    exact h.2.getLast?_ne

/-! ## Lines moved to the left -/

namespace Reading

/-- A line of a block comment behind the first, with one space in front of a star. -/
def alignedLine (line : List Char) : List Char :=
  if (trim line).head? = some '*' then ' ' :: trim line else trim line

theorem trim_alignedLine (line : List Char) : trim (alignedLine line) = trim line := by
  unfold alignedLine
  split
  · have hspace : ∀ c ∈ [' '], isBlank c = true := List.forall_mem_singleton.mpr (by decide)
    rw [← List.singleton_append, trim_append hspace, trim_trim]
  · exact trim_trim line

theorem alignedLine_of_trim_eq {line other : List Char} (h : trim line = trim other) :
    alignedLine line = alignedLine other := by rw [alignedLine, alignedLine, h]

/-- Moving a line to the left does not depend on how far to the right it stood. -/
theorem alignedLine_append_alignedLine {blanks : List Char} (h : ∀ c ∈ blanks, isBlank c = true)
    (line : List Char) : alignedLine (blanks ++ alignedLine line) = alignedLine line := by
  apply alignedLine_of_trim_eq
  rw [trim_append h, trim_alignedLine]

theorem notMem_alignedLine {line : List Char} (h : '\n' ∉ line) : '\n' ∉ alignedLine line := by
  have htrim : '\n' ∉ trim line := fun hmem =>
    h ((suffix_trimStart line).subset ((prefix_trimEnd _).subset hmem))
  unfold alignedLine
  split
  · simp [htrim]
  · exact htrim

theorem getLast?_alignedLine_ne (line : List Char) : (alignedLine line).getLast? ≠ some '\r' := by
  have htrim : (trim line).getLast? ≠ some '\r' := getLast?_trimEnd_ne (by decide) _
  unfold alignedLine
  split
  · rename_i hstar
    obtain ⟨rest, hline⟩ := List.head?_eq_some_iff.mp hstar
    rw [hline] at htrim
    rwa [hline, List.getLast?_cons_cons]
  · exact htrim

theorem endsAlike_alignedLine (line : List Char) : EndsAlike line (alignedLine line) := by
  have htrim : EndsAlike line (trim line) := (endsAlike_trimStart line).trans (endsAlike_trimEnd _)
  unfold alignedLine
  split
  · exact htrim.trans (endsAlike_cons (by decide) _)
  · exact htrim

/-- A block comment is aligned line by line. -/
theorem alignedBlock_unlines {first : List Char} {rest : List (List Char)}
    (hlines : ∀ line ∈ first :: rest, '\n' ∉ line) (hlast : (first :: rest).getLast? ≠ some []) :
    alignedBlock (unlines (first :: rest)) = unlines (trimEnd first :: rest.map alignedLine) := by
  -- both ways to trim a line forget the `\r` that `lines` may have taken off
  have hend : (lines (unlines (first :: rest))).map trimEnd = (first :: rest).map trimEnd :=
    map_lines_unlines (apply_withoutReturn trimEnd_append_blank) hlines hlast
  have haligned : (lines (unlines (first :: rest))).map alignedLine =
      (first :: rest).map alignedLine :=
    map_lines_unlines (apply_withoutReturn fun h cs => alignedLine_of_trim_eq
      (trim_append_blank h cs)) hlines hlast
  unfold alignedBlock
  cases hread : lines (unlines (first :: rest)) with
  | nil => simp [hread] at hend
  | cons head tail =>
    rw [hread] at hend haligned
    rw [unlines_cons, ← (List.cons.inj hend).1, ← (List.cons.inj haligned).2, List.flatMap_map]
    have hline (line : List Char) : '\n' :: alignedLine line =
        if (trim line).head? = some '*' then '\n' :: ' ' :: trim line else '\n' :: trim line := by
      rw [alignedLine, apply_ite ('\n' :: ·)]
    simp only [hline]

theorem alignedBlock_blockOf {first : List Char} {rest : List (List Char)}
    (hlines : ∀ line ∈ first :: rest, '\n' ∉ line) (hcloses : ClosesAtEnd (first :: rest)) :
    alignedBlock (blockOf first rest) = blockOf (trimEnd first) (rest.map alignedLine) := by
  have htrim : trimEnd ('/' :: '*' :: first) = '/' :: '*' :: trimEnd first :=
    trimEnd_append_of_not (by decide) ['/'] first
  rw [blockOf_eq_unlines, alignedBlock_unlines, htrim, blockOf_eq_unlines]
  · rw [List.forall_mem_cons] at hlines ⊢
    exact ⟨by simp [hlines.1], hlines.2⟩
  · exact hcloses.getLast?_opened_ne

/-- Aligned lines close where the lines did. -/
theorem closesAtEnd_aligned {first : List Char} {rest : List (List Char)}
    (h : ClosesAtEnd (first :: rest)) :
    ClosesAtEnd (trimEnd first :: rest.map alignedLine) := by
  apply h.of_forall₂
  apply List.Forall₂.cons
  · exact endsAlike_trimEnd first
  · rw [List.forall₂_map_right_iff, List.forall₂_same]
    exact fun line _ => endsAlike_alignedLine line

/-- Lines close where they did if they are moved to the right. -/
theorem closesAtEnd_moved {first blanks : List Char} {rest : List (List Char)}
    (hblanks : ∀ c ∈ blanks, isBlank c = true) (h : ClosesAtEnd (first :: rest)) :
    ClosesAtEnd (first :: rest.map (blanks ++ ·)) := by
  apply h.of_forall₂
  apply List.Forall₂.cons
  · exact ⟨id, id⟩
  · rw [List.forall₂_map_right_iff, List.forall₂_same]
    exact fun line _ => endsAlike_append hblanks line

/-- A comment with aligned lines does not change if these are moved to the right and aligned again. -/
theorem alignedBlock_moved {first blanks : List Char} {rest : List (List Char)}
    (hblanks : ∀ c ∈ blanks, isBlank c = true) (hline : '\n' ∉ blanks)
    (hlines : ∀ line ∈ first :: rest, '\n' ∉ line) (hcloses : ClosesAtEnd (first :: rest)) :
    alignedBlock (blockOf (trimEnd first) ((rest.map alignedLine).map (blanks ++ ·))) =
      blockOf (trimEnd first) (rest.map alignedLine) := by
  rw [List.forall_mem_cons] at hlines
  rw [alignedBlock_blockOf, trimEnd_trimEnd, List.map_map, List.map_map]
  · congr 1
    apply List.map_congr_left
    intro line _
    exact alignedLine_append_alignedLine hblanks line
  · rw [List.forall_mem_cons, List.forall_mem_map, List.forall_mem_map]
    constructor
    · exact fun hmem => hlines.1 ((prefix_trimEnd first).subset hmem)
    · intro line hmem
      rw [List.mem_append, not_or]
      exact ⟨hline, notMem_alignedLine (hlines.2 line hmem)⟩
  · exact closesAtEnd_moved hblanks (closesAtEnd_aligned hcloses)

end Reading

/-! ## Printing -/

open Printer Reading

/-- A text from the first `/*` in it on. -/
def fromOpening : List Char → List Char
  | [] => []
  | '/' :: '*' :: cs => '/' :: '*' :: cs
  | _ :: cs => fromOpening cs

theorem fromOpening_append {blanks : List Char} (h : ∀ c ∈ blanks, isBlank c = true)
    (cs : List Char) : fromOpening (blanks ++ '/' :: '*' :: cs) = '/' :: '*' :: cs := by
  induction blanks with
  | nil => rw [List.nil_append, fromOpening]
  | cons c blanks ih =>
    rw [List.forall_mem_cons] at h
    rw [List.cons_append, fromOpening, ih h.2]
    -- a blank is no `/`
    rintro _ rfl _
    simp [isBlank] at h

theorem isBlank_of_mem_pad {depth : Nat} : ∀ c ∈ (pad depth).toList, isBlank c = true := by
  intro c hmem
  rw [pad, String.toList_ofList] at hmem
  rw [List.eq_of_mem_replicate hmem]
  decide

theorem newline_notMem_pad (depth : Nat) : '\n' ∉ (pad depth).toList := by
  rw [pad, String.toList_ofList]
  exact fun hmem => absurd (List.eq_of_mem_replicate hmem) (by decide)

/-- A comment is printed line by line. -/
theorem toList_comments (depth : Nat) (text : List Char) :
    (comments depth [String.ofList text]).toList =
      (lines text).flatMap fun line => (pad depth).toList ++ line ++ ['\n'] := by
  rw [comments, List.flatMap_singleton, String.toList_ofList, String.toList_join, List.flatMap_map]
  simp only [String.toList_append, String.toList_ofList]
  rfl

/-- The line ends behind all lines are those between them and one more. -/
theorem flatMap_eq_unlines (front first : List Char) (rest : List (List Char)) :
    ((first :: rest).flatMap fun line => front ++ line ++ ['\n']) =
      front ++ unlines (first :: rest.map (front ++ ·)) ++ ['\n'] := by
  induction rest generalizing first with
  | nil => simp
  | cons next rest ih =>
    have hfront : unlines ((front ++ next) :: rest.map (front ++ ·)) =
        front ++ unlines (next :: rest.map (front ++ ·)) := by
      rw [unlines_cons, unlines_cons, List.append_assoc]
    rw [List.flatMap_cons, ih, List.map_cons, unlines_cons_cons, hfront]
    simp only [List.append_assoc, List.cons_append, List.nil_append]

/-- A comment with aligned lines, printed with its lines at a depth. -/
theorem toList_comments_blockOf (depth : Nat) {first : List Char} {rest : List (List Char)}
    (hlines : ∀ line ∈ first :: rest, '\n' ∉ line) (hcloses : ClosesAtEnd (first :: rest)) :
    (comments depth [String.ofList (blockOf (trimEnd first) (rest.map alignedLine))]).toList =
      (pad depth).toList ++ blockOf (trimEnd first)
        ((rest.map alignedLine).map ((pad depth).toList ++ ·)) ++ ['\n'] := by
  have htrim : '/' :: '*' :: trimEnd first = trimEnd ('/' :: '*' :: first) :=
    (trimEnd_append_of_not (by decide) ['/'] first).symm
  rw [List.forall_mem_cons] at hlines
  rw [toList_comments, blockOf_eq_unlines, blockOf_eq_unlines, lines_unlines, flatMap_eq_unlines]
  · rw [List.forall_mem_cons, List.forall_mem_map, htrim]
    refine ⟨⟨?_, getLast?_trimEnd_ne (by decide) _⟩, fun line hmem => ⟨?_, ?_⟩⟩
    · intro hmem
      have hfirst := (prefix_trimEnd _).subset hmem
      simp [hlines.1] at hfirst
    · exact notMem_alignedLine (hlines.2 line hmem)
    · exact getLast?_alignedLine_ne line
  · apply ClosesAtEnd.getLast?_opened_ne
    exact closesAtEnd_aligned hcloses

/-- A block comment that is read and printed, at any depth, is a block comment that is read as the
same. -/
theorem alignedBlock_printed {raw : List Char} (h : IsBlockComment raw) (depth : Nat) :
    let output := (comments depth [String.ofList (alignedBlock raw)]).toList
    let block := (fromOpening output).dropLast
    output = (pad depth).toList ++ block ++ ['\n'] ∧ IsBlockComment block ∧
      alignedBlock block = alignedBlock raw := by
  intro output block
  obtain ⟨first, rest, rfl, hlines, hcloses⟩ := h.exists_eq_blockOf
  -- the depth shows only in front of the first line and in the lines behind it
  let moved := (rest.map alignedLine).map ((pad depth).toList ++ ·)
  have haligned := alignedBlock_blockOf hlines hcloses
  have houtput : output = (pad depth).toList ++ blockOf (trimEnd first) moved ++ ['\n'] := by
    show (comments depth [String.ofList (alignedBlock _)]).toList = _
    rw [haligned]
    exact toList_comments_blockOf depth hlines hcloses
  have hblock : block = blockOf (trimEnd first) moved := by
    show (fromOpening output).dropLast = _
    rw [houtput, List.append_assoc, blockOf, List.cons_append, List.cons_append,
      fromOpening_append isBlank_of_mem_pad, ← List.cons_append, ← List.cons_append,
      List.dropLast_concat]
  refine ⟨?_, ?_, ?_⟩
  · rw [hblock, houtput]
  · rw [hblock]
    apply isBlockComment_blockOf
    exact closesAtEnd_moved isBlank_of_mem_pad (closesAtEnd_aligned hcloses)
  · rw [hblock, haligned]
    exact alignedBlock_moved isBlank_of_mem_pad (newline_notMem_pad depth) hlines hcloses

/-- A comment with all kinds of line ends, an empty line, blanks that are not ASCII and an opening
inside of it. -/
def unevenComment : List Char := "/** \r\n\t * a\r * b\u00a0\n\n\u2003c /*\r\n*/".toList

theorem alignedBlock_printed_uneven :
    let output := (comments 2 [String.ofList (alignedBlock unevenComment)]).toList
    let block := (fromOpening output).dropLast
    IsBlockComment unevenComment ∧
      output = "    /**\n     * a\r * b\n    \n    c /*\n     */\n".toList ∧
      output = (pad 2).toList ++ block ++ ['\n'] ∧ IsBlockComment block ∧
      alignedBlock block = alignedBlock unevenComment := by
  have h : IsBlockComment unevenComment :=
    ⟨_, rfl, "* \r\n\t * a\r * b\u00a0\n\n\u2003c /*\r\n".toList, by decide, by decide⟩
  exact ⟨h, by decide, alignedBlock_printed h 2⟩

end Declutter
