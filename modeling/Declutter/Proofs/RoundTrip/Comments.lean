import Declutter.Proofs.RoundTrip.Spelling
import Declutter.Proofs.TakenComments

/-!
# Comments on lines of their own

A tree holds comments with their ends trimmed and their lines moved to the left: `IsCommentText`.
Printed at any depth such a text is a comment again, and its text is the same: `exists_printed`.
So the printed comments in front of something are handed out to it, with their texts:
`Lexes.comments_ahead` and `Commented.of_places`.
-/

namespace Declutter

open Printer Reading Syntax Text

/-! ## Texts of comments -/

theorem endsComment_closing_iff {cs : List Char} : EndsComment ('*' :: '/' :: cs) ↔ cs = [] := by
  constructor
  · rintro ⟨body, htext, hbody⟩
    match body with
    | [] => exact List.append_cancel_left (show ['*', '/'] ++ cs = ['*', '/'] ++ [] from htext)
    | [c] => simp at htext
    | c :: d :: body =>
      obtain ⟨rfl, rfl, -⟩ : '*' = c ∧ '/' = d ∧ _ := by simpa using htext
      exact absurd ⟨[], body, rfl⟩ hbody
  · rintro rfl
    exact ⟨[], rfl, by simp⟩

theorem endsComment_cons_iff {c : Char} {cs : List Char} (h : ¬(c = '*' ∧ cs.head? = some '/')) :
    EndsComment (c :: cs) ↔ EndsComment cs := by
  constructor
  · rintro ⟨body, htext, hbody⟩
    cases body with
    | nil =>
      obtain ⟨rfl, rfl⟩ := List.cons.inj htext
      simp at h
    | cons d body =>
      obtain ⟨rfl, rfl⟩ := List.cons.inj htext
      exact ⟨body, rfl, fun hclosing => hbody (List.infix_cons hclosing)⟩
  · rintro ⟨body, rfl, hbody⟩
    refine ⟨c :: body, rfl, fun hclosing => ?_⟩
    rcases List.infix_cons_iff.mp hclosing with hfirst | hlater
    · obtain ⟨rfl, hslash⟩ := List.cons_prefix_cons.mp hfirst
      obtain ⟨more, rfl⟩ := hslash
      simp at h
    · exact hbody hlater

instance decidableEndsComment : (text : List Char) → Decidable (EndsComment text)
  | [] => .isFalse (by rintro ⟨body, htext, -⟩; simp at htext)
  | c :: cs =>
    if h : c = '*' ∧ cs.head? = some '/' then
      decidable_of_iff (cs.tail = []) (by
        obtain ⟨rfl, hslash⟩ := h
        obtain ⟨more, rfl⟩ := List.head?_eq_some_iff.mp hslash
        exact endsComment_closing_iff.symm)
    else
      have := decidableEndsComment cs
      decidable_of_iff (EndsComment cs) (endsComment_cons_iff h).symm

theorem isComment_iff {isBlock : Bool} {text : List Char} :
    IsComment isBlock text ↔ if isBlock then
      text.take 2 = ['/', '*'] ∧ EndsComment (text.drop 2)
      else text.take 2 = ['/', '/'] ∧ (text.drop 2).all (!isLineEnd ·) = true := by
  constructor
  · rintro (hline | ⟨behind, rfl, hends⟩)
    · exact ⟨rfl, by simpa using hline⟩
    · exact ⟨rfl, hends⟩
  · intro h
    cases isBlock with
    | true => exact .block ⟨text.drop 2, by rw [← List.take_append_drop 2 text, h.1]; rfl, h.2⟩
    | false =>
      rw [← List.take_append_drop 2 text, h.1]
      exact .line (by simpa using h.2)

instance (isBlock : Bool) (text : List Char) : Decidable (IsComment isBlock text) :=
  decidable_of_iff _ isComment_iff.symm

/-- A comment as a tree holds it: its end is trimmed, or its lines are moved to the left. -/
def IsCommentText (text : List Char) : Prop :=
  (IsComment false text ∧ trimEnd text = text) ∨ (IsComment true text ∧ alignedBlock text = text)

instance (text : List Char) : Decidable (IsCommentText text) :=
  inferInstanceAs (Decidable (_ ∨ _))

/-- Printed at a depth the text of a comment is a comment again, and its text is the same. -/
theorem IsCommentText.exists_printed {text : String} (h : IsCommentText text.toList) (depth : Nat) :
    ∃ isBlock raw, IsComment isBlock raw ∧
      (comments depth [text]).toList = (pad depth).toList ++ (raw ++ ['\n']) ∧
      String.ofList (if isBlock then alignedBlock raw else trimEnd raw) = text := by
  rcases h with ⟨hline, htrim⟩ | ⟨hblock, haligned⟩
  · refine ⟨false, text.toList, hline, ?_, by simp [htrim]⟩
    obtain ⟨hopening, hbody⟩ := isComment_iff.mp hline
    have hline : '\n' ∉ text.toList := by
      rw [← List.take_append_drop 2 text.toList, hopening, List.mem_append]
      rintro (hmem | hmem)
      · simp at hmem
      · exact absurd (List.all_eq_true.mp hbody _ hmem) (by decide)
    have hlines : lines text.toList = [text.toList] := lines_of_notMem hline (by
      rintro hnil
      rw [hnil] at hopening
      cases hopening)
    have htext := toList_comments depth text.toList
    rw [String.ofList_toList, hlines] at htext
    simpa using htext
  · cases hblock with
    | block hblock =>
      obtain ⟨first, rest, htext, hlines, hcloses⟩ := hblock.exists_eq_blockOf
      rw [htext, alignedBlock_blockOf hlines hcloses] at haligned
      have hprinted := toList_comments_blockOf depth hlines hcloses
      rw [haligned, ← htext, String.ofList_toList] at hprinted
      refine ⟨true, _, .block (isBlockComment_blockOf ?_), by rw [hprinted, List.append_assoc], ?_⟩
      · exact closesAtEnd_moved isBlank_of_mem_pad (closesAtEnd_aligned hcloses)
      · rw [if_pos rfl, alignedBlock_moved isBlank_of_mem_pad (newline_notMem_pad depth) hlines hcloses,
          haligned, ← htext, String.ofList_toList]

theorem toList_comments_eq_flatMap (depth : Nat) (texts : List String) :
    (comments depth texts).toList = texts.flatMap fun text => (comments depth [text]).toList := by
  simp [comments, String.toList_join, List.flatMap_map, List.map_flatMap, List.flatMap_assoc]

namespace Syntax

variable {source behind : List Char} {later : List Comment} {lexemes : List Lexeme}

/-- The printed comments in front of something have the texts that are printed, and end in front of
it. -/
theorem Lexes.comments_ahead {texts : List String} (h : ∀ text ∈ texts, IsCommentText text.toList)
    (depth : Nat) (hsuffix : (comments depth texts).toList ++ behind <:+ source)
    (hrest : Lexes source behind later lexemes) : ∃ taken marked, broken marked = broken lexemes ∧
      Lexes source ((comments depth texts).toList ++ behind) (taken ++ later) marked ∧
      taken.map (commentText source) = texts ∧
      ∀ comment ∈ taken, comment.span.stop ≤ (Cursor.within source behind).offset := by
  induction texts with
  | nil => exact ⟨[], lexemes, rfl, hrest, rfl, List.forall_mem_nil _⟩
  | cons text texts ih =>
    rw [List.forall_mem_cons] at h
    obtain ⟨isBlock, raw, hraw, hprinted, htext⟩ := h.1.exists_printed depth
    have hpad : (pad depth).toList = List.replicate (2 * depth) ' ' := String.toList_ofList
    have hlines : (comments depth (text :: texts)).toList ++ behind =
        List.replicate (2 * depth) ' ' ++ (raw ++ '\n' :: ((comments depth texts).toList ++ behind)) := by
      rw [toList_comments_eq_flatMap, List.flatMap_cons, ← toList_comments_eq_flatMap, hprinted, hpad]
      simp
    rw [hlines] at hsuffix ⊢
    have hcomment := (List.suffix_append _ _).trans hsuffix
    have hbehind := (List.suffix_cons _ _).trans ((List.suffix_append _ _).trans hcomment)
    obtain ⟨taken, marked, hmarked, hlexes, htexts, hstops⟩ := ih h.2 hbehind
    refine ⟨_ :: taken, broken marked, by rw [broken_broken, hmarked],
      (Lexes.comment hraw hlexes).blanks _, ?_, List.forall_mem_cons.mpr ⟨?_, hstops⟩⟩
    · rw [List.map_cons, htexts, commentText, slice_within hcomment, htext]
    · have hprinted : (raw ++ '\n' :: (comments depth texts).toList) ++ behind <:+ source := by
        simpa using hcomment
      rw [Cursor.offset_within_append hprinted]
      simp only [Cursor.within, Span.within, byteLength_append, byteLength_cons, List.append_assoc,
        List.cons_append]
      omega

/-- What is in front of something gets the comments that end in front of it, as long as those inside of
it begin behind its first token and those that are left begin behind it. -/
theorem Commented.of_lexes {texts : List String} {taken inner : List Comment} {inside : List Char}
    {insides : List Lexeme} {start : Nat} (htexts : taken.map (commentText source) = texts)
    (htaken : ∀ comment ∈ taken, comment.span.stop ≤ start)
    (hinner : Lexes source inside inner insides) (hinside : inside <:+ source)
    (hstart : start < (Cursor.within source inside).offset)
    (hbehind : Lexes source behind later lexemes) (hsuffix : behind <:+ source)
    (hordered : start ≤ (Cursor.within source behind).offset) :
    Commented source texts (taken ++ inner) inner later start
      (Cursor.within source behind).offset := by
  have hout : ∀ comment ∈ inner, start < comment.span.stop := fun comment hmem => by
    have hplaces := hinner.comments_behind hinside comment hmem
    omega
  have hleft : ∀ comment ∈ later, (Cursor.within source behind).offset ≤ comment.span.start :=
    fun comment hmem => (hbehind.comments_behind hsuffix comment hmem).1
  have hnone {p : Comment → Bool} {comments : List Comment}
      (h : ∀ comment ∈ comments, p comment = false) :
      comments.takeWhile p = [] ∧ comments.dropWhile p = comments := by
    cases comments with
    | nil => exact ⟨rfl, rfl⟩
    | cons comment comments =>
      have hfirst : ¬p comment = true := by simp [h comment List.mem_cons_self]
      exact ⟨List.takeWhile_cons_of_neg hfirst, List.dropWhile_cons_of_neg hfirst⟩
  refine ⟨?_, ?_, hordered⟩
  · have hall : ∀ comment ∈ taken, decide (comment.span.stop ≤ start) = true :=
      fun comment hmem => decide_eq_true (htaken comment hmem)
    obtain ⟨htake, hdrop⟩ := hnone (p := fun comment => decide (comment.span.stop ≤ start))
      fun comment hmem => decide_eq_false (Nat.not_le_of_lt (hout comment hmem))
    rw [run_takeComments, List.takeWhile_append_of_pos hall, List.dropWhile_append_of_pos hall, htake,
      hdrop, List.append_nil, htexts]
  · obtain ⟨-, hdrop⟩ := hnone 
      (p := fun comment => decide (comment.span.start < (Cursor.within source behind).offset))
      fun comment hmem => decide_eq_false (Nat.not_lt_of_le (hleft comment hmem))
    exact congrArg (fun comments => Except.ok ((), comments)) hdrop

end Syntax

end Declutter
