import Declutter.Proofs.BlockComments
import Declutter.Syntax.Lexer
import Declutter.Text.Slice

/-!
# Texts as lexemes

`Lexes source cs comments ls` says that what is left of a source, `cs`, consists of the lexemes `ls`,
with blanks, line ends and the comments `comments` between them. Each comment stands at the end of
a line. The judgment is built up from the end of the text, and each token is checked with all that
stands behind it, so that no lexeme can be cut too short.

The lexer reads these lexemes one by one: `Lexer.next_of_reaches`. It reads them whatever it has read
before, unless it stands in a template, since none of them begins with a slash.
-/

namespace Declutter.Text

/-! ## Bytes -/

@[simp] theorem byteLength_nil : byteLength [] = 0 := rfl

@[simp] theorem byteLength_cons (c : Char) (cs : List Char) :
    byteLength (c :: cs) = c.utf8Size + byteLength cs := rfl

@[simp] theorem byteLength_append (cs ds : List Char) :
    byteLength (cs ++ ds) = byteLength cs + byteLength ds := by
  induction cs with
  | nil => simp
  | cons c cs ih => simp [ih, Nat.add_assoc]

theorem byteLength_pos {cs : List Char} (h : cs ≠ []) : 0 < byteLength cs := by
  cases cs with
  | nil => exact absurd rfl h
  | cons c cs => exact Nat.lt_add_right _ c.utf8Size_pos

theorem byteLength_le_of_suffix {cs source : List Char} (h : cs <:+ source) :
    byteLength cs ≤ byteLength source := by
  obtain ⟨front, rfl⟩ := h
  simp

theorem dropBytes_append (front cs : List Char) :
    dropBytes (byteLength front) (front ++ cs) = cs := by
  induction front with
  | nil => cases cs <;> rw [List.nil_append, byteLength_nil, dropBytes]
  | cons c front ih =>
    obtain ⟨n, hn⟩ := Nat.exists_eq_add_of_lt c.utf8Size_pos
    have hcount : byteLength (c :: front) = n + byteLength front + 1 := by
      rw [byteLength_cons]; omega
    have hleft : n + byteLength front + 1 - c.utf8Size = byteLength front := by omega
    rw [List.cons_append, hcount, dropBytes, hleft, ih]

theorem takeBytes_append (front cs : List Char) :
    takeBytes (byteLength front) (front ++ cs) = front := by
  induction front with
  | nil => rw [byteLength_nil, takeBytes]
  | cons c front ih =>
    obtain ⟨n, hn⟩ := Nat.exists_eq_add_of_lt c.utf8Size_pos
    have hcount : byteLength (c :: front) = n + byteLength front + 1 := by
      rw [byteLength_cons]; omega
    have hleft : n + byteLength front + 1 - c.utf8Size = byteLength front := by omega
    rw [List.cons_append, hcount, takeBytes, hleft, ih]

end Declutter.Text

namespace Declutter.Syntax

open Declutter.Text

variable {source : List Char}

/-! ## Places in a source -/

/-- The cursor in a source behind which a text is left. -/
def Cursor.within (source cs : List Char) : Cursor :=
  ⟨cs, byteLength source - byteLength cs⟩

/-- The stretch of a source from where one text is left to where another is. -/
def Span.within (source cs behind : List Char) : Span :=
  ⟨byteLength source - byteLength cs, byteLength source - byteLength behind⟩

theorem Cursor.advance_within {c : Char} {cs : List Char} (h : c :: cs <:+ source) :
    (Cursor.within source (c :: cs)).advance = Cursor.within source cs := by
  have hle := byteLength_le_of_suffix h
  rw [byteLength_cons] at hle
  simp only [Cursor.within, Cursor.advance, byteLength_cons, Cursor.mk.injEq, true_and]
  omega

theorem Cursor.skip_within {text behind : List Char}
    (h : text ++ behind <:+ source) :
    (Cursor.within source (text ++ behind)).skip text.length = Cursor.within source behind := by
  induction text with
  | nil => rfl
  | cons c text ih =>
    rw [List.cons_append] at h
    rw [List.length_cons, Cursor.skip, List.cons_append, Cursor.advance_within h]
    exact ih ((List.suffix_cons c _).trans h)

/-- A text is as long as the place behind it is away from it. -/
theorem Cursor.offset_within_append {front cs : List Char} (h : front ++ cs <:+ source) :
    (Cursor.within source cs).offset =
      (Cursor.within source (front ++ cs)).offset + byteLength front := by
  have hle := byteLength_le_of_suffix h
  simp only [Cursor.within, byteLength_append] at hle ⊢
  omega

theorem Cursor.offset_within_le (source front cs : List Char) :
    (Cursor.within source (front ++ cs)).offset ≤ (Cursor.within source cs).offset := by
  simp only [Cursor.within, byteLength_append]
  omega

/-- The source has between two places what stands between them. -/
theorem slice_within {text behind : List Char} (h : text ++ behind <:+ source) :
    slice source (Span.within source (text ++ behind) behind).start
      (Span.within source (text ++ behind) behind).stop = text := by
  obtain ⟨front, rfl⟩ := h
  have hstart : byteLength (front ++ (text ++ behind)) - byteLength (text ++ behind) =
      byteLength front := by simp
  have hstop : byteLength (front ++ (text ++ behind)) - byteLength behind -
      byteLength front = byteLength text := by
    simp only [byteLength_append]
    omega
  simp only [Span.within, slice]
  rw [hstart, hstop, dropBytes_append, takeBytes_append]

/-! ## Tokens -/

/-- Whether a token is read as itself only where `<` and `>` stand alone. -/
def Token.isAngle (token : Token) : Bool := token.spells "<" || token.spells ">"

/-- A token that is none of a template's and no malformed one. -/
def Token.isPlain : Token → Bool
  | .malformed _ => false
  | .sign text => text ≠ backtick
  | _ => true

/-- `c :: text`, in front of `behind`, is read as a token wherever `<` and `>` stand alone. -/
structure Scans (c : Char) (text behind : List Char) (token : Token) : Prop where
  scan : ∀ allowed offset, Lexer.scanToken ⟨true⟩ allowed offset c (text ++ behind) =
    ⟨token, text.length + 1, []⟩
  plain : token.isPlain = true
  /-- Neither a gap nor the end of the text begins here, nor a script's first line. -/
  solid : isLineEnd c = false ∧ isGapBlank c = false ∧ c ≠ '/' ∧ c ≠ '\x00' ∧ c ≠ '#'
  /-- Neither the end of an old-style comment nor the mark of a conflict begins here. -/
  unmarked : ¬['-', '-'] <+: c :: (text ++ behind) ∧ ¬['=', '='] <+: c :: (text ++ behind)

/-- A token that is no angle is read in the same way wherever it stands. -/
theorem Scans.scan_of_not_angle {c : Char} {text behind : List Char} {token : Token}
    (h : Scans c text behind token) (hangle : token.isAngle = false) (mode : LexMode)
    (allowed : Bool) (offset : Nat) :
    c ≠ '<' ∧ c ≠ '>' ∧ Lexer.scanToken mode allowed offset c (text ++ behind) =
      ⟨token, text.length + 1, []⟩ := by
  have hscan := h.scan allowed offset
  have hopen : c ≠ '<' := by
    rintro rfl
    have hword : startsWord '<' = false := by decide
    simp [Lexer.scanToken, Lexer.signOf?, hword] at hscan
    rw [← hscan.1] at hangle
    exact absurd hangle (by decide)
  have hclose : c ≠ '>' := by
    rintro rfl
    have hword : startsWord '>' = false := by decide
    simp [Lexer.scanToken, Lexer.signOf?, hword] at hscan
    rw [← hscan.1] at hangle
    exact absurd hangle (by decide)
  refine ⟨hopen, hclose, ?_⟩
  rw [← hscan]
  unfold Lexer.scanToken Lexer.signOf?
  simp [hopen, hclose]

/-! ## Comments -/

/-- The text of a comment: up to a line end in front of which it is read as a whole, or up to the
first `*/` in it. -/
inductive IsComment : (isBlock : Bool) → List Char → Prop
  | line {text} : (∀ c ∈ text, isLineEnd c = false) → IsComment false ('/' :: '/' :: text)
  | block {text} : IsBlockComment text → IsComment true text

namespace Gap

theorem scan_lineComment {text : List Char} (h : ∀ c ∈ text, isLineEnd c = false)
    (start offset : Nat) (cs : List Char) :
    scan (.lineComment start) offset (text ++ '\n' :: cs) =
      ((scan .blank (offset + byteLength text + 1) cs).withBreak).withComment
        ⟨false, ⟨start, offset + byteLength text⟩⟩ := by
  induction text generalizing offset with
  | nil =>
    rw [List.nil_append, scan, if_pos (by decide)]
    rfl
  | cons c text ih =>
    obtain ⟨hc, htext⟩ := List.forall_mem_cons.mp h
    rw [List.cons_append, scan, if_neg (by simp [hc]), ih htext, byteLength_cons, Nat.add_assoc]

/-- A line end in a block comment does not tell where one follows the comment. -/
theorem scan_blockComment {body : List Char} (h : ¬['*', '/'] <:+: body) (start offset : Nat)
    (star : Bool) (hstar : star = true → body.head? ≠ some '/') (cs : List Char) :
    scan (.blockComment start star) offset (body ++ '*' :: '/' :: '\n' :: cs) =
      ((scan .blank (offset + byteLength body + 3) cs).withBreak).withComment
        ⟨true, ⟨start, offset + byteLength body + 2⟩⟩ := by
  induction body generalizing offset star with
  | nil =>
    have hbreak (offset : Nat) : scan .blank offset ('\n' :: cs) =
        (scan .blank (offset + 1) cs).withBreak := rfl
    rw [List.nil_append, scan, if_neg (by simp), if_neg (by decide)]
    show scan (.blockComment start true) (offset + 1) ('/' :: '\n' :: cs) = _
    rw [scan, if_pos (by decide), hbreak]
    rfl
  | cons c body ih =>
    rw [List.infix_cons_iff, not_or] at h
    obtain ⟨hhere, hbody⟩ := h
    have hclose : (star && c = '/') = false := by
      cases star with
      | false => rfl
      | true => simpa using hstar rfl
    have hnext : decide (c = '*') = true → body.head? ≠ some '/' := by
      intro hc hhead
      obtain ⟨rest, rfl⟩ := List.head?_eq_some_iff.mp hhead
      obtain rfl : c = '*' := of_decide_eq_true hc
      exact hhere ⟨rest, rfl⟩
    rw [List.cons_append, scan, if_neg (by simp [hclose]), ih hbody _ _ hnext, byteLength_cons]
    simp only [Nat.add_assoc]
    split
    · rfl
    · rfl

/-- A comment on a line of its own. -/
theorem before_comment {isBlock : Bool} {text cs : List Char} (h : IsComment isBlock text)
    (hsuffix : text ++ '\n' :: cs <:+ source) :
    before (.within source (text ++ '\n' :: cs)) =
      ((before (.within source cs)).withBreak).withComment
        ⟨isBlock, .within source (text ++ '\n' :: cs) ('\n' :: cs)⟩ := by
  have hle := byteLength_le_of_suffix hsuffix
  simp only [byteLength_append, byteLength_cons] at hle
  have hslash : ('/' : Char).utf8Size = 1 := rfl
  have hstar : ('*' : Char).utf8Size = 1 := rfl
  have hline : ('\n' : Char).utf8Size = 1 := rfl
  unfold before Cursor.within Span.within
  cases h with
  | @line text htext =>
    show scan (.lineComment _) _ (text ++ '\n' :: cs) = _
    simp only [byteLength_cons, List.cons_append, byteLength_append] at hle ⊢
    rw [scan_lineComment htext]
    congr 4 <;> omega
  | block hblock =>
    obtain ⟨_, rfl, body, rfl, hbody⟩ := hblock
    show scan (.blockComment _ false) _ (body ++ ['*', '/'] ++ '\n' :: cs) = _
    rw [List.append_assoc]
    simp only [byteLength_cons, List.cons_append, byteLength_append, byteLength_nil,
      List.nil_append] at hle ⊢
    rw [scan_blockComment hbody _ _ false nofun]
    congr 4 <;> omega

end Gap

/-! ## Lexemes -/

/-- Lexemes with a line end in front of the first one. -/
def broken : List Lexeme → List Lexeme
  | [] => []
  | lexeme :: lexemes => { lexeme with afterBreak := true } :: lexemes

/-- What is left of a source consists of these lexemes and comments. -/
inductive Lexes (source : List Char) : List Char → List Comment → List Lexeme → Prop
  | done : Lexes source [] [] []
  | blank {cs comments lexemes} : Lexes source cs comments lexemes →
      Lexes source (' ' :: cs) comments lexemes
  | line {cs comments lexemes} : Lexes source cs comments lexemes →
      Lexes source ('\n' :: cs) comments (broken lexemes)
  | comment {isBlock text cs comments lexemes} : IsComment isBlock text →
      Lexes source cs comments lexemes →
      Lexes source (text ++ '\n' :: cs)
        (⟨isBlock, .within source (text ++ '\n' :: cs) ('\n' :: cs)⟩ :: comments) (broken lexemes)
  | token {c text behind token comments lexemes} : Scans c text behind token →
      Lexes source behind comments lexemes →
      Lexes source (c :: (text ++ behind)) comments
        (⟨token, .within source (c :: (text ++ behind)) behind, false⟩ :: lexemes)

theorem length_broken (lexemes : List Lexeme) : (broken lexemes).length = lexemes.length := by
  cases lexemes <;> rfl

theorem broken_broken (lexemes : List Lexeme) : broken (broken lexemes) = broken lexemes := by
  cases lexemes <;> rfl

theorem broken_append {lexemes : List Lexeme} (hne : lexemes ≠ []) (rest : List Lexeme) :
    broken (lexemes ++ rest) = broken lexemes ++ rest := by
  cases lexemes with
  | nil => exact absurd rfl hne
  | cons => rfl

namespace Lexes

variable {cs : List Char} {comments : List Comment} {lexemes : List Lexeme}

theorem blanks (n : Nat) (h : Lexes source cs comments lexemes) :
    Lexes source (List.replicate n ' ' ++ cs) comments lexemes := by
  induction n with
  | zero => exact h
  | succ n ih => exact .blank ih

/-- A text holds no more lexemes than characters. -/
theorem length_le (h : Lexes source cs comments lexemes) : lexemes.length ≤ cs.length := by
  induction h with
  | done => simp
  | blank _ ih =>
    rw [List.length_cons]
    omega
  | line _ ih =>
    rw [length_broken, List.length_cons]
    omega
  | comment _ _ ih =>
    rw [length_broken, List.length_append, List.length_cons]
    omega
  | token _ _ ih =>
    simp only [List.length_cons, List.length_append]
    omega

theorem plain (h : Lexes source cs comments lexemes) :
    ∀ lexeme ∈ lexemes, lexeme.token.isPlain = true := by
  have hbroken {lexemes : List Lexeme} (h : ∀ lexeme ∈ lexemes, lexeme.token.isPlain = true) :
      ∀ lexeme ∈ broken lexemes, lexeme.token.isPlain = true := by
    cases lexemes with
    | nil => exact h
    | cons lexeme lexemes =>
      simp only [broken, List.mem_cons, forall_eq_or_imp] at h ⊢
      exact h
  induction h with
  | done => simp
  | blank _ ih => exact ih
  | line _ ih | comment _ _ ih => exact hbroken ih
  | token hscan _ ih =>
    simp only [List.mem_cons, forall_eq_or_imp]
    exact ⟨hscan.plain, ih⟩

/-- Neither a script's first line nor the mark of an encoding begins here. -/
theorem head_ne (h : Lexes source cs comments lexemes) :
    ∀ c ∈ cs.head?, c ≠ '#' ∧ c ≠ '\ufeff' := by
  cases h with
  | done => simp
  | blank _ => simp
  | line _ => simp
  | comment htext _ =>
    cases htext with
    | line => simp
    | block hblock =>
      obtain ⟨_, rfl, -⟩ := hblock
      simp
  | token hscan _ =>
    rintro _ ⟨⟩
    obtain ⟨-, hblank, -, -, hscript⟩ := hscan.solid
    refine ⟨hscript, ?_⟩
    rintro rfl
    cases hblank

/-- Where a text is left, the comments that are left lie behind it. -/
theorem comments_behind (h : Lexes source cs comments lexemes) (hsuffix : cs <:+ source) :
    ∀ comment ∈ comments, (Cursor.within source cs).offset ≤ comment.span.start ∧
      comment.span.start ≤ comment.span.stop := by
  have hpass (front : List Char) {cs : List Char} {comments : List Comment} (hsuffix : front ++ cs <:+ source)
      (ih : cs <:+ source → ∀ comment ∈ comments,
        (Cursor.within source cs).offset ≤ comment.span.start ∧
          comment.span.start ≤ comment.span.stop) :
      ∀ comment ∈ comments, (Cursor.within source (front ++ cs)).offset ≤ comment.span.start ∧
        comment.span.start ≤ comment.span.stop := by
    intro comment hmem
    obtain ⟨hle, hordered⟩ := ih ((List.suffix_append front cs).trans hsuffix) comment hmem
    refine ⟨Nat.le_trans ?_ hle, hordered⟩
    rw [Cursor.offset_within_append hsuffix]
    exact Nat.le_add_right _ _
  induction h with
  | done => simp
  | blank _ ih => exact hpass [' '] hsuffix ih
  | line _ ih => exact hpass ['\n'] hsuffix ih
  | @comment isBlock text cs _ _ _ _ ih =>
    rw [List.append_cons] at hsuffix ⊢
    refine List.forall_mem_cons.mpr ⟨⟨Nat.le_refl _, ?_⟩, hpass _ hsuffix ih⟩
    simp only [Span.within, byteLength_append, byteLength_cons, byteLength_nil]
    omega
  | @token c text behind _ _ _ _ _ ih => exact hpass (c :: text) hsuffix ih

/-- The comments of a text are in order. -/
theorem pairwise_start (h : Lexes source cs comments lexemes) (hsuffix : cs <:+ source) :
    comments.Pairwise fun comment later => comment.span.start ≤ later.span.start := by
  induction h with
  | done => exact .nil
  | blank _ ih => exact ih ((List.suffix_cons _ _).trans hsuffix)
  | line _ ih => exact ih ((List.suffix_cons _ _).trans hsuffix)
  | @comment isBlock text cs _ _ _ hrest ih =>
    have hcs : cs <:+ source :=
      (List.suffix_cons _ _).trans ((List.suffix_append _ _).trans hsuffix)
    refine .cons (fun later hmem => ?_) (ih hcs)
    have hle := (hrest.comments_behind hcs later hmem).1
    simp only [Cursor.within, Span.within, byteLength_append, byteLength_cons] at hle ⊢
    omega
  | @token c text behind _ _ _ _ _ ih =>
    exact ih (((List.suffix_append text behind).trans (List.suffix_cons c _)).trans hsuffix)

end Lexes

/-- What the gap in front of lexemes comes to: the comments in it, and a place where the first of
the lexemes is read. -/
structure Gap.Leads (gap : Gap) (source : List Char) (comments : List Comment)
    (lexemes : List Lexeme) : Prop where
  terminated : gap.unterminated = none
  hasBreak : ∀ lexeme ∈ lexemes.head?, gap.hasBreak = lexeme.afterBreak
  stop : (lexemes = [] ∧ comments = gap.comments ∧ gap.stop = .within source []) ∨
    ∃ c text behind first later rest, Scans c text behind first.token ∧
      Lexes source behind later rest ∧ c :: (text ++ behind) <:+ source ∧
      lexemes = first :: rest ∧ comments = gap.comments ++ later ∧
      first.span = .within source (c :: (text ++ behind)) behind ∧
      gap.stop = .within source (c :: (text ++ behind))

/-- A gap with a line end in front of it. -/
theorem Gap.Leads.withBreak {gap : Gap} {comments : List Comment} {lexemes : List Lexeme}
    (h : gap.Leads source comments lexemes) : gap.withBreak.Leads source comments (broken lexemes) := by
  obtain ⟨hterminated, -, hstop⟩ := h
  refine ⟨hterminated, ?_, ?_⟩
  · cases lexemes <;> simp [broken, Gap.withBreak]
  · rcases hstop with ⟨rfl, hcomments, hend⟩ | ⟨c, text, behind, first, later, rest, hfirst⟩
    · exact .inl ⟨rfl, hcomments, hend⟩
    · obtain ⟨hscans, hlexes, hsuff, rfl, hcomments, hspan, hgap⟩ := hfirst
      exact .inr ⟨c, text, behind, { first with afterBreak := true }, later, rest, hscans, hlexes,
        hsuff, rfl, hcomments, hspan, hgap⟩

/-- A gap with a comment in front of it. -/
theorem Gap.Leads.withComment {gap : Gap} {comments : List Comment} {lexemes : List Lexeme}
    (h : gap.Leads source comments lexemes) (comment : Comment) :
    (gap.withComment comment).Leads source (comment :: comments) lexemes := by
  obtain ⟨hterminated, hbreak, hstop⟩ := h
  refine ⟨hterminated, hbreak, ?_⟩
  rcases hstop with ⟨rfl, rfl, hend⟩ | ⟨c, text, behind, first, later, rest, hfirst⟩
  · exact .inl ⟨rfl, rfl, hend⟩
  · obtain ⟨hscans, hlexes, hsuff, rfl, rfl, hspan, hgap⟩ := hfirst
    exact .inr ⟨c, text, behind, first, later, rest, hscans, hlexes, hsuff, rfl, rfl, hspan, hgap⟩

theorem Lexes.gap {cs : List Char} {comments : List Comment} {lexemes : List Lexeme}
    (h : Lexes source cs comments lexemes) (hsuffix : cs <:+ source) :
    (Gap.before (.within source cs)).Leads source comments lexemes := by
  -- along the text: blanks change nothing, a line end marks the lexeme behind it, a comment is put
  -- in front, and a token ends the gap because nothing that a gap is made of begins like it
  induction h with
  | done => exact ⟨rfl, by simp, .inl ⟨rfl, rfl, rfl⟩⟩
  | @blank cs comments lexemes _ ih =>
    have hrest : cs <:+ source := (List.suffix_cons _ _).trans hsuffix
    have hscan : Gap.before (.within source (' ' :: cs)) = Gap.before (.within source cs) := by
      rw [← Cursor.advance_within hsuffix]
      rfl
    rw [hscan]
    exact ih hrest
  | @line cs comments lexemes _ ih =>
    have hrest : cs <:+ source := (List.suffix_cons _ _).trans hsuffix
    have hscan : Gap.before (.within source ('\n' :: cs)) =
        (Gap.before (.within source cs)).withBreak := by
      rw [← Cursor.advance_within hsuffix]
      rfl
    rw [hscan]
    exact (ih hrest).withBreak
  | @comment isBlock text cs comments lexemes htext _ ih =>
    have hrest : cs <:+ source :=
      (List.suffix_cons _ _).trans ((List.suffix_append _ _).trans hsuffix)
    rw [Gap.before_comment htext hsuffix]
    exact (ih hrest).withBreak.withComment _
  | @token c text behind token comments lexemes hscans hlexes ih =>
    obtain ⟨hline, hblank, hslash, -⟩ := hscans.solid
    have hscan : Gap.before (.within source (c :: (text ++ behind))) =
        ⟨[], false, none, .within source (c :: (text ++ behind))⟩ := by
      rw [Gap.before, Cursor.within, Gap.scan.eq_def]
      simp only [hline, hblank, Bool.false_eq_true, if_false]
      split
      · exact absurd rfl hslash
      · exact absurd rfl hslash
      · rfl
    rw [hscan]
    exact ⟨rfl, by simp, .inr ⟨c, text, behind, _, comments, lexemes, hscans, hlexes, hsuffix, rfl,
      rfl, rfl, rfl⟩⟩

/-! ## The lexer -/

/-- A bracket that is no template. -/
def Bracket.isPlain : Bracket → Bool
  | .template _ => false
  | _ => true

namespace Lexer

/-- What a lexer keeps while it takes note of a token: all but what the token says of the next
one. Templates are not opened by it. -/
structure Keeps (before after : Lexer) : Prop where
  cursor : after.cursor = before.cursor
  hasBreak : after.hasBreak = before.hasBreak
  isFirst : after.isFirst = before.isFirst
  comments : after.comments = before.comments
  plain : (∀ bracket ∈ before.brackets, bracket.isPlain = true) →
    ∀ bracket ∈ after.brackets, bracket.isPlain = true

namespace Keeps

theorem operand (lexer : Lexer) (operandAllowed : Bool) :
    lexer.Keeps { lexer with operandAllowed } := ⟨rfl, rfl, rfl, rfl, id⟩

theorem push (lexer : Lexer) {bracket : Bracket} (h : bracket.isPlain = true)
    (operandAllowed : Bool) : lexer.Keeps (lexer.push bracket operandAllowed) :=
  ⟨rfl, rfl, rfl, rfl, fun hplain => by
    simpa [Lexer.push, List.forall_mem_cons] using ⟨h, hplain⟩⟩

theorem closeBracket (lexer : Lexer) : lexer.Keeps lexer.closeBracket := by
  unfold Lexer.closeBracket
  split
  · rename_i closed outer rest heq
    have htail {p : Bracket → Prop} (h : ∀ bracket ∈ lexer.brackets, p bracket) :
        (∀ bracket ∈ outer :: rest, p bracket) ∧ ∀ bracket ∈ rest, p bracket := by
      rw [heq] at h
      simp only [List.mem_cons, forall_eq_or_imp] at h ⊢
      exact ⟨h.2, h.2.2⟩
    split
    · exact ⟨rfl, rfl, rfl, rfl, fun h => (htail h).2⟩
    · split
      · exact ⟨rfl, rfl, rfl, rfl, fun h => (htail h).1⟩
      · exact ⟨rfl, rfl, rfl, rfl, fun h => (htail h).1⟩
  · exact operand lexer true

theorem noteBody (lexer : Lexer) {bracket : Bracket} (h : bracket.isPlain = true) :
    lexer.Keeps (lexer.noteBody bracket) := by
  unfold Lexer.noteBody
  split
  · exact push lexer h false
  · exact operand lexer false

theorem noteSign (lexer : Lexer) {text : String} (htext : text ≠ backtick) (start : Nat) :
    lexer.Keeps (lexer.noteSign text start) := by
  unfold Lexer.noteSign
  simp only
  split
  · exact closeBracket lexer
  split
  · exact ⟨rfl, rfl, rfl, rfl, fun h bracket hmem => h bracket (List.mem_of_mem_drop hmem)⟩
  split
  · exact push lexer (by split <;> rfl) true
  split
  · exact push lexer rfl true
  split
  · exact push lexer (by split; · rfl
                         · split <;> rfl) true
  split
  · exact ⟨rfl, rfl, rfl, rfl, id⟩
  split
  · exact absurd ‹_› htext
  · exact operand lexer _

theorem note (lexer : Lexer) {token : Token} (h : token ≠ .sign backtick) (start : Nat) :
    lexer.Keeps (lexer.note token start) := by
  have hkeeps {noted : Lexer} (hnoted : lexer.Keeps noted) :
      lexer.Keeps { noted with last := some token, hadBreak := lexer.hasBreak } :=
    ⟨hnoted.cursor, hnoted.hasBreak, hnoted.isFirst, hnoted.comments, hnoted.plain⟩
  unfold Lexer.note
  refine hkeeps ?_
  split
  · split
    · exact operand lexer false
    split
    · exact noteBody lexer rfl
    split
    · exact noteBody lexer rfl
    · exact operand lexer _
  · split <;> exact operand lexer _
  · exact noteSign lexer (fun htext => h (congrArg Token.sign htext)) start
  · exact operand lexer false

end Keeps

/-- A lexer in front of these lexemes, with no template open. The comments that it holds and those
to come are all of the text's. -/
structure Reaches (lexer : Lexer) (source : List Char) (comments : List Comment)
    (lexemes : List Lexeme) : Prop where
  text : ∃ cs later, cs <:+ source ∧ lexer.cursor = .within source cs ∧
    Lexes source cs later lexemes ∧ lexer.comments.reverse ++ later = comments
  plain : ∀ bracket ∈ lexer.brackets, bracket.isPlain = true

/-- What a step of the lexer gives in front of lexemes: the first of them, and a lexer in front of
the others. -/
structure Step.Gives (step : Step) (source : List Char) (comments : List Comment)
    (lexeme : Lexeme) (lexemes : List Lexeme) : Prop where
  lexeme : step.lexeme = some lexeme
  faults : step.faults = []
  isEnd : step.isEnd = false
  isFirst : step.lexer.isFirst = false
  reaches : step.lexer.Reaches source comments lexemes

section

variable {lexer : Lexer} {mode : LexMode} {c : Char} {text behind : List Char} {token : Token}

/-- In any mode that leaves angles alone where the token is one. -/
theorem scanToken_of_scans (hscans : Scans c text behind token)
    (hmode : mode.singleAngles = true ∨ token.isAngle = false) (allowed : Bool) (offset : Nat) :
    scanToken mode allowed offset c (text ++ behind) = ⟨token, text.length + 1, []⟩ := by
  rcases hmode with hmode | hangle
  · obtain rfl : mode = ⟨true⟩ := by rw [← hmode]
    exact hscans.scan _ _
  · exact (hscans.scan_of_not_angle hangle mode _ _).2.2

/-- No old-style comment begins at a token. -/
theorem legacyComment?_of_scans (hscans : Scans c text behind token)
    (hrest : lexer.cursor.rest = c :: (text ++ behind))
    (hmode : mode.singleAngles = true ∨ token.isAngle = false) :
    lexer.legacyComment? mode = none := by
  unfold legacyComment?
  rw [hrest]
  split
  · rcases hmode with hmode | hangle
    · rw [if_pos hmode]
    · rename_i heq
      exact absurd (List.cons.inj heq).1 (hscans.scan_of_not_angle hangle mode true 0).1
  · rename_i heq
    have hdash := hscans.unmarked.1
    rw [heq] at hdash
    exact absurd ⟨_, rfl⟩ hdash
  · rfl

/-- No mark of a conflict begins at a token. -/
theorem atConflictMarker_of_scans (hscans : Scans c text behind token)
    (hrest : lexer.cursor.rest = c :: (text ++ behind))
    (hmode : mode.singleAngles = true ∨ token.isAngle = false) :
    lexer.atConflictMarker mode = false := by
  unfold atConflictMarker
  simp only [hrest, Bool.and_eq_false_imp, Bool.or_eq_false_iff]
  intro _
  refine ⟨Bool.eq_false_iff.mpr fun h => hscans.unmarked.2 ?_, fun hsingle => ?_⟩
  · exact (List.prefix_append ['=', '='] _).trans (List.isPrefixOf_iff_prefix.mp h)
  · rcases hmode with hmode | hangle
    · rw [hmode] at hsingle
      exact absurd hsingle (by decide)
    · obtain ⟨hopen, hclose, -⟩ := hscans.scan_of_not_angle hangle mode true 0
      constructor <;> refine Bool.eq_false_iff.mpr fun h => ?_
      · exact hopen (List.cons_prefix_cons.mp (List.isPrefixOf_iff_prefix.mp h)).1.symm
      · exact hclose (List.cons_prefix_cons.mp (List.isPrefixOf_iff_prefix.mp h)).1.symm

/-- Behind the gap, the first of the lexemes is read. -/
theorem readToken_of_scans {lexemes : List Lexeme} {later : List Comment} {fuel : Nat}
    (hscans : Scans c text behind token) (hlexes : Lexes source behind later lexemes)
    (hsuffix : c :: (text ++ behind) <:+ source)
    (hcursor : lexer.cursor = .within source (c :: (text ++ behind)))
    (hplain : ∀ bracket ∈ lexer.brackets, bracket.isPlain = true)
    (hfirst : lexer.isFirst = false) (hmode : mode.singleAngles = true ∨ token.isAngle = false) :
    (readToken mode lexer.cursor (fuel + 1) lexer).Gives source (lexer.comments.reverse ++ later)
      ⟨token, .within source (c :: (text ++ behind)) behind, lexer.hasBreak⟩ lexemes := by
  have hrest : lexer.cursor.rest = c :: (text ++ behind) := by rw [hcursor]; rfl
  have hread : readToken mode lexer.cursor (fuel + 1) lexer =
      lexer.emit lexer.cursor token (lexer.cursor.skip (text.length + 1)) [] := by
    obtain ⟨-, -, -, hnul, -⟩ := hscans.solid
    have hlegacy := legacyComment?_of_scans hscans hrest hmode
    have hmarker := atConflictMarker_of_scans hscans hrest hmode
    have hscan := scanToken_of_scans hscans hmode lexer.operandAllowed lexer.cursor.offset
    rw [readToken]
    split
    · rename_i heq
      rw [hrest] at heq
      cases heq
    · rename_i heq
      rw [hrest] at heq
      exact absurd (List.cons.inj heq).1 hnul
    · rename_i c' cs' _ heq
      rw [hrest] at heq
      obtain ⟨rfl, rfl⟩ := List.cons.inj heq
      simp only [hlegacy, hmarker, hscan, Bool.false_eq_true, if_false]
  have hstop : lexer.cursor.skip (text.length + 1) = .within source behind := by
    rw [hcursor]
    exact Cursor.skip_within (show (c :: text) ++ behind <:+ source from hsuffix)
  -- noting the token moves only what the lexer expects next, unless it opens a template
  have hsign : token ≠ .sign backtick := by
    rintro rfl
    exact absurd hscans.plain (by decide)
  have hkeeps := Keeps.note
    { lexer with cursor := .within source behind, tokenStart := lexer.cursor } hsign
    lexer.cursor.offset
  rw [hread, hstop]
  have hcomments : (lexer.emit lexer.cursor token (.within source behind) []).lexer.comments =
      lexer.comments := hkeeps.comments
  refine ⟨?_, rfl, rfl, hkeeps.isFirst.trans hfirst,
    ⟨behind, later, ?_, hkeeps.cursor, hlexes, by rw [hcomments]⟩, hkeeps.plain hplain⟩
  · have hbreak := hkeeps.hasBreak
    rw [hcursor] at hbreak
    simp only [emit, hcursor, hbreak]
    rfl
  · exact (List.suffix_append text behind).trans ((List.suffix_cons c _).trans hsuffix)

end

/-- Outside of templates a step of the lexer passes by a gap and reads a token. -/
theorem next_eq {lexer : Lexer} {mode : LexMode} {cs : List Char}
    (hplain : ∀ bracket ∈ lexer.brackets, bracket.isPlain = true)
    (hcursor : lexer.cursor = .within source cs) (hhead : ∀ c ∈ cs.head?, c ≠ '#')
    (hterminated : (Gap.before (.within source cs)).unterminated = none) :
    lexer.next mode =
      readToken mode (Gap.before (.within source cs)).stop
        ((Gap.before (.within source cs)).stop.rest.length + 1)
        { lexer with
          cursor := (Gap.before (.within source cs)).stop
          hasBreak := lexer.isFirst || (Gap.before (.within source cs)).hasBreak
          isFirst := false
          comments := (Gap.before (.within source cs)).comments.reverse ++ lexer.comments } := by
  have hrest : lexer.cursor.rest = cs := by rw [hcursor]; rfl
  unfold next
  split
  · rename_i heq
    rw [hrest] at heq
    rw [heq] at hhead
    exact absurd rfl (hhead '#' rfl)
  · simp only
    split
    · rename_i start rest heq
      have hopen := hplain (.template start) (by rw [heq]; exact List.mem_cons_self)
      cases hopen
    · rw [hcursor, hterminated]
      rfl

/-- The lexer reads the first of the lexemes that it stands in front of. Where no token has been
read, a line is taken to end before it. -/
theorem next_of_reaches {lexer : Lexer} {mode : LexMode} {comments : List Comment} {lexeme : Lexeme}
    {lexemes : List Lexeme} (h : lexer.Reaches source comments (lexeme :: lexemes))
    (hmode : mode.singleAngles = true ∨ lexeme.token.isAngle = false) :
    (lexer.next mode).Gives source comments
      { lexeme with afterBreak := lexer.isFirst || lexeme.afterBreak } lexemes := by
  obtain ⟨⟨cs, ahead, hsuffix, hcursor, hlexes, rfl⟩, hplain⟩ := h
  obtain ⟨hterminated, hbreak, hstop⟩ := hlexes.gap hsuffix
  rcases hstop with ⟨hnil, -⟩ | ⟨c, text, behind, first, later, rest, hscans, hrest, hsuff, hfirst⟩
  · cases hnil
  obtain ⟨heq, rfl, hspan, hgap⟩ := hfirst
  obtain ⟨rfl, rfl⟩ := List.cons.inj heq
  rw [next_eq hplain hcursor (fun c hc => (hlexes.head_ne c hc).1) hterminated, hbreak lexeme rfl, hgap]
  let behindGap : Lexer := { lexer with
    cursor := .within source (c :: (text ++ behind))
    hasBreak := lexer.isFirst || lexeme.afterBreak
    isFirst := false
    comments := (Gap.before (.within source cs)).comments.reverse ++ lexer.comments }
  have hread : (readToken mode behindGap.cursor ((c :: (text ++ behind)).length + 1)
      behindGap).Gives source (behindGap.comments.reverse ++ later)
        ⟨lexeme.token, .within source (c :: (text ++ behind)) behind, behindGap.hasBreak⟩ lexemes :=
    readToken_of_scans hscans hrest hsuff rfl hplain rfl hmode
  rw [← hspan, List.reverse_append, List.reverse_reverse, List.append_assoc] at hread
  exact hread

/-- Where no lexeme is left the lexer finds the end, and holds all comments. -/
theorem next_of_reaches_nil {lexer : Lexer} {comments : List Comment} (mode : LexMode)
    (h : lexer.Reaches source comments []) :
    (lexer.next mode).lexeme = none ∧ (lexer.next mode).faults = [] ∧
      (lexer.next mode).isEnd = true ∧ (lexer.next mode).lexer.isFirst = false ∧
      (lexer.next mode).lexer.comments.reverse = comments ∧
      Reaches { (lexer.next mode).lexer with comments := [] } source [] [] := by
  obtain ⟨⟨cs, ahead, hsuffix, hcursor, hlexes, rfl⟩, hplain⟩ := h
  obtain ⟨hterminated, -, hstop⟩ := hlexes.gap hsuffix
  rcases hstop with ⟨-, rfl, hend⟩ | ⟨c, text, behind, first, later, rest, hfirst⟩
  · have hread (lexer : Lexer) (start : Cursor) (fuel : Nat) (h : lexer.cursor.rest = []) :
        readToken mode start (fuel + 1) lexer = ⟨none, lexer, [], true⟩ := by
      rw [readToken]
      split
      · rfl
      all_goals simp_all
    have hrest : (Gap.before (.within source cs)).stop.rest = [] := by rw [hend]; rfl
    rw [next_eq hplain hcursor (fun c hc => (hlexes.head_ne c hc).1) hterminated, hread _ _ _ hrest]
    exact ⟨rfl, rfl, rfl, rfl, by simp, ⟨⟨[], [], List.nil_suffix, hend, .done, rfl⟩, hplain⟩⟩
  · cases hfirst.2.2.2.1

end Lexer

end Declutter.Syntax
