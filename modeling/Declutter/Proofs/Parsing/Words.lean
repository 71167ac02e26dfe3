import Declutter.Proofs.Parsing.Invariants

/-!
# Where words are read from

Every token that a reading comes by is read from the text: the places of the lexer lie in it, and
each word among the lexemes at hand begins at one of them. What a word begins with is a character
that can start one, or an escape. The lexer takes note of an escape that stands for no character of
a word, but what it notes is lost where a trial is silent; so a word can begin with a point if an
escape for one is in the text, and only then.
-/

namespace Declutter.Syntax

variable {text : List Char}

/-! ## Places -/

theorem Cursor.advance_suffix (cursor : Cursor) : cursor.advance.rest <:+ cursor.rest := by
  unfold advance
  split
  · exact List.suffix_refl _
  · rename_i c cs heq
    rw [heq]
    exact List.suffix_cons c cs

theorem Cursor.skip_suffix (cursor : Cursor) (count : Nat) :
    (cursor.skip count).rest <:+ cursor.rest := by
  induction count generalizing cursor with
  | zero => exact List.suffix_refl _
  | succ count ih => exact (ih cursor.advance).trans cursor.advance_suffix

theorem Gap.scan_suffix (mode : GapMode) (offset : Nat) (cs : List Char) :
    (scan mode offset cs).stop.rest <:+ cs := by
  fun_induction scan mode offset cs with
  | case1 => exact List.suffix_refl _
  | case2 => exact List.suffix_refl _
  | case3 => exact List.suffix_refl _
  | case4 offset c cs _ ih => exact ih.trans (List.suffix_cons c cs)
  | case5 offset c cs _ _ ih => exact ih.trans (List.suffix_cons c cs)
  | case6 offset cs _ _ ih =>
    exact ih.trans ((List.suffix_cons '/' cs).trans (List.suffix_cons '/' _))
  | case7 offset cs _ _ ih =>
    exact ih.trans ((List.suffix_cons '*' cs).trans (List.suffix_cons '/' _))
  | case8 => exact List.suffix_refl _
  | case9 start offset c cs _ ih => exact ih.trans (List.suffix_cons c cs)
  | case10 start offset c cs _ ih => exact ih.trans (List.suffix_cons c cs)
  | case11 start star offset c cs _ ih => exact ih.trans (List.suffix_cons c cs)
  | case12 start star offset c cs _ gap _ ih => exact ih.trans (List.suffix_cons c cs)
  | case13 start star offset c cs _ gap _ ih => exact ih.trans (List.suffix_cons c cs)

namespace Lexer

/-- Where a lexer stands, where the last token began, and the comments that have been read. -/
def places (lexer : Lexer) : Cursor × Cursor × List Comment :=
  (lexer.cursor, lexer.tokenStart, lexer.comments)

theorem closeBracket_places (lexer : Lexer) : lexer.closeBracket.places = lexer.places := by
  unfold closeBracket
  split
  · split
    · rfl
    · split <;> rfl
  · rfl

theorem noteBody_places (lexer : Lexer) (bracket : Bracket) :
    (lexer.noteBody bracket).places = lexer.places := by
  unfold noteBody
  split <;> rfl

theorem noteSign_places (lexer : Lexer) (text : String) (start : Nat) :
    (lexer.noteSign text start).places = lexer.places := by
  unfold noteSign
  dsimp only
  split
  · exact lexer.closeBracket_places
  · repeat' first | rfl | split

/-- What a lexer takes note of leaves it where it is. -/
theorem note_places (lexer : Lexer) (token : Token) (start : Nat) :
    (lexer.note token start).places = lexer.places := by
  have hnoted (noted : Lexer) (h : noted.places = lexer.places) :
      Lexer.places { noted with last := some token, hadBreak := lexer.hasBreak } =
        lexer.places := h
  unfold note
  refine hnoted _ ?_
  split
  · repeat' first | rfl | exact lexer.noteBody_places _ | split
  · split <;> rfl
  · exact lexer.noteSign_places _ start
  · rfl

end Lexer

/-! ## Tokens -/

/-- A token that is no word, or a word that begins somewhere in a text. -/
def Token.ReadFrom (text : List Char) (token : Token) : Prop :=
  ∀ word, token.word? = some word → ∃ offset c cs, c :: cs <:+ text ∧
    (startsWord c = true ∨ c = '\\') ∧ (Word.ofText offset (c :: cs)).token = token

/-- A token that is neither a word nor a sign. -/
def Token.IsLiteral (token : Token) : Prop := ∀ spelling, token.spells spelling = false

theorem Token.ReadFrom.of_word?_eq_none {token : Token} (h : token.word? = none) :
    token.ReadFrom text := by
  intro word hword
  rw [h] at hword
  cases hword

theorem Token.IsLiteral.readFrom {token : Token} (h : token.IsLiteral) : token.ReadFrom text := by
  refine .of_word?_eq_none ?_
  cases token with
  | keyword word | name word =>
    -- a word spells itself
    have hself := h word
    simp [Token.spells] at hself
  | _ => rfl

/-- Where no lexeme is, none is read from elsewhere. -/
theorem none_readFrom : ∀ lexeme ∈ (none : Option Lexeme), lexeme.token.ReadFrom text := by
  intro lexeme hmem
  cases hmem

namespace Numeral

variable {offset : Nat} {cs : List Char}

theorem finish_isLiteral {length : Nat} {value : String} {faults : List Fault} :
    (finish offset cs length value faults).token.IsLiteral := by
  unfold finish
  split
  · split <;> exact fun _ => rfl
  · exact fun _ => rfl

theorem ofRadix_isLiteral {radix : Nat} : (ofRadix radix offset cs).token.IsLiteral := by
  unfold ofRadix
  dsimp only
  repeat' first | exact fun _ => rfl | exact finish_isLiteral | split

theorem ofFraction_isLiteral {whole : List Nat} {length : Nat} {faults : List Fault} :
    (ofFraction offset cs whole length faults).token.IsLiteral := by
  unfold ofFraction
  dsimp only
  repeat' first | exact fun _ => rfl | exact finish_isLiteral | split

theorem ofDecimal_isLiteral : (ofDecimal offset cs).token.IsLiteral := by
  unfold ofDecimal
  dsimp only
  repeat' first | exact fun _ => rfl | exact finish_isLiteral | exact ofFraction_isLiteral | split

/-- A numeral is no word and no sign. -/
theorem ofText_isLiteral : (ofText offset cs).token.IsLiteral := by
  unfold ofText
  repeat' first
    | exact ofRadix_isLiteral
    | exact ofFraction_isLiteral
    | exact ofDecimal_isLiteral
    | split

end Numeral

theorem Quoted.ofText_isLiteral {offset : Nat} {quote : Char} {cs : List Char} :
    (ofText offset quote cs).token.IsLiteral := by
  unfold ofText
  dsimp only
  split <;> exact fun _ => rfl

theorem regexOfText_isLiteral {offset : Nat} {cs : List Char} :
    (regexOfText offset cs).token.IsLiteral := by
  unfold regexOfText
  split <;> exact fun _ => rfl

namespace Lexer

theorem scanToken_readFrom {mode : LexMode} {operandAllowed : Bool} {offset : Nat} {c : Char}
    {cs : List Char} (h : c :: cs <:+ text) :
    (scanToken mode operandAllowed offset c cs).token.ReadFrom text := by
  unfold scanToken
  split
  · rename_i hstart
    refine fun word _ => ⟨offset, c, cs, h, ?_, rfl⟩
    simpa using hstart
  split
  · exact Quoted.ofText_isLiteral.readFrom
  split
  · exact Numeral.ofText_isLiteral.readFrom
  split
  · split
    · exact regexOfText_isLiteral.readFrom
    · split <;> exact .of_word?_eq_none rfl
  · split <;> exact .of_word?_eq_none rfl

/-! ## Steps of the lexer -/

/-- A lexer that stands somewhere in a text, as its last token began there. -/
structure ReadFrom (text : List Char) (lexer : Lexer) : Prop where
  cursor : lexer.cursor.rest <:+ text
  tokenStart : lexer.tokenStart.rest <:+ text

theorem ReadFrom.of_places {before after : Lexer} (h : before.ReadFrom text)
    (hplaces : after.places = before.places) : after.ReadFrom text := by
  obtain ⟨hcursor, hothers⟩ := Prod.mk.inj hplaces
  obtain ⟨hstart, -⟩ := Prod.mk.inj hothers
  exact ⟨hcursor ▸ h.cursor, hstart ▸ h.tokenStart⟩

theorem ReadFrom.addGap {lexer : Lexer} {gap : Gap} (h : lexer.ReadFrom text)
    (hgap : gap.stop.rest <:+ lexer.cursor.rest) : (lexer.addGap gap).ReadFrom text :=
  ⟨hgap.trans h.cursor, h.tokenStart⟩

/-- A step that gives a token of a text and ends in it. -/
structure Step.ReadFrom (text : List Char) (step : Step) : Prop where
  lexer : step.lexer.ReadFrom text
  lexeme : ∀ lexeme ∈ step.lexeme, lexeme.token.ReadFrom text

theorem emit_readFrom {lexer : Lexer} {start stop : Cursor} {token : Token} {faults : List Fault}
    (hstart : start.rest <:+ text) (hstop : stop.rest <:+ text) (htoken : token.ReadFrom text) :
    (lexer.emit start token stop faults).ReadFrom text := by
  refine ⟨ReadFrom.of_places ⟨hstop, hstart⟩ (note_places { lexer with
    cursor := stop, tokenStart := start } token start.offset), ?_⟩
  rintro _ ⟨⟩
  exact htoken

theorem readToken_readFrom {mode : LexMode} {start : Cursor} (hstart : start.rest <:+ text)
    (fuel : Nat) {lexer : Lexer} (h : lexer.ReadFrom text) :
    (readToken mode start fuel lexer).ReadFrom text := by
  induction fuel generalizing lexer with
  | zero => exact ⟨h, none_readFrom⟩
  | succ fuel ih =>
    -- an old-style comment and a mark of a conflict are gaps in front of what is read
    have hbehind (count : Nat) : Step.ReadFrom text (readToken mode start fuel (lexer.addGap
        (Gap.behindLineComment lexer.cursor.offset (lexer.cursor.skip count)))) :=
      ih (h.addGap ((Gap.scan_suffix _ _ _).trans (lexer.cursor.skip_suffix count)))
    unfold readToken
    split
    · exact ⟨h, none_readFrom⟩
    · exact ⟨⟨lexer.cursor.advance_suffix.trans h.cursor, h.tokenStart⟩, none_readFrom⟩
    · rename_i c cs _ hrest
      have hcs : c :: cs <:+ text := by
        rw [← hrest]
        exact h.cursor
      split
      · rename_i length _
        exact ⟨(hbehind length).lexer, (hbehind length).lexeme⟩
      · split
        · exact ⟨(hbehind 7).lexer, (hbehind 7).lexeme⟩
        · exact emit_readFrom hstart ((lexer.cursor.skip_suffix _).trans h.cursor)
            (scanToken_readFrom hcs)

theorem readTemplate_readFrom {lexer : Lexer} {templateStart : Nat} (h : lexer.ReadFrom text) :
    (lexer.readTemplate templateStart).ReadFrom text := by
  unfold readTemplate
  extract_lets start behindPart
  split
  · exact emit_readFrom h.cursor (lexer.cursor.advance_suffix.trans h.cursor)
      (.of_word?_eq_none rfl)
  · exact emit_readFrom h.cursor ((lexer.cursor.skip_suffix 2).trans h.cursor)
      (.of_word?_eq_none rfl)
  · refine emit_readFrom h.cursor ((lexer.cursor.skip_suffix _).trans h.cursor)
      (.of_word?_eq_none ?_)
    split <;> rfl

theorem next_readFrom {lexer : Lexer} {mode : LexMode} (h : lexer.ReadFrom text) :
    (lexer.next mode).ReadFrom text := by
  unfold next
  split
  · exact emit_readFrom h.cursor ((lexer.cursor.skip_suffix _).trans h.cursor)
      (.of_word?_eq_none rfl)
  · extract_lets begun
    have hbegun : begun.ReadFrom text := ⟨h.cursor, h.tokenStart⟩
    split
    · split
      · exact ⟨hbegun, none_readFrom⟩
      · exact readTemplate_readFrom hbegun
    · have hgap := Gap.scan_suffix .blank begun.cursor.offset begun.cursor.rest
      split
      · exact emit_readFrom h.cursor (hgap.trans h.cursor) (.of_word?_eq_none rfl)
      · exact readToken_readFrom (hgap.trans h.cursor) _ (hbegun.addGap hgap)

theorem rereadAsRegex_readFrom {lexer : Lexer} (h : lexer.ReadFrom text) :
    lexer.rereadAsRegex.ReadFrom text :=
  emit_readFrom h.tokenStart ((lexer.tokenStart.skip_suffix _).trans h.tokenStart)
    regexOfText_isLiteral.readFrom

end Lexer

/-! ## States of a reading -/

/-- The lexer stands in a text, and the lexemes at hand are read from it. -/
structure State.ReadFrom (text : List Char) (state : State) : Prop where
  lexer : state.lexer.ReadFrom text
  current : ∀ lexeme ∈ state.current, lexeme.token.ReadFrom text
  ahead : ∀ lexeme ∈ state.ahead, lexeme.token.ReadFrom text

namespace State

theorem ReadFrom.note {state : State} (h : state.ReadFrom text) (fault : Fault) :
    (state.note fault).ReadFrom text := by
  unfold State.note
  split
  · exact h
  · exact ⟨h.lexer, h.current, h.ahead⟩

/-- A sign is no word. -/
theorem ReadFrom.sign {state : State} (h : state.ReadFrom text) {sign : String} {span : Span}
    {afterBreak : Bool} :
    State.ReadFrom text { state with current := some ⟨.sign sign, span, afterBreak⟩ } := by
  refine ⟨h.lexer, ?_, h.ahead⟩
  rintro _ ⟨⟩
  exact .of_word?_eq_none rfl

theorem ReadFrom.noteAll {state : State} (h : state.ReadFrom text) (faults : List Fault) :
    (faults.foldl State.note state).ReadFrom text := by
  induction faults generalizing state with
  | nil => exact h
  | cons fault faults ih => exact ih (h.note fault)

theorem ReadFrom.read {state : State} (h : state.ReadFrom text) :
    state.read.2.ReadFrom text ∧ ∀ lexeme ∈ state.read.1, lexeme.token.ReadFrom text := by
  have hstep : (state.lexer.next state.mode).ReadFrom text := Lexer.next_readFrom h.lexer
  have hmoved : State.ReadFrom text
      { state with lexer := (state.lexer.next state.mode).lexer } :=
    ⟨hstep.lexer, h.current, h.ahead⟩
  have hnoted := hmoved.noteAll (state.lexer.next state.mode).faults
  refine ⟨?_, hstep.lexeme⟩
  unfold State.read
  dsimp only
  split
  · exact ⟨⟨hnoted.lexer.cursor, hnoted.lexer.tokenStart⟩, hnoted.current, hnoted.ahead⟩
  · exact hnoted

theorem ReadFrom.fetch {state : State} (h : state.ReadFrom text) :
    state.fetch.2.ReadFrom text := by
  unfold State.fetch
  split
  · exact h
  · rename_i lexeme _ hahead
    have hlexeme := h.ahead
    rw [hahead] at hlexeme
    exact ⟨h.lexer, hlexeme, none_readFrom⟩
  · exact ⟨h.read.1.lexer, h.read.2, h.read.1.ahead⟩

theorem ReadFrom.fetchAhead {state : State} (h : state.ReadFrom text) :
    state.fetchAhead.2.ReadFrom text := by
  have hfetch := h.fetch
  unfold State.fetchAhead
  split
  · rename_i heq
    exact heq ▸ hfetch
  · rename_i heq
    rw [heq] at hfetch
    split
    · exact hfetch
    · exact ⟨hfetch.read.1.lexer, hfetch.read.1.current, hfetch.read.2⟩

end State

instance : Invariant (State.ReadFrom text) where
  fetch h := h.fetch
  fetchAhead h := h.fetchAhead
  pass h _ := ⟨h.lexer, none_readFrom, h.ahead⟩
  cut h _ _ := h.sign
  comma h _ := h.sign
  reread {state _} h _ _ := by
    have hstep := Lexer.rereadAsRegex_readFrom h.lexer
    have hmoved : State.ReadFrom text { state with lexer := state.lexer.rereadAsRegex.lexer } :=
      ⟨hstep.lexer, h.current, h.ahead⟩
    have hnoted := hmoved.noteAll state.lexer.rereadAsRegex.faults
    exact ⟨hnoted.lexer, hstep.lexeme, none_readFrom⟩
  lexer _ _ h := ⟨⟨h.lexer.cursor, h.lexer.tokenStart⟩, h.current, h.ahead⟩
  note fault h := h.note fault
  frame _ _ _ h := ⟨h.lexer, h.current, h.ahead⟩
  restore h _ := ⟨h.lexer, h.current, h.ahead⟩

/-! ## What words begin with -/

/-- A text with a Unicode escape that stands for a point. -/
def HidesPoint (text : List Char) : Prop :=
  ∃ behind, '\\' :: 'u' :: behind <:+ text ∧
    ∃ offset length faults, Escape.ofUnicode offset behind = .chars ['.'] length faults

/-- A text that begins with a character, and with no point. -/
def BeginsWithoutPoint (text : List Char) : Prop := ∃ c cs, text = c :: cs ∧ c ≠ '.'

/-- An escape stands for one character, or for its own text. -/
theorem Escape.value_of_ofUnicode {offset length : Nat} {cs value : List Char}
    {faults : List Fault} (h : ofUnicode offset cs = .chars value length faults) :
    (∃ c, value = [c]) ∨ BeginsWithoutPoint value := by
  have hself (curly : Bool) (cs : List Char) : BeginsWithoutPoint (surrogateText curly cs) := by
    cases curly <;> exact ⟨'\\', _, rfl, by decide⟩
  unfold ofUnicode at h
  split at h
  · dsimp only at h
    split at h
    · cases h
    · split at h
      · cases h
      · split at h
        · split at h
          · cases h
            exact .inl ⟨_, rfl⟩
          · cases h
        · split at h
          · cases h
            exact .inr (hself true _)
          · cases h
  · dsimp only at h
    split at h
    · cases h
    · split at h
      · cases h
        exact .inl ⟨_, rfl⟩
      · cases h
        exact .inr (hself false _)

variable {offset : Nat} {c : Char} {cs : List Char}

/-- A token of a word is the text that has been read, if nothing stopped the reading. -/
theorem Word.scan_of_ofText {word : String} (hword : (ofText offset cs).token.word? = some word) :
    (scan 0 offset cs).bad = none ∧ (scan 0 offset cs).value = word.toList := by
  unfold ofText at hword
  dsimp only at hword
  split at hword
  · cases hword
  · rename_i hbad
    refine ⟨hbad, ?_⟩
    have hvalue : String.ofList (scan 0 offset cs).value = word := by
      split at hword
      · exact Option.some.inj hword
      · split at hword
        · cases hword
        · exact Option.some.inj hword
    rw [← hvalue, String.toList_ofList]

theorem startsWord_point : startsWord '.' = false := by decide

/-- Only an escape can make a word begin with a point. -/
theorem Word.beginsWithoutPoint_of_ofText (hstart : startsWord c = true ∨ c = '\\')
    {word : String} (hword : (ofText offset (c :: cs)).token.word? = some word)
    (hplain : ¬ HidesPoint (c :: cs)) : BeginsWithoutPoint word.toList := by
  obtain ⟨hbad, hvalue⟩ := scan_of_ofText hword
  rw [← hvalue]
  unfold scan at hbad ⊢
  by_cases hc : c = '\\'
  · subst c
    rw [if_pos rfl] at hbad ⊢
    split at hbad
    · rename_i behind
      dsimp only at hbad ⊢
      split at hbad
      · rename_i value length faults heq
        obtain ⟨d, rfl⟩ | ⟨d, ds, rfl, hd⟩ := Escape.value_of_ofUnicode heq
        · refine ⟨d, _, rfl, ?_⟩
          rintro rfl
          exact hplain ⟨behind, List.suffix_refl _, offset, length, faults, heq⟩
        · exact ⟨d, _, rfl, hd⟩
      · cases hbad
    · cases hbad
  · have hstarts : startsWord c = true := hstart.resolve_right hc
    have hcontinues : continuesWord c = true := by simp [continuesWord, hstarts]
    rw [if_neg hc, if_pos hcontinues]
    refine ⟨c, _, rfl, ?_⟩
    rintro rfl
    rw [startsWord_point] at hstarts
    cases hstarts

theorem Token.ReadFrom.beginsWithoutPoint {token : Token} (h : token.ReadFrom text)
    (hplain : ¬ HidesPoint text) {word : String} (hword : token.word? = some word) :
    BeginsWithoutPoint word.toList := by
  obtain ⟨offset, c, cs, hsuffix, hstart, rfl⟩ := h word hword
  refine Word.beginsWithoutPoint_of_ofText hstart hword ?_
  rintro ⟨behind, hescape, hpoint⟩
  exact hplain ⟨behind, hescape.trans hsuffix, hpoint⟩

end Declutter.Syntax
