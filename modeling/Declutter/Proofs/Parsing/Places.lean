import Declutter.Proofs.Parsing.Words

/-!
# How far a reading has come

A reading goes forward. No token begins in front of the cursor that the lexer had, and every lexeme
at hand ends at or behind the end of the last one that was passed by; only a slash is read again,
from where it began, and a trial that is given up goes back to where it began as a whole. So there
are two places that never go back while a production reads: the end of the last lexeme passed by,
and the beginning of the current one. `State.Past` says how far they have come at least, and that
is an invariant.

Along with it goes that every comment that has been read takes up some of the text.
-/

namespace Declutter.Syntax

/-! ## Cursors and gaps -/

theorem Cursor.offset_le_advance (cursor : Cursor) : cursor.offset ≤ cursor.advance.offset := by
  unfold advance
  split
  · exact Nat.le_refl _
  · exact Nat.le_add_right _ _

theorem Cursor.offset_le_skip (cursor : Cursor) (count : Nat) :
    cursor.offset ≤ (cursor.skip count).offset := by
  induction count generalizing cursor with
  | zero => exact Nat.le_refl _
  | succ count ih => exact Nat.le_trans cursor.offset_le_advance (ih cursor.advance)

/-- Where some text is left, a cursor that goes on at all is behind where it was. -/
theorem Cursor.offset_lt_skip {cursor : Cursor} {c : Char} {cs : List Char}
    (hrest : cursor.rest = c :: cs) {count : Nat} (hcount : 0 < count) :
    cursor.offset < (cursor.skip count).offset := by
  have hadvance : cursor.offset < cursor.advance.offset := by
    unfold advance
    rw [hrest]
    exact Nat.lt_add_of_pos_right c.utf8Size_pos
  cases count with
  | zero => cases hcount
  | succ count => exact Nat.lt_of_lt_of_le hadvance (cursor.advance.offset_le_skip count)

/-- A comment that takes up some of the text. -/
def Comment.IsFilled (comment : Comment) : Prop := comment.span.start < comment.span.stop

/-- A comment that a place lies in began in front of it. -/
def GapMode.BegunBefore (offset : Nat) : GapMode → Prop
  | .blank => True
  | .lineComment start | .blockComment start _ => start < offset

/-- A gap goes forward, and its comments take up some of it. -/
theorem Gap.scan_forward (mode : GapMode) (offset : Nat) (cs : List Char)
    (hmode : mode.BegunBefore offset) :
    offset ≤ (scan mode offset cs).stop.offset ∧
      ∀ comment ∈ (scan mode offset cs).comments, comment.IsFilled := by
  fun_induction scan mode offset cs with
  | case1 | case3 | case8 => exact ⟨Nat.le_refl _, List.forall_mem_nil _⟩
  | case2 offset start => exact ⟨Nat.le_refl _, List.forall_mem_singleton.mpr hmode⟩
  | case4 offset c cs _ ih | case5 offset c cs _ _ ih =>
    obtain ⟨hstop, hfilled⟩ := ih trivial
    exact ⟨Nat.le_trans (Nat.le_add_right _ _) hstop, hfilled⟩
  | case6 offset cs _ _ ih | case7 offset cs _ _ ih =>
    -- the two signs that open a comment take up some of the text
    obtain ⟨hstop, hfilled⟩ := ih (show offset < offset + 2 by omega)
    exact ⟨Nat.le_trans (Nat.le_add_right _ _) hstop, hfilled⟩
  | case9 start offset c cs _ ih =>
    obtain ⟨hstop, hfilled⟩ := ih trivial
    exact ⟨Nat.le_trans (Nat.le_add_right _ _) hstop, List.forall_mem_cons.mpr ⟨hmode, hfilled⟩⟩
  | case11 start star offset c cs _ ih =>
    have hclosed : start < offset + 1 := Nat.lt_succ_of_lt hmode
    obtain ⟨hstop, hfilled⟩ := ih trivial
    exact ⟨Nat.le_trans (Nat.le_add_right _ _) hstop,
      List.forall_mem_cons.mpr ⟨hclosed, hfilled⟩⟩
  | case10 start offset c cs _ ih | case12 start star offset c cs _ gap _ ih
  | case13 start star offset c cs _ gap _ ih =>
    -- the comment goes on behind the character
    obtain ⟨hstop, hfilled⟩ := ih (Nat.lt_of_lt_of_le hmode (Nat.le_add_right _ _))
    exact ⟨Nat.le_trans (Nat.le_add_right _ _) hstop, hfilled⟩

/-! ## Tokens -/

/-- A word is not empty. -/
theorem Word.length_scan_pos (offset : Nat) {c : Char} (cs : List Char)
    (hstart : startsWord c = true ∨ c = '\\') : 0 < (scan 0 offset (c :: cs)).length := by
  unfold scan
  split
  · split
    · split <;> exact Nat.succ_pos _
    · exact Nat.one_pos
  · rename_i hescape
    have hcontinues : continuesWord c = true := by
      simp [continuesWord, hstart.resolve_right hescape]
    rw [if_pos hcontinues]
    exact Nat.succ_pos _

theorem Word.length_ofText (offset : Nat) (cs : List Char) :
    (ofText offset cs).length = (scan 0 offset cs).length := by
  unfold ofText
  dsimp only
  split
  · rfl
  · split
    · rfl
    · split <;> rfl

/-- A word or a sign is not empty. -/
theorem Lexer.length_scanToken_pos {mode : LexMode} {operandAllowed : Bool} {offset : Nat}
    {c : Char} {cs : List Char} {text : String} (htext : 0 < text.length)
    (hspells : (scanToken mode operandAllowed offset c cs).token.spells text = true) :
    0 < (scanToken mode operandAllowed offset c cs).length := by
  unfold scanToken at hspells ⊢
  split at hspells
  · rename_i hstart
    rw [if_pos hstart, Word.length_ofText]
    exact Word.length_scan_pos offset cs (by simpa using hstart)
  · rename_i hword
    rw [if_neg hword]
    split at hspells
    · rw [Quoted.ofText_isLiteral] at hspells
      cases hspells
    · rename_i hquoted
      rw [if_neg hquoted]
      split at hspells
      · rw [Numeral.ofText_isLiteral] at hspells
        cases hspells
      · rename_i hnumeral
        rw [if_neg hnumeral]
        split at hspells
        · rename_i hslash
          rw [if_pos hslash]
          split at hspells
          · rw [regexOfText_isLiteral] at hspells
            cases hspells
          · rename_i hoperand
            rw [if_neg hoperand]
            split <;> decide
        · rename_i hslash
          rw [if_neg hslash]
          split at hspells
          · rename_i sign _
            -- the token is the sign that it spells
            have heq : sign = text := by simpa [Token.spells] using hspells
            exact heq ▸ htext
          · exact Nat.one_pos

/-! ## Steps of the lexer -/

namespace Lexer

/-- A lexer behind its last token, all of whose comments take up some of the text. -/
structure InOrder (lexer : Lexer) : Prop where
  tokenStart : lexer.tokenStart.offset ≤ lexer.cursor.offset
  comments : ∀ comment ∈ lexer.comments, comment.IsFilled

theorem InOrder.addGap {lexer : Lexer} {gap : Gap} (h : lexer.InOrder)
    (hgap : lexer.cursor.offset ≤ gap.stop.offset ∧
      ∀ comment ∈ gap.comments, comment.IsFilled) : (lexer.addGap gap).InOrder := by
  refine ⟨Nat.le_trans h.tokenStart hgap.1, fun comment hmem => ?_⟩
  obtain hnew | hold := List.mem_append.mp hmem
  · exact hgap.2 comment (List.mem_reverse.mp hnew)
  · exact h.comments comment hold

/-- A lexeme that is the last one that a lexer has read. -/
structure HasRead (lexer : Lexer) (lexeme : Lexeme) : Prop where
  start : lexeme.span.start = lexer.tokenStart.offset
  stop : lexeme.span.stop = lexer.cursor.offset
  shift : lexeme.token.spells "<<" = true → lexeme.span.start < lexeme.span.stop

/-- A step that goes forward from where a lexer stood. -/
structure Step.Forward (step : Step) (before : Lexer) : Prop where
  inOrder : step.lexer.InOrder
  cursor : before.cursor.offset ≤ step.lexer.cursor.offset
  tokenStart : before.tokenStart.offset ≤ step.lexer.tokenStart.offset
  behind : ∀ lexeme ∈ step.lexeme, before.cursor.offset ≤ lexeme.span.start
  hasRead : ∀ lexeme ∈ step.lexeme, step.lexer.HasRead lexeme

theorem Step.Forward.withFaults {before : Lexer} {step : Step} (h : step.Forward before)
    (faults : List Fault) : Step.Forward { step with faults } before :=
  ⟨h.inOrder, h.cursor, h.tokenStart, h.behind, h.hasRead⟩

/-- A step that finds no token. -/
theorem Step.Forward.of_lexer {before lexer : Lexer} {faults : List Fault} {isEnd : Bool}
    (h : lexer.InOrder) (hcursor : before.cursor.offset ≤ lexer.cursor.offset)
    (hstart : before.tokenStart.offset ≤ lexer.tokenStart.offset) :
    Step.Forward ⟨none, lexer, faults, isEnd⟩ before :=
  ⟨h, hcursor, hstart, by simp, by simp⟩

theorem emit_forward {before lexer : Lexer} {start stop : Cursor} {token : Token}
    {faults : List Fault} (hbefore : before.InOrder)
    (hcomments : ∀ comment ∈ lexer.comments, comment.IsFilled)
    (hstart : before.cursor.offset ≤ start.offset) (hstop : start.offset ≤ stop.offset)
    (hshift : token.spells "<<" = true → start.offset < stop.offset) :
    (lexer.emit start token stop faults).Forward before := by
  -- What is taken note of leaves the lexer at its places.
  have hplaces :
      (lexer.emit start token stop faults).lexer.places = (stop, start, lexer.comments) :=
    note_places { lexer with cursor := stop, tokenStart := start } token start.offset
  obtain ⟨hcursor, hothers⟩ := Prod.mk.inj hplaces
  obtain ⟨htokenStart, hkept⟩ := Prod.mk.inj hothers
  refine ⟨⟨?_, ?_⟩, ?_, ?_, ?_, ?_⟩
  · rw [htokenStart, hcursor]
    exact hstop
  · rw [hkept]
    exact hcomments
  · rw [hcursor]
    exact Nat.le_trans hstart hstop
  · rw [htokenStart]
    exact Nat.le_trans hbefore.tokenStart hstart
  · rintro _ ⟨⟩
    exact hstart
  · rintro _ ⟨⟩
    exact ⟨congrArg Cursor.offset htokenStart.symm, congrArg Cursor.offset hcursor.symm, hshift⟩

/-- Old-style comments and marks of a conflict are gaps in front of the token that is read. -/
theorem readToken_forward {before : Lexer} {mode : LexMode} {start : Cursor}
    (hbefore : before.InOrder) (hstart : before.cursor.offset ≤ start.offset) (fuel : Nat)
    {lexer : Lexer} (h : lexer.InOrder) (hlexer : start.offset ≤ lexer.cursor.offset)
    (hplace : lexer.tokenStart = before.tokenStart) :
    (readToken mode start fuel lexer).Forward before := by
  have hnone (moved : Lexer) (hmoved : moved.InOrder) (hcursor : lexer.cursor.offset ≤
      moved.cursor.offset) (hmovedPlace : moved.tokenStart = before.tokenStart)
      (faults : List Fault) (isEnd : Bool) :
      Step.Forward ⟨none, moved, faults, isEnd⟩ before :=
    .of_lexer hmoved (by omega) (Nat.le_of_eq (congrArg Cursor.offset hmovedPlace.symm))
  induction fuel generalizing lexer with
  | zero => exact hnone lexer h (Nat.le_refl _) hplace _ _
  | succ fuel ih =>
    unfold readToken
    split
    · exact hnone lexer h (Nat.le_refl _) hplace _ _
    · exact hnone { lexer with cursor := lexer.cursor.advance }
        ⟨Nat.le_trans h.tokenStart lexer.cursor.offset_le_advance, h.comments⟩
        lexer.cursor.offset_le_advance hplace _ _
    · rename_i c cs _ hrest
      have hbehind (count : Nat) (hcount : 0 < count) : Step.Forward
          (readToken mode start fuel (lexer.addGap
            (Gap.behindLineComment lexer.cursor.offset (lexer.cursor.skip count)))) before := by
        have hskip := Cursor.offset_lt_skip hrest hcount
        have hgap := Gap.scan_forward (.lineComment lexer.cursor.offset)
          (lexer.cursor.skip count).offset (lexer.cursor.skip count).rest hskip
        have hforward : lexer.cursor.offset ≤
            (Gap.behindLineComment lexer.cursor.offset (lexer.cursor.skip count)).stop.offset :=
          Nat.le_trans (Nat.le_of_lt hskip) hgap.1
        refine ih (h.addGap ⟨hforward, hgap.2⟩) (Nat.le_trans hlexer hforward) hplace ?_
        intro moved hmoved hcursor
        exact hnone moved hmoved (Nat.le_trans hforward hcursor)
      split
      · rename_i length hlength
        have hpos : 0 < length := by
          unfold legacyComment? at hlength
          split at hlength
          · split at hlength
            · cases hlength
            · cases hlength
              decide
          · split at hlength
            · cases hlength
              decide
            · cases hlength
          · cases hlength
        exact (hbehind length hpos).withFaults _
      · split
        · exact (hbehind 7 (by decide)).withFaults _
        · refine emit_forward hbefore h.comments hstart
            (Nat.le_trans hlexer (lexer.cursor.offset_le_skip _)) fun hspells => ?_
          have hpos := length_scanToken_pos (by decide) hspells
          exact Nat.lt_of_le_of_lt hlexer (Cursor.offset_lt_skip hrest hpos)

theorem readTemplate_forward {before lexer : Lexer} (hbefore : before.InOrder)
    (h : lexer.InOrder) (hcursor : lexer.cursor = before.cursor) (templateStart : Nat) :
    (lexer.readTemplate templateStart).Forward before := by
  have hstart : before.cursor.offset ≤ lexer.cursor.offset :=
    Nat.le_of_eq (congrArg Cursor.offset hcursor.symm)
  have hliteral (token : Token) (htoken : token.spells "<<" = false) (stop : Cursor) :
      token.spells "<<" = true → lexer.cursor.offset < stop.offset := by
    rw [htoken]
    exact fun h => absurd h Bool.false_ne_true
  unfold readTemplate
  extract_lets start behindPart
  split
  · exact emit_forward hbefore h.comments hstart lexer.cursor.offset_le_advance
      (hliteral _ (by decide) _)
  · exact emit_forward hbefore h.comments hstart (lexer.cursor.offset_le_skip 2)
      (hliteral _ (by decide) _)
  · refine emit_forward hbefore h.comments hstart (lexer.cursor.offset_le_skip _)
      (hliteral _ ?_ _)
    split <;> rfl

theorem next_forward {lexer : Lexer} {mode : LexMode} (h : lexer.InOrder) :
    (lexer.next mode).Forward lexer := by
  unfold next
  split
  · exact emit_forward h h.comments (Nat.le_refl _) (lexer.cursor.offset_le_skip _)
      (by simp [Token.spells])
  · extract_lets begun
    have hbegun : begun.InOrder := ⟨h.tokenStart, h.comments⟩
    split
    · split
      · exact .of_lexer hbegun (Nat.le_refl _) (Nat.le_refl _)
      · exact readTemplate_forward h hbegun rfl _
    · have hgap := Gap.scan_forward .blank begun.cursor.offset begun.cursor.rest trivial
      split
      · exact emit_forward h (hbegun.addGap hgap).comments (Nat.le_refl _) hgap.1
          (by simp [Token.spells])
      · exact readToken_forward h hgap.1 _ (hbegun.addGap hgap) (Nat.le_refl _) rfl

/-- A slash is read again from where the last token begins. -/
theorem rereadAsRegex_forward {lexer : Lexer} (h : lexer.InOrder) :
    lexer.rereadAsRegex.Forward { lexer with cursor := lexer.tokenStart } :=
  emit_forward ⟨Nat.le_refl _, h.comments⟩ h.comments (Nat.le_refl _)
    (lexer.tokenStart.offset_le_skip _) (by rw [regexOfText_isLiteral]; simp)

end Lexer

/-! ## Lexemes at hand -/

/-- A lexeme that has been read and ends at or behind a place. -/
structure Lexeme.Follows (lexeme : Lexeme) (place : Nat) (lexer : Lexer) : Prop where
  order : lexeme.span.start ≤ lexeme.span.stop
  behind : place ≤ lexeme.span.stop
  read : lexeme.span.stop ≤ lexer.cursor.offset
  /-- A shift operator has a sign that can be taken away. -/
  shift : lexeme.token.spells "<<" = true → lexeme.span.start < lexeme.span.stop
  /-- A slash can be read again without going back. -/
  slash : ["/", "/="].any lexeme.token.spells = true →
    lexeme.span.start ≤ lexer.tokenStart.offset ∧ place ≤ lexer.tokenStart.offset

namespace Lexeme.Follows

variable {lexeme : Lexeme} {place : Nat} {lexer : Lexer}

theorem of_forward {step : Lexer.Step} (hstep : step.Forward lexer)
    (hplace : place ≤ lexer.cursor.offset) (hmem : lexeme ∈ step.lexeme) :
    lexeme.Follows place step.lexer := by
  obtain ⟨hstart, hstop, hshift⟩ := hstep.hasRead lexeme hmem
  have hbehind := hstep.behind lexeme hmem
  have htokenStart := hstep.inOrder.tokenStart
  exact ⟨by omega, by omega, by omega, hshift, fun _ => ⟨by omega, by omega⟩⟩

/-- What has been read stays so while the lexer goes on. -/
theorem forward {step : Lexer.Step} (h : lexeme.Follows place lexer)
    (hstep : step.Forward lexer) : lexeme.Follows place step.lexer :=
  ⟨h.order, h.behind, Nat.le_trans h.read hstep.cursor, h.shift, fun hslash =>
    ⟨Nat.le_trans (h.slash hslash).1 hstep.tokenStart,
      Nat.le_trans (h.slash hslash).2 hstep.tokenStart⟩⟩

theorem of_places {after : Lexer} (h : lexeme.Follows place lexer)
    (hplaces : after.places = lexer.places) : lexeme.Follows place after := by
  obtain ⟨hcursor, hothers⟩ := Prod.mk.inj hplaces
  obtain ⟨hstart, -⟩ := Prod.mk.inj hothers
  exact ⟨h.order, h.behind, hcursor ▸ h.read, h.shift, hstart ▸ h.slash⟩

/-- A sign in the place of a lexeme that is no shift operator and no slash. -/
theorem sign {start : Nat} {text : String} {afterBreak : Bool} {stop : Nat} (horder : start ≤ stop)
    (hbehind : place ≤ stop) (hread : stop ≤ lexer.cursor.offset)
    (htext : ["<<", "/", "/="].any (text = ·) = false) :
    Follows ⟨.sign text, ⟨start, stop⟩, afterBreak⟩ place lexer := by
  refine ⟨horder, hbehind, hread, ?_, ?_⟩
  · intro hshift
    simp_all [Token.spells]
  · intro hslash
    simp_all [Token.spells]

end Lexeme.Follows

/-! ## States of a reading -/

namespace State

/-- Where the current lexeme ends, or the last one if the current one has not been read. -/
def front (state : State) : Nat := (state.current.map (·.span.stop)).getD state.previous.stop

/-- How far the reading has seen: the beginning of the current lexeme, unless it was put where the
last one lies, and the end of the last one. -/
def seen (state : State) : Nat :=
  max state.previous.stop ((state.current.map (·.span.start)).getD 0)

/-- The lexemes of a state follow each other, and its comments take up some of the text. -/
structure InOrder (state : State) : Prop where
  lexer : state.lexer.InOrder
  comments : ∀ comment ∈ state.journal.comments, comment.IsFilled
  previous : state.previous.start ≤ state.previous.stop
  passed : state.previous.stop ≤ state.lexer.cursor.offset
  current : ∀ lexeme ∈ state.current, lexeme.Follows state.previous.stop state.lexer
  ahead : ∀ lexeme ∈ state.ahead, lexeme.Follows state.front state.lexer

theorem front_le_cursor {state : State} (h : state.InOrder) :
    state.front ≤ state.lexer.cursor.offset := by
  unfold front
  cases hcurrent : state.current with
  | none => exact h.passed
  | some lexeme => exact (h.current lexeme hcurrent).read

theorem exists_noteAll (faults : List Fault) (state : State) :
    ∃ noted, faults.foldl State.note state =
      { state with journal := { state.journal with faults := noted } } := by
  induction faults generalizing state with
  | nil => exact ⟨state.journal.faults, rfl⟩
  | cons fault faults ih =>
    obtain ⟨noted, hnoted⟩ := ih (state.note fault)
    refine ⟨noted, ?_⟩
    rw [List.foldl_cons, hnoted]
    unfold State.note
    split <;> rfl

/-- To read is to take a step forward and perhaps to put down comments. -/
theorem InOrder.read {state : State} (h : state.InOrder) :
    ∃ (step : Lexer.Step) (journal : Journal),
      state.read = (step.lexeme, { state with lexer := step.lexer, journal }) ∧
        step.Forward state.lexer ∧ ∀ comment ∈ journal.comments, comment.IsFilled := by
  have hstep : (state.lexer.next state.mode).Forward state.lexer := Lexer.next_forward h.lexer
  unfold State.read
  generalize state.lexer.next state.mode = step at hstep ⊢
  obtain ⟨noted, hnoted⟩ := exists_noteAll step.faults { state with lexer := step.lexer }
  dsimp only at hnoted ⊢
  rw [hnoted]
  by_cases hend : step.isEnd = true
  · rw [if_pos hend]
    -- the comments that the lexer held are put down
    have hinOrder : Lexer.InOrder { step.lexer with comments := [] } :=
      ⟨hstep.inOrder.tokenStart, List.forall_mem_nil _⟩
    refine ⟨{ step with lexer := { step.lexer with comments := [] } },
      ⟨noted, state.journal.comments ++ step.lexer.comments.reverse⟩, rfl, ?_, ?_⟩
    · exact ⟨hinOrder, hstep.cursor, hstep.tokenStart, hstep.behind, fun lexeme hmem =>
        ⟨(hstep.hasRead lexeme hmem).start, (hstep.hasRead lexeme hmem).stop,
          (hstep.hasRead lexeme hmem).shift⟩⟩
    · intro comment hmem
      obtain hold | hnew := List.mem_append.mp hmem
      · exact h.comments comment hold
      · exact hstep.inOrder.comments comment (List.mem_reverse.mp hnew)
  · rw [if_neg hend]
    exact ⟨step, ⟨noted, state.journal.comments⟩, rfl, hstep, h.comments⟩

/-- A state from which a reading goes on without going back. -/
structure Leads (state after : State) : Prop where
  inOrder : after.InOrder
  passed : state.previous.stop ≤ after.previous.stop
  seen : state.seen ≤ after.seen

theorem leads_fetch {state : State} (h : state.InOrder) : state.Leads state.fetch.2 := by
  have hnone : state.current = none → state.front = state.previous.stop ∧
      state.seen = state.previous.stop := by
    intro hcurrent
    simp [front, seen, hcurrent]
  unfold State.fetch
  split
  · exact ⟨h, Nat.le_refl _, Nat.le_refl _⟩
  · -- the lexeme ahead becomes the current one
    rename_i lexeme hcurrent hahead
    have hfollows := h.ahead lexeme hahead
    rw [(hnone hcurrent).1] at hfollows
    refine ⟨⟨h.lexer, h.comments, h.previous, h.passed, ?_, by simp⟩, Nat.le_refl _, ?_⟩
    · rintro _ ⟨⟩
      exact hfollows
    · rw [(hnone hcurrent).2]
      exact Nat.le_max_left _ _
  · rename_i hcurrent hahead
    obtain ⟨step, journal, hread, hstep, hjournal⟩ := h.read
    rw [hread]
    refine ⟨⟨hstep.inOrder, hjournal, h.previous, Nat.le_trans h.passed hstep.cursor, ?_, ?_⟩,
      Nat.le_refl _, ?_⟩
    · exact fun lexeme hmem => .of_forward hstep h.passed hmem
    · simp [hahead]
    · rw [(hnone hcurrent).2]
      exact Nat.le_max_left _ _

theorem Leads.trans {state middle after : State} (h : state.Leads middle)
    (hafter : middle.Leads after) : state.Leads after :=
  ⟨hafter.inOrder, Nat.le_trans h.passed hafter.passed, Nat.le_trans h.seen hafter.seen⟩

theorem leads_fetchAhead {state : State} (h : state.InOrder) :
    state.Leads state.fetchAhead.2 := by
  have hfetch := leads_fetch h
  have hcurrent := Parser.current_fetch state
  unfold State.fetchAhead
  split
  · rename_i heq
    rwa [heq] at hfetch
  · rename_i lexeme fetched heq
    rw [heq] at hfetch hcurrent
    split
    · exact hfetch
    · rename_i hahead
      obtain ⟨step, journal, hread, hstep, hjournal⟩ := hfetch.inOrder.read
      rw [hread]
      refine hfetch.trans ⟨⟨hstep.inOrder, hjournal, hfetch.inOrder.previous,
        Nat.le_trans hfetch.inOrder.passed hstep.cursor, ?_, ?_⟩, Nat.le_refl _, Nat.le_refl _⟩
      · exact fun lexeme hmem => (hfetch.inOrder.current lexeme hmem).forward hstep
      · exact fun lexeme hmem => .of_forward hstep (front_le_cursor hfetch.inOrder) hmem

/-- Where a lexeme is passed by, all that has been seen is passed by. -/
theorem leads_pass {state : State} {lexeme : Lexeme} (h : state.InOrder)
    (hcurrent : state.current = some lexeme) :
    state.Leads { state with current := none, previous := lexeme.span } ∧
      state.seen ≤ lexeme.span.stop := by
  have hfollows := h.current lexeme hcurrent
  have hseen : state.seen ≤ lexeme.span.stop := by
    simp only [seen, hcurrent, Option.map_some, Option.getD_some]
    exact Nat.max_le.mpr ⟨hfollows.behind, hfollows.order⟩
  have hfront : state.front = lexeme.span.stop := by simp [front, hcurrent]
  refine ⟨⟨⟨h.lexer, h.comments, hfollows.order, hfollows.read, by simp, ?_⟩, hfollows.behind, ?_⟩,
    hseen⟩
  · intro ahead hmem
    have hahead := h.ahead ahead hmem
    rwa [hfront] at hahead
  · exact Nat.le_trans hseen (Nat.le_max_left _ _)

/-- What is known of the current lexeme is all that a state in which it is replaced needs. -/
theorem leads_replace {state : State} {lexeme : Lexeme} (h : state.InOrder)
    (hfollows : lexeme.Follows state.previous.stop state.lexer)
    (hfront : lexeme.span.stop = state.front)
    (hseen : (state.current.map (·.span.start)).getD 0 ≤ lexeme.span.start) :
    state.Leads { state with current := some lexeme } := by
  refine ⟨⟨h.lexer, h.comments, h.previous, h.passed, ?_, ?_⟩, Nat.le_refl _, ?_⟩
  · rintro _ ⟨⟩
    exact hfollows
  · intro ahead hmem
    have hahead := h.ahead ahead hmem
    rwa [← hfront] at hahead
  · exact Nat.max_le.mpr ⟨Nat.le_max_left _ _, Nat.le_trans hseen (Nat.le_max_right _ _)⟩

theorem leads_reread {state : State} {lexeme : Lexeme} (h : state.InOrder)
    (hcurrent : state.current = some lexeme)
    (hslash : ["/", "/="].any lexeme.token.spells = true) : state.Leads
      { state.lexer.rereadAsRegex.faults.foldl State.note
          { state with lexer := state.lexer.rereadAsRegex.lexer } with
        current := state.lexer.rereadAsRegex.lexeme
        ahead := none } := by
  have hstep := Lexer.rereadAsRegex_forward h.lexer
  obtain ⟨hstart, hplace⟩ := (h.current lexeme hcurrent).slash hslash
  obtain ⟨noted, hnoted⟩ := exists_noteAll state.lexer.rereadAsRegex.faults
    { state with lexer := state.lexer.rereadAsRegex.lexer }
  rw [hnoted]
  refine ⟨⟨hstep.inOrder, h.comments, h.previous, Nat.le_trans hplace hstep.cursor, ?_, by simp⟩,
    Nat.le_refl _, ?_⟩
  · exact fun read hmem => .of_forward hstep hplace hmem
  · -- the new lexeme begins where the last token began, at or behind the slash
    have hseen : state.seen ≤ max state.previous.stop state.lexer.tokenStart.offset := by
      simp only [seen, hcurrent, Option.map_some, Option.getD_some]
      omega
    exact hseen

end State

/-! ## How far a reading has come -/

/-- Two places that a reading has come to at least: what it has passed by, and what it has seen. -/
structure Extent where
  passed : Nat
  seen : Nat

namespace Extent

/-- Whatever has come as far as the one has come as far as the other. -/
structure Le (v w : Extent) : Prop where
  passed : v.passed ≤ w.passed
  seen : v.seen ≤ w.seen

theorem Le.refl (w : Extent) : w.Le w := ⟨Nat.le_refl _, Nat.le_refl _⟩

theorem Le.trans {u v w : Extent} (h : u.Le v) (h' : v.Le w) : u.Le w :=
  ⟨Nat.le_trans h.passed h'.passed, Nat.le_trans h.seen h'.seen⟩

end Extent

namespace State

/-- How far a state has come. -/
def extent (state : State) : Extent := ⟨state.previous.stop, state.seen⟩

/-- A state in order that has come as far as two places. -/
structure Past (w : Extent) (state : State) : Prop where
  inOrder : state.InOrder
  extent : w.Le state.extent

theorem Past.leads {w : Extent} {state after : State} (h : state.Past w)
    (hafter : state.Leads after) : after.Past w :=
  ⟨hafter.inOrder, h.extent.trans ⟨hafter.passed, hafter.seen⟩⟩

theorem Past.mono {v w : Extent} {state : State} (h : state.Past w) (hle : v.Le w) :
    state.Past v := ⟨h.inOrder, hle.trans h.extent⟩

/-- What remains of a reading concerns none of its places. -/
theorem Past.journal {w : Extent} {state : State} (h : state.Past w) {journal : Journal}
    (hcomments : ∀ comment ∈ journal.comments, comment.IsFilled) :
    Past w { state with journal } :=
  ⟨⟨h.inOrder.lexer, hcomments, h.inOrder.previous, h.inOrder.passed, h.inOrder.current,
    h.inOrder.ahead⟩, h.extent⟩

end State

instance {w : Extent} : Invariant (State.Past w) where
  fetch h := h.leads (State.leads_fetch h.inOrder)
  fetchAhead h := h.leads (State.leads_fetchAhead h.inOrder)
  pass h hcurrent := h.leads (State.leads_pass h.inOrder hcurrent).1
  cut {state lexeme} h hcurrent hshift := by
    have hfollows := h.inOrder.current lexeme hcurrent
    apply h.leads
    apply State.leads_replace h.inOrder
    · exact .sign (hfollows.shift hshift) hfollows.behind hfollows.read (by decide)
    · simp [State.front, hcurrent]
    · simp [hcurrent]
  comma {state} h hcurrent := by
    apply h.leads
    apply State.leads_replace h.inOrder
    · exact .sign h.inOrder.previous (Nat.le_refl _) h.inOrder.passed (by decide)
    · simp [State.front, hcurrent]
    · simp [hcurrent]
  reread h hcurrent hslash := h.leads (State.leads_reread h.inOrder hcurrent hslash)
  lexer {state} operandAllowed brackets h :=
    ⟨⟨⟨h.inOrder.lexer.tokenStart, h.inOrder.lexer.comments⟩, h.inOrder.comments,
      h.inOrder.previous, h.inOrder.passed,
      fun lexeme hmem => (h.inOrder.current lexeme hmem).of_places rfl,
      fun lexeme hmem => (h.inOrder.ahead lexeme hmem).of_places rfl⟩, h.extent⟩
  note {state} fault h := by
    unfold State.note
    split
    · exact h
    · exact h.journal h.inOrder.comments
  frame _ _ _ h :=
    ⟨⟨h.inOrder.lexer, h.inOrder.comments, h.inOrder.previous, h.inOrder.passed,
      h.inOrder.current, h.inOrder.ahead⟩, h.extent⟩
  restore h hafter := h.journal hafter.inOrder.comments

end Declutter.Syntax
