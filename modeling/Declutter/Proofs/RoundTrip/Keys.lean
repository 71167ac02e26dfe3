import Declutter.Proofs.RoundTrip.Beginnings
import Declutter.Syntax.Source

/-!
# Reading what stands in front of a colon

The name of a member is read as an expression where it is a string, and the parameter of an index
signature where it could be the name of a property in a pattern. Both end at a colon, or at a
question mark with a colon behind it: nothing that an expression goes on with.
-/

namespace Declutter.Syntax

open Declutter.Syntax.Parser

/-! ## Names -/

namespace IsFreeName

variable {word : String}

theorem isKeyword_eq_false (h : IsFreeName word) : keywords.contains word = false := by
  have hbindable := h.bindable
  unfold wordToken at hbindable
  split at hbindable
  · cases hbindable
  · exact Bool.eq_false_iff.mpr ‹_›

theorem wordToken_eq (h : IsFreeName word) : wordToken word = .name word :=
  if_neg (by rw [h.isKeyword_eq_false]; simp)

/-- A name is spelled like no keyword and no sign. -/
theorem spells_eq_false (h : IsFreeName word) {text : String}
    (htext : (keywords.contains text || !isIdentifier text) = true) :
    (Token.name word).spells text = false := by
  refine decide_eq_false ?_
  rintro rfl
  rw [h.identifier, h.isKeyword_eq_false] at htext
  cases htext

theorem any_spells_eq_false (h : IsFreeName word) {texts : List String}
    (htexts : texts.all (fun text => keywords.contains text || !isIdentifier text) = true) :
    texts.any (Token.name word).spells = false :=
  List.any_eq_false.mpr fun text hmem =>
    Bool.eq_false_iff.mp (h.spells_eq_false (List.all_eq_true.mp htexts text hmem))

theorem clear (h : IsFreeName word) {span : Span} {afterBreak : Bool} {rest : List Lexeme}
    {previous : Span} {frame : Frame} :
    View.Clear ⟨⟨.name word, span, afterBreak⟩ :: rest, previous, frame⟩ :=
  .of_head (Bool.or_eq_false_iff.mpr ⟨h.spells_eq_false (by rfl), h.spells_eq_false (by rfl)⟩)

end IsFreeName

/-! ## What ends a key -/

/-- A colon is next, or a question mark with a colon behind it. -/
inductive EndsKey : List Lexeme → Prop
  | colon {span more} : EndsKey (.ofSign ":" span :: more)
  | mark {mark span more} : EndsKey (.ofSign "?" mark :: .ofSign ":" span :: more)

namespace EndsKey

variable {rest : List Lexeme} {previous : Span} {frame : Frame}

theorem follows (h : EndsKey rest) : Follows [":", "?"] rest := by
  cases h <;> exact .sign (by simp) _ _

/-- No angle is next, so it is of no account how angles are read. -/
theorem clear (h : EndsKey rest) : View.Clear ⟨rest, previous, frame⟩ := by
  cases h <;> exact .of_head rfl

theorem afterBreak_reads (h : EndsKey rest) :
    Reads afterBreak ⟨rest, previous, frame⟩ false ⟨rest, previous, frame⟩ := by
  cases h with
  | colon => exact Parser.afterBreak_reads (clear .colon)
  | mark => exact Parser.afterBreak_reads (clear .mark)

theorem notAt (h : EndsKey rest) {text : String} (htext : [":", "?"].contains text = false) :
    Reads (at? text) ⟨rest, previous, frame⟩ false ⟨rest, previous, frame⟩ :=
  Parser.notAt h.clear (h.follows.spells_eq_false htext _ _)

theorem notAtAny (h : EndsKey rest) {texts : List String}
    (htexts : texts.all (fun text => !([":", "?"].contains text)) = true) :
    Reads (atAny texts) ⟨rest, previous, frame⟩ false ⟨rest, previous, frame⟩ :=
  Parser.notAtAny h.clear (h.follows.any_spells_eq_false htexts _ _)

theorem eat_no (h : EndsKey rest) {text : String} (htext : [":", "?"].contains text = false) :
    Reads (eat text) ⟨rest, previous, frame⟩ false ⟨rest, previous, frame⟩ :=
  Parser.eat_no h.clear (h.follows.spells_eq_false htext _ _)

theorem notChained (h : EndsKey rest) :
    Reads (at? "?" <&&> ahead? ".") ⟨rest, previous, frame⟩ false ⟨rest, previous, frame⟩ := by
  cases h with
  | colon => exact (Parser.notAt (clear .colon) (by rfl)).and_no
  | mark =>
    refine (Parser.isAt (clear .mark) (by rfl)).and_yes ?_
    exact Parser.notAhead (clear .mark) (clear .colon) (by rfl)

end EndsKey

namespace Grammar

variable {g : Grammar} {rest : List Lexeme} {previous : Span} {frame : Frame}

theorem freeArguments_reads (hrest : EndsKey rest) :
    Reads g.freeArguments? ⟨rest, previous, frame⟩ none ⟨rest, previous, frame⟩ :=
  (hrest.notAt (by decide)).no .done

/-- Nothing of an operand's follows it. -/
theorem subscript_reads (hrest : EndsKey rest) (start : Nat) (expression : ExprSyntax) :
    Reads (g.subscript start (.operand expression) false true) ⟨rest, previous, frame⟩
      (expression, false) ⟨rest, previous, frame⟩ := by
  have hchained (text : String) :
      Reads ((return false) <&&> at? "." <&&> ahead? text) ⟨rest, previous, frame⟩ false
        ⟨rest, previous, frame⟩ := Reads.and_no Runs.done
  unfold subscript
  refine hrest.afterBreak_reads.step <| (hrest.notAt (by decide)).step ?_
  rw [if_neg (by decide)]
  refine (hrest.notAtAny (by decide)).no ?_
  refine (freeArguments_reads hrest).step <| hrest.notChained.step ?_
  refine (hchained "[").step <| (hrest.eat_no (by decide)).no ?_
  refine (hchained "(").step <| (hchained "<").step <| (hrest.notAt (by decide)).step ?_
  refine (hrest.notAt (by decide)).step ?_
  exact .bind <| .pure <| (hrest.notAt (by decide)).no .done

theorem subscripts_reads (hrest : EndsKey rest) (expression : ExprSyntax) :
    Reads (g.subscripts (.operand expression) false true) ⟨rest, previous, frame⟩ expression
      ⟨rest, previous, frame⟩ := by
  refine .bind <| iterate_runs fun limit hlimit => ?_
  refine iterateUpTo_next (by omega) ((subscript_reads hrest _ expression).step .done) ?_
  exact iterateUpTo_stop (by omega) Runs.done .done

theorem endsWithArrow_reads {expression : ExprSyntax} {view : View}
    (h : ∀ span, expression ≠ .arrow span) : Reads (endsWithArrow expression) view false view := by
  unfold endsWithArrow
  split
  · exact absurd rfl (h _)
  · exact Runs.done

/-! ## Strings -/

/-- A string in front of what ends a key is a whole operand. -/
theorem memberStep_string (hrest : EndsKey rest) (value raw : String) (span : Span)
    (afterBreak : Bool) :
    Reads g.memberStep ⟨⟨.string value raw, span, afterBreak⟩ :: rest, previous, frame⟩
      (.string ⟨min span.start span.stop, max span.start span.stop⟩ value raw)
      ⟨rest, span, frame⟩ := by
  let inner : Frame := { frame with context := { frame.context with inTypedOperand := true } }
  refine within_runs ?_
  show Runs _ ⟨_, previous, inner⟩ _ _
  have hclear {frame : Frame} :
      View.Clear ⟨⟨.string value raw, span, afterBreak⟩ :: rest, previous, frame⟩ :=
    .of_head rfl
  refine (position_reads hclear).step ?_
  refine (notAt hclear (by rfl)).no <| (eat_no hclear (by rfl)).no <| (notAt hclear (by rfl)).no ?_
  have hoperand {frame : Frame} : Reads g.operand
      ⟨⟨.string value raw, span, afterBreak⟩ :: rest, previous, frame⟩
      (.string ⟨min span.start span.stop, max span.start span.stop⟩ value raw)
      ⟨rest, span, frame⟩ := by
    refine (position_reads hclear).step <| get_runs fun state _ => ?_
    refine (notAtAny hclear (by rfl)).no <| (checkToken_reads hclear).step ?_
    exact (token_reads hclear).step <| (bump_reads hclear).step <| (spanFrom_reads _).step .done
  refine hoperand.step <| (endsWithArrow_reads (by rintro _ ⟨⟩)).no ?_
  exact (freeArguments_reads hrest).step <| .bind <| .pure <|
    (subscripts_reads hrest _).runs ⟨rfl, rfl⟩

/-! ## Names as expressions -/

/-- Nothing is noted down in a trial, and a word is read as a name unless it is a keyword. -/
theorem identifier_runs {lexeme : Lexeme} {text : String} (hsilent : frame.context.silent = true)
    (hclear : View.Clear ⟨lexeme :: rest, previous, frame⟩)
    (hbehind : View.Clear ⟨rest, lexeme.span, frame⟩) (hword : lexeme.token.word? = some text)
    (yieldAllowed awaitAllowed : Bool) :
    Runs (identifier yieldAllowed awaitAllowed) ⟨lexeme :: rest, previous, frame⟩
      (keywords.contains text = true) fun given after =>
        given = text ∧ after = ⟨rest, lexeme.span, frame⟩ := by
  have hfails {next : Unit → Parser String} (place : Nat) (cause : Cause)
      (h : keywords.contains text = true) : Runs (failAt place cause >>= next)
        ⟨rest, lexeme.span, frame⟩ (keywords.contains text = true) fun given after =>
          given = text ∧ after = ⟨rest, lexeme.span, frame⟩ :=
    (Runs.bind (failAt_runs hbehind _ _)).mono_fails fun _ => h
  have hawait {holds : Bool} (h : (text = "await" && holds) = true) :
      keywords.contains text = true := by
    obtain ⟨rfl, -⟩ : text = "await" ∧ holds = true := by simpa using h
    rfl
  refine (word_reads hclear hword).step <| get_runs fun state _ => get_runs fun _ _ => ?_
  refine noteIf_runs hsilent <| noteIf_runs hsilent <| noteIf_runs hsilent ?_
  refine .ite (fun _ => .done) fun _ => ?_
  refine .ite (fun h => hfails _ _ (hawait h)) fun _ => ?_
  refine .ite (fun h => hfails _ _ (by rw [h]; rfl)) fun _ => ?_
  refine .ite (fun _ => .done) fun _ => .ite (fun _ => .done) fun _ => ?_
  refine .ite (fun h => hfails _ _ ?_) fun _ => .done
  simp only [Bool.and_eq_true] at h
  exact h.1.1

/-- A word is bound, unless it is a keyword. -/
theorem bindingName_runs {lexeme : Lexeme} {text : String} (hsilent : frame.context.silent = true)
    (hclear : View.Clear ⟨lexeme :: rest, previous, frame⟩)
    (hbehind : View.Clear ⟨rest, lexeme.span, frame⟩) (hword : lexeme.token.word? = some text) :
    Runs (bindingName true) ⟨lexeme :: rest, previous, frame⟩ True fun _ after =>
      after = ⟨rest, lexeme.span, frame⟩ := by
  refine (at?_reads hclear).step ?_
  rw [Bool.not_true, Bool.false_and, if_neg (by decide)]
  refine .bind <| ((identifier_runs hsilent hclear hbehind hword _ _).mono_fails
    fun _ => trivial).mono ?_
  rintro _ _ ⟨rfl, rfl⟩
  refine .ite (fun _ => get_runs fun state _ => ?_) fun _ => .pure rfl
  exact (noteAt_reads hsilent _ _).step <| .pure rfl

/-- A parser gives a name. -/
def GivesName (parser : Parser ExprSyntax) (word : String) (view after : View) : Prop :=
  Runs parser view False fun value left => (∃ place, value = .name place word) ∧ left = after

variable {word : String} {span : Span}

theorem namedOperand_name (h : IsFreeName word) (hrest : EndsKey rest)
    (hsilent : frame.context.silent = true) (start : Nat) (canBeArrow : Bool) :
    GivesName (g.namedOperand start canBeArrow) word
      ⟨⟨.name word, span, false⟩ :: rest, previous, frame⟩ ⟨rest, span, frame⟩ := by
  have hfollows := hrest.follows
  have hunbound : Reads atName ⟨rest, span, frame⟩ false ⟨rest, span, frame⟩ := by
    obtain ⟨text, htext, span, more, rfl⟩ := hfollows
    exact atName_reads hrest.clear
  refine get_runs fun state _ => ?_
  refine .bind <| ((identifier_runs hsilent h.clear hrest.clear rfl _ _).mono_fails ?_).mono ?_
  · rw [h.isKeyword_eq_false]
    exact Bool.noConfusion
  rintro _ _ ⟨rfl, rfl⟩
  refine (spanFrom_reads _).step <| hunbound.step ?_
  rw [Bool.and_false, if_neg (by decide)]
  refine hrest.afterBreak_reads.step <| (hrest.notAt (by decide)).step ?_
  rw [Bool.and_false, if_neg (by decide)]
  exact .pure ⟨⟨_, rfl⟩, rfl⟩

/-- `async` in front of what ends a key is no more than a name. -/
theorem asyncOperand_reads (hrest : EndsKey rest) (canBeArrow : Bool) :
    Reads (g.asyncOperand canBeArrow) ⟨⟨.name "async", span, false⟩ :: rest, previous, frame⟩ none
      ⟨⟨.name "async", span, false⟩ :: rest, previous, frame⟩ := by
  have hclear : View.Clear ⟨⟨.name "async", span, false⟩ :: rest, previous, frame⟩ :=
    .of_head rfl
  have hahead {text : String} (htext : [":", "?"].contains text = false) :=
    notAhead hclear hrest.clear (hrest.follows.spells_eq_false htext previous frame)
  have hbreak : Reads breakAhead ⟨⟨.name "async", span, false⟩ :: rest, previous, frame⟩ false
      ⟨⟨.name "async", span, false⟩ :: rest, previous, frame⟩ := by
    cases hrest with
    | colon => exact breakAhead_reads hclear (EndsKey.clear .colon)
    | mark => exact breakAhead_reads hclear (EndsKey.clear .mark)
  refine (position_reads hclear).step ?_
  refine ((isAt hclear (by rfl)).and_yes (hahead (by decide)).and_no).no ?_
  refine (hahead (by decide)).step ?_
  rw [Bool.and_false, if_neg (by decide)]
  refine (hahead (by decide)).step <| hbreak.step ?_
  rw [Bool.and_false, Bool.false_and, if_neg (by decide)]
  exact .done

theorem operand_name (h : IsFreeName word) (hrest : EndsKey rest)
    (hsilent : frame.context.silent = true) :
    GivesName g.operand word ⟨⟨.name word, span, false⟩ :: rest, previous, frame⟩
      ⟨rest, span, frame⟩ := by
  refine (position_reads h.clear).step <| get_runs fun state _ => ?_
  refine (notAtAny h.clear (h.any_spells_eq_false (by rfl))).no ?_
  refine (checkToken_reads h.clear).step <| (token_reads h.clear).step ?_
  have hnamed : GivesName (do
      if ← atName then
        return ← g.namedOperand span.start (decide (state.arrowStart = some span.start))
      failHere .expectedExpression) word ⟨⟨.name word, span, false⟩ :: rest, previous, frame⟩
        ⟨rest, span, frame⟩ := by
    have hbindable := h.bindable
    rw [h.wordToken_eq] at hbindable
    refine (atName_reads h.clear).step ?_
    rw [if_pos hbindable]
    exact namedOperand_name h hrest hsilent _ _
  refine .ite (fun hasync => ?_) fun _ => hnamed
  subst hasync
  exact (asyncOperand_reads hrest _).step hnamed

/-- A name in front of what ends a key is a whole operand. -/
theorem memberStep_name (h : IsFreeName word) (hrest : EndsKey rest)
    (hsilent : frame.context.silent = true) :
    GivesName g.memberStep word ⟨⟨.name word, span, false⟩ :: rest, previous, frame⟩
      ⟨rest, span, frame⟩ := by
  let inner : Frame := { frame with context := { frame.context with inTypedOperand := true } }
  refine within_runs ?_
  show Runs _ ⟨_, previous, inner⟩ _ _
  refine (position_reads h.clear).step ?_
  refine (notAt h.clear (by exact h.spells_eq_false (by rfl))).no ?_
  refine (eat_no h.clear (by exact h.spells_eq_false (by rfl))).no ?_
  refine (notAt h.clear (by exact h.spells_eq_false (by rfl))).no ?_
  have hinner : inner.context.silent = true := hsilent
  refine .bind <| (operand_name h hrest hinner).mono ?_
  rintro _ _ ⟨⟨place, rfl⟩, rfl⟩
  refine (endsWithArrow_reads (by rintro _ ⟨⟩)).no ?_
  exact (freeArguments_reads hrest).step <| .bind <| .pure <|
    (subscripts_reads hrest _).runs ⟨⟨_, rfl⟩, rfl⟩

theorem leftHandSideStep_name (h : IsFreeName word) (hrest : EndsKey rest)
    (hsilent : frame.context.silent = true) (fuel : Nat) :
    GivesName (ofFuel (fuel + 2)).leftHandSideStep word
      ⟨⟨.name word, span, false⟩ :: rest, previous, frame⟩ ⟨rest, span, frame⟩ := by
  refine (position_reads h.clear).step ?_
  refine (eat_no h.clear (by exact h.spells_eq_false (by rfl))).no ?_
  refine (notAt h.clear (by exact h.spells_eq_false (by rfl))).no ?_
  have hmember : GivesName (ofFuel (fuel + 1)).memberStep word
      ⟨⟨.name word, span, false⟩ :: rest, previous, frame⟩ ⟨rest, span, frame⟩ :=
    memberStep_name h hrest hsilent
  refine .bind <| hmember.mono ?_
  rintro _ _ ⟨⟨place, rfl⟩, rfl⟩
  refine (endsWithArrow_reads (by rintro _ ⟨⟩)).no ?_
  refine (hrest.notAtAny (by decide)).no <| .bind <| .pure ?_
  exact (hrest.notAt (by decide)).no <| .pure ⟨⟨_, rfl⟩, rfl⟩

theorem unaryStep_name (h : IsFreeName word) (hrest : EndsKey rest)
    (hsilent : frame.context.silent = true) (fuel : Nat) :
    GivesName (ofFuel (fuel + 3)).unaryStep word
      ⟨⟨.name word, span, false⟩ :: rest, previous, frame⟩ ⟨rest, span, frame⟩ := by
  refine (position_reads h.clear).step ?_
  refine (eat_no h.clear (by exact h.spells_eq_false (by rfl))).no ?_
  refine (notAtAny h.clear (h.any_spells_eq_false (by rfl))).no ?_
  refine (notAtAny h.clear (h.any_spells_eq_false (by rfl))).no ?_
  refine (notAt h.clear (by exact h.spells_eq_false (by rfl))).no ?_
  refine .bind <| (leftHandSideStep_name h hrest hsilent fuel).mono ?_
  rintro _ _ ⟨⟨place, rfl⟩, rfl⟩
  refine (endsWithArrow_reads (by rintro _ ⟨⟩)).no ?_
  refine hrest.afterBreak_reads.no <| (hrest.notAtAny (by decide)).no ?_
  exact .pure ⟨⟨_, rfl⟩, rfl⟩

/-- No operator follows. -/
theorem operatorsStep_reads (hrest : EndsKey rest) (left : ExprSyntax) (least : Nat) :
    Reads (g.operatorsStep left least) ⟨rest, previous, frame⟩ left ⟨rest, previous, frame⟩ := by
  refine iterate_runs fun limit hlimit => iterateUpTo_stop (by omega) ?_ ⟨rfl, rfl⟩
  refine hrest.afterBreak_reads.no <| (hrest.notAt (by decide)).step <|
    (hrest.notAt (by decide)).step ?_
  rw [Bool.and_false, Bool.or_false, if_neg (by decide)]
  refine (checkToken_reads hrest.clear).step <| (token_reads hrest.clear).step ?_
  cases hrest
  all_goals
    refine get_runs fun state _ => .ite (fun h => Bool.noConfusion (show false = true from h)) ?_
    refine fun _ => .ite (fun h => Bool.noConfusion (show false = true from h)) fun _ => ?_
    exact .bind <| .pure .done

theorem binaryStep_name (h : IsFreeName word) (hrest : EndsKey rest)
    (hsilent : frame.context.silent = true) (fuel : Nat) :
    GivesName (ofFuel (fuel + 4)).binaryStep word
      ⟨⟨.name word, span, false⟩ :: rest, previous, frame⟩ ⟨rest, span, frame⟩ := by
  refine (position_reads h.clear).step ?_
  refine .bind <| (tryCatch_runs (unaryStep_name h hrest hsilent fuel)).mono ?_
  rintro _ _ ⟨⟨place, rfl⟩, rfl⟩
  refine (endsWithArrow_reads (by rintro _ ⟨⟩)).no ?_
  exact (operatorsStep_reads hrest _ _).runs ⟨⟨_, rfl⟩, rfl⟩

theorem conditional_name (h : IsFreeName word) {colon : Span}
    (hsilent : frame.context.silent = true) (fuel : Nat) :
    GivesName (ofFuel (fuel + 5)).conditional word
      ⟨⟨.name word, span, false⟩ :: .ofSign ":" colon :: rest, previous, frame⟩
      ⟨.ofSign ":" colon :: rest, span, frame⟩ := by
  refine (position_reads h.clear).step ?_
  refine .bind <| (binaryStep_name h .colon hsilent fuel).mono ?_
  rintro _ _ ⟨⟨place, rfl⟩, rfl⟩
  refine (endsWithArrow_reads (by rintro _ ⟨⟩)).no ?_
  exact (eat_no (EndsKey.clear .colon) (by rfl)).no <| .pure ⟨⟨_, rfl⟩, rfl⟩

/-- A name in front of a colon is a whole expression. -/
theorem assignmentStep_name (h : IsFreeName word) {colon : Span}
    (hsilent : frame.context.silent = true) (fuel : Nat) :
    Runs (ofFuel (fuel + 5)).assignmentStep
      ⟨⟨.name word, span, false⟩ :: .ofSign ":" colon :: rest, previous, frame⟩ False
      fun _ after => after = ⟨.ofSign ":" colon :: rest, span,
        { frame with arrowStart := some span.start }⟩ := by
  have hgeneric : Reads (ofFuel (fuel + 5)).genericArrow?
      ⟨⟨.name word, span, false⟩ :: .ofSign ":" colon :: rest, previous, frame⟩ none
      ⟨⟨.name word, span, false⟩ :: .ofSign ":" colon :: rest, previous, frame⟩ :=
    (notAt h.clear (by exact h.spells_eq_false (by rfl))).and_no.no .done
  refine hgeneric.step <| get_runs fun state _ => ?_
  refine (notAt h.clear (by exact h.spells_eq_false (by rfl))).step ?_
  rw [Bool.and_false, if_neg (by decide)]
  refine (position_reads h.clear).step <| (needToken_reads h.clear).step ?_
  refine (arrowStart_reads (some span.start)).step ?_
  let inner : Frame := { frame with arrowStart := some span.start }
  have hinner : inner.context.silent = true := hsilent
  refine .bind <| (conditional_name h hinner fuel).mono ?_
  rintro _ _ ⟨⟨place, rfl⟩, rfl⟩
  refine (endsWithArrow_reads (by rintro _ ⟨⟩)).no ?_
  refine (checkToken_reads (EndsKey.clear .colon)).step ?_
  exact (token_reads (EndsKey.clear .colon)).step <| .pure rfl

end Grammar

end Declutter.Syntax
