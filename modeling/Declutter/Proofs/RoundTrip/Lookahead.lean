import Declutter.Proofs.RoundTrip.Keys

/-!
# What a parenthesis holds

Behind an opening parenthesis the parser looks for the parameters of a function, and so it tries a
tuple or a shape as a pattern. Such a trial fails, or it ends right behind the first word or bracket;
there nothing follows that follows a parameter.
-/

namespace Declutter.Syntax

open Declutter.Syntax.Parser

/-- The signs that can follow a type. -/
def typeEnds : List String := [";", ",", ")", "]", ">", "?"]

/-- The signs that can follow an intersection. -/
def intersectionEnds : List String := "|" :: typeEnds

/-- The signs that can follow an operand. -/
def operandEnds : List String := "&" :: intersectionEnds

/-- The signs that can follow what stands in front of brackets. -/
def primaryEnds : List String := "[" :: operandEnds

variable {source : List Char} {front behind : List Comment} {lexemes : List Lexeme}

/-! ## Patterns -/

/-- Tried as a pattern, something fails or is passed by as a whole, unless the trial ends inside of it
in front of one of these signs. -/
def PatternStops (source : List Char) (signs : List String) (lexemes : List Lexeme) : Prop :=
  ∀ bound rest previous (frame : Frame), frame.Typed source → frame.context.silent = true →
    rest ≠ [] → (lexemes ++ rest).length ≤ bound →
      Runs (Grammar.ofFuel (bound + 8)).pattern ⟨lexemes ++ rest, previous, frame⟩ True
        fun _ after => ∃ left last, after = ⟨left, last, frame⟩ ∧
          (left = rest ∨ Follows signs left)

namespace PatternStops

variable {signs : List String}

theorem mono {more : List String} (h : PatternStops source signs lexemes)
    (hsigns : ∀ text ∈ signs, text ∈ more) : PatternStops source more lexemes := by
  intro bound rest previous frame hframe hsilent hne hbound
  refine (h bound rest previous frame hframe hsilent hne hbound).mono ?_
  rintro _ _ ⟨left, last, rfl, hleft⟩
  exact ⟨left, last, rfl, hleft.imp_right (·.mono hsigns)⟩

theorem append {sign : String} {span : Span} {more : List Lexeme}
    (h : PatternStops source signs lexemes) (hsign : sign ∈ signs) :
    PatternStops source signs (lexemes ++ .ofSign sign span :: more) := by
  intro bound rest previous frame hframe hsilent _ hbound
  rw [List.append_assoc, List.cons_append] at hbound ⊢
  refine (h bound _ previous frame hframe hsilent (by simp) hbound).mono ?_
  rintro _ _ ⟨left, last, rfl, hleft⟩
  refine ⟨left, last, rfl, .inr ?_⟩
  rcases hleft with rfl | hleft
  · exact .sign hsign _ _
  · exact hleft

/-- A word is passed by, unless it is a keyword. -/
theorem of_word (h : ∀ rest, ∃ first more text, lexemes ++ rest = first :: more ∧
    first.token.word? = some text ∧ (more = rest ∨ Follows signs more)) :
    PatternStops source signs lexemes := by
  intro bound rest previous frame hframe hsilent hne hbound
  obtain ⟨first, more, text, heq, hword, hmore⟩ := h rest
  have hbehind : more ≠ [] := hmore.elim (fun hrest => hrest ▸ hne) (·.ne_nil)
  rw [heq]
  show Runs ((Grammar.ofFuel (bound + 7)).patternStep true) _ _ _
  refine (needToken_reads hframe.clear).step <| (position_reads hframe.clear).step ?_
  rw [if_pos (by rw [hword]; rfl)]
  refine .bind <| (Grammar.bindingName_runs hsilent hframe.clear (hframe.clear hbehind) hword).mono ?_
  rintro _ _ rfl
  exact (spanFrom_reads _).step <| .pure ⟨more, first.span, rfl, hmore⟩

/-- No default value follows what ends or stops like this. -/
theorem patternElement_runs {bound : Nat} {rest : List Lexeme} {previous : Span} {frame : Frame}
    {texts ends : List String} (h : PatternStops source signs lexemes)
    (hbegins : BeginsOutside texts lexemes) (hsigns : signs.contains "=" = false)
    (hframe : frame.Typed source) (hsilent : frame.context.silent = true)
    (hrest : Follows ends rest) (hends : ends.contains "=" = false)
    (hbound : (lexemes ++ rest).length ≤ bound) :
    Runs (Grammar.ofFuel (bound + 8)).patternElement ⟨lexemes ++ rest, previous, frame⟩ True
      fun _ after => ∃ left last, after = ⟨left, last, frame⟩ ∧
        (left = rest ∨ Follows signs left) := by
  obtain ⟨start, hstart⟩ := hbegins.position_reads _ previous hframe
  refine hstart.step <| .bind <|
    (h bound rest previous frame hframe hsilent hrest.ne_nil hbound).mono ?_
  rintro _ _ ⟨left, last, rfl, hleft⟩
  have hequals : View.spells ⟨left, last, frame⟩ "=" = false := by
    rcases hleft with rfl | hleft
    · exact hrest.spells_eq_false hends _ _
    · exact hleft.spells_eq_false hsigns _ _
  have hne : left ≠ [] := hleft.elim (fun heq => heq ▸ hrest.ne_nil) (·.ne_nil)
  exact (eat_no (hframe.clear hne) hequals).no <| .pure ⟨left, last, rfl, hleft⟩

/-- What begins with neither a word nor a bracket is no pattern. -/
theorem of_other (h : ∀ rest, ∃ first more, lexemes ++ rest = first :: more ∧
    first.token.word? = none ∧ ["[", leftBrace].any first.token.spells = false) :
    PatternStops source signs lexemes := by
  intro bound rest previous frame hframe hsilent _ hbound
  obtain ⟨first, more, heq, hword, hsigns⟩ := h rest
  rw [heq]
  simp only [List.any_cons, List.any_nil, Bool.or_false, Bool.or_eq_false_iff] at hsigns
  show Runs ((Grammar.ofFuel (bound + 7)).patternStep true) _ _ _
  refine (needToken_reads hframe.clear).step <| (position_reads hframe.clear).step ?_
  rw [if_neg (by rw [hword]; simp), if_neg (by rw [hsigns.1]; simp),
    if_neg (by rw [hsigns.2]; simp)]
  exact unexpected_runs hframe.clear _

end PatternStops

/-! ## Arrays of patterns -/

namespace Grammar

/-- What `arrayPattern` repeats. -/
def arrayStep (g : Grammar) (rest : Option Nat) : Parser (Option (Option Nat)) := do
  if (← atEnd) || (← at? "]") then return none
  if ← eat "," then return some rest
  if let some place := rest then noteAt place .restNotLast
  let place ← position
  let isRest ← eat "..."
  let _ ← if isRest then g.pattern else g.patternElement
  unless ← at? "]" do
    expect ","
    if isRest && (← at? "]") then noteAt (← get).previous.start .commaAfterRest
  return some (if isRest then some place else rest)

theorem arrayPattern_eq (g : Grammar) :
    g.arrayPattern = (do
      let start ← position
      bump
      let _ ← iterate g.arrayStep none
      expect "]"
      eatPatternOption
      return ⟨← spanFrom start, .array⟩) := rfl

end Grammar

/-- An element of a tuple, as far as a pattern goes. -/
inductive ElementStops (source : List Char) : List Lexeme → Prop
  | plain {type} : BeginsOutside typeRefused type → PatternStops source wordEnds type →
      ElementStops source type
  | optional {type mark} : BeginsOutside typeRefused type → PatternStops source wordEnds type →
      ElementStops source (type ++ [.ofSign "?" mark])
  | rest {type dots} : PatternStops source wordEnds type →
      ElementStops source (.ofSign "..." dots :: type)

/-- Behind an element and its comma, or in front of the closing bracket. -/
def BehindElement (rest : List Lexeme) (frame : Frame) (after : View) : Prop :=
  ∃ stop more last, (rest = .ofSign "]" stop :: more ∧ after = ⟨rest, last, frame⟩) ∨
    (rest = .ofSign "," stop :: more ∧ after = ⟨more, last, frame⟩)

/-- What follows a pattern in an array. -/
def arrayItemEnd (isRest : Bool) (next : Option Nat) : Parser (Option (Option Nat)) := do
  unless ← at? "]" do
    expect ","
    if isRest && (← at? "]") then noteAt (← get).previous.start .commaAfterRest
  return some next

theorem arrayItemEnd_runs {rest : List Lexeme} {last : Span} {frame : Frame} {isRest : Bool}
    {next : Option Nat} (hframe : frame.Typed source) (hsilent : frame.context.silent = true)
    (hrest : Follows [",", "]"] rest) (hmore : rest.tail ≠ []) :
    Runs (arrayItemEnd isRest next) ⟨rest, last, frame⟩ True fun given after =>
      given.isSome ∧ BehindElement rest frame after := by
  obtain ⟨text, htext, span, more, rfl⟩ := hrest
  obtain rfl | rfl : text = "," ∨ text = "]" := by simpa using htext
  · refine (notAt hframe.clear (by rfl)).no <| (expect_reads hframe.clear (by rfl)).step ?_
    refine (at?_reads (hframe.clear hmore)).step ?_
    refine .ite (fun _ => get_runs fun state _ => (noteAt_reads hsilent _ _).step ?_) fun _ => ?_
    all_goals exact .pure ⟨rfl, span, more, span, .inr ⟨rfl, rfl⟩⟩
  · exact (isAt hframe.clear (by rfl)).yes <| .pure ⟨rfl, span, more, last, .inl ⟨rfl, rfl⟩⟩

/-- Where neither a comma nor the closing bracket stands the trial ends. -/
theorem arrayItemEnd_fails {signs : List String} {left : List Lexeme} {last : Span} {frame : Frame}
    {isRest : Bool} {next : Option Nat} {post : Option (Option Nat) → View → Prop}
    (hframe : frame.Typed source) (hleft : Follows signs left)
    (hcomma : signs.contains "," = false) (hclose : signs.contains "]" = false) :
    Runs (arrayItemEnd isRest next) ⟨left, last, frame⟩ True post := by
  have hnoComma := hleft.spells_eq_false hcomma last frame
  refine (notAt (hframe.clear hleft.ne_nil) (hleft.spells_eq_false hclose _ _)).no ?_
  obtain ⟨text, -, span, more, rfl⟩ := hleft
  exact .bind (expect_fails hframe.clear hnoComma)

/-- An item of an array of patterns. -/
def Grammar.arrayItem (g : Grammar) (rest : Option Nat) : Parser (Option (Option Nat)) := do
  let place ← position
  let isRest ← eat "..."
  let _ ← if isRest then g.pattern else g.patternElement
  arrayItemEnd isRest (if isRest then some place else rest)

theorem ElementStops.arrayItem_runs (h : ElementStops source lexemes) {bound : Nat}
    {rest : List Lexeme} {frame : Frame} (previous : Span) (read : Option Nat)
    (hframe : frame.Typed source) (hsilent : frame.context.silent = true)
    (hrest : Follows [",", "]"] rest) (hmore : rest.tail ≠ [])
    (hbound : (lexemes ++ rest).length ≤ bound) :
    Runs ((Grammar.ofFuel (bound + 8)).arrayItem read) ⟨lexemes ++ rest, previous, frame⟩ True
      fun next after => next.isSome ∧ BehindElement rest frame after := by
  cases h with
  | plain hbegins hstops =>
    have hclear : View.Clear ⟨lexemes ++ rest, previous, frame⟩ :=
      hframe.clear (hbegins.append_ne_nil rest)
    obtain ⟨start, hstart⟩ := hbegins.position_reads _ previous hframe
    refine hstart.step <| (eat_no hclear (hbegins.spells_eq_false (by decide) _ _ _)).step ?_
    refine .bind <| (hstops.patternElement_runs hbegins (by decide) hframe hsilent hrest (by decide)
      hbound).mono ?_
    rintro _ _ ⟨left, last, rfl, rfl | hleft⟩
    · exact arrayItemEnd_runs hframe hsilent hrest hmore
    · exact arrayItemEnd_fails hframe hleft (by decide) (by decide)
  | @optional type mark hbegins hstops =>
    rw [List.append_assoc] at hbound ⊢
    have hmark : Follows ["?"] (.ofSign "?" mark :: rest) := .sign List.mem_cons_self mark rest
    have hclear : View.Clear ⟨type ++ .ofSign "?" mark :: rest, previous, frame⟩ :=
      hframe.clear (by simp)
    obtain ⟨start, hstart⟩ := hbegins.position_reads _ previous hframe
    refine hstart.step <| (eat_no hclear (hbegins.spells_eq_false (by decide) _ _ _)).step ?_
    refine .bind <| (hstops.patternElement_runs hbegins (by decide) hframe hsilent hmark
      (by decide) hbound).mono ?_
    rintro _ _ ⟨left, last, rfl, rfl | hleft⟩
    · exact arrayItemEnd_fails hframe hmark (by decide) (by decide)
    · exact arrayItemEnd_fails hframe hleft (by decide) (by decide)
  | @rest type dots hstops =>
    rw [List.cons_append] at hbound ⊢
    refine (position_reads hframe.clear).step <| (eat_yes hframe.clear (by rfl)).step ?_
    have hbehind : (type ++ rest).length ≤ bound := by
      simp at hbound ⊢
      omega
    refine .bind <| (hstops bound rest _ frame hframe hsilent hrest.ne_nil hbehind).mono ?_
    rintro _ _ ⟨left, last, rfl, rfl | hleft⟩
    · exact arrayItemEnd_runs hframe hsilent hrest hmore
    · exact arrayItemEnd_fails hframe hleft (by decide) (by decide)

theorem ElementStops.begins (h : ElementStops source lexemes) :
    BeginsOutside ["]", ","] lexemes := by
  have hrefused : ∀ text ∈ ["]", ","], text ∈ typeRefused := by decide
  cases h with
  | plain hbegins _ => exact hbegins.mono hrefused
  | optional hbegins _ => exact (hbegins.mono hrefused).append _
  | rest _ => exact ⟨_, _, rfl, by simp [Lexeme.ofSign, Token.spells]⟩

theorem ElementStops.arrayStep_runs (h : ElementStops source lexemes) {bound : Nat}
    {rest : List Lexeme} {frame : Frame} (previous : Span) (read : Option Nat)
    (hframe : frame.Typed source) (hsilent : frame.context.silent = true)
    (hrest : Follows [",", "]"] rest) (hmore : rest.tail ≠ [])
    (hbound : (lexemes ++ rest).length ≤ bound) :
    Runs ((Grammar.ofFuel (bound + 8)).arrayStep read) ⟨lexemes ++ rest, previous, frame⟩ True
      fun next after => next.isSome ∧ BehindElement rest frame after := by
  have hitem := h.arrayItem_runs previous read hframe hsilent hrest hmore hbound
  have hbegins := h.begins
  have hclear : View.Clear ⟨lexemes ++ rest, previous, frame⟩ :=
    hframe.clear (hbegins.append_ne_nil rest)
  have hno {text : String} (htext : text ∈ ["]", ","]) :=
    hbegins.spells_eq_false htext rest previous frame
  have hend : Reads atEnd ⟨lexemes ++ rest, previous, frame⟩ false
      ⟨lexemes ++ rest, previous, frame⟩ := by
    obtain ⟨first, more, rfl, -⟩ := hbegins
    exact atEnd_reads hclear
  refine hend.step <| (notAt hclear (hno (by simp))).step ?_
  rw [Bool.or_false, if_neg (by decide)]
  refine (eat_no hclear (hno (by simp))).no ?_
  cases read with
  | none => exact hitem
  | some place => exact (noteAt_reads hsilent _ _).step hitem

theorem arrayStep_stop {g : Grammar} {right previous : Span} {rest : List Lexeme} {frame : Frame}
    (hframe : frame.Typed source) (read : Option Nat) :
    Reads (g.arrayStep read) ⟨.ofSign "]" right :: rest, previous, frame⟩ none
      ⟨.ofSign "]" right :: rest, previous, frame⟩ := by
  refine (atEnd_reads hframe.clear).step <| (isAt hframe.clear (by rfl)).step ?_
  exact .ite (fun _ => .done) fun hno => absurd rfl hno

/-- The elements of a tuple are passed by up to the closing bracket, or the trial ends. -/
theorem arrayElements_runs {elements : List TupleElement} {bound : Nat} {right : Span}
    {rest : List Lexeme} {frame : Frame}
    (h : Separated "," (fun _ ls => ElementStops source ls) elements lexemes)
    (hframe : frame.Typed source) (hsilent : frame.context.silent = true) (hrest : rest ≠ [])
    (hbound : (lexemes ++ .ofSign "]" right :: rest).length ≤ bound) :
    ∀ previous read limit, (lexemes ++ .ofSign "]" right :: rest).length + 2 ≤ limit →
      Runs (iterateUpTo (Grammar.ofFuel (bound + 8)).arrayStep limit read)
        ⟨lexemes ++ .ofSign "]" right :: rest, previous, frame⟩ True
        fun _ after => ∃ last, after = ⟨.ofSign "]" right :: rest, last, frame⟩ := by
  induction h with
  | single h =>
    intro previous read limit hlimit
    refine iterateUpTo_runs (by omega) ?_
    refine (h.arrayStep_runs previous read hframe hsilent (.sign (by simp) right rest) hrest
      hbound).mono ?_
    rintro next _ ⟨hnext, stop, more, last, ⟨-, rfl⟩ | ⟨heq, -⟩⟩
    · refine ⟨fun hnone => (by rw [hnone] at hnext; cases hnext), fun given _ => ?_⟩
      exact iterateUpTo_stop (by simp at hlimit; omega) (arrayStep_stop hframe given) ⟨last, rfl⟩
    · simp [Lexeme.ofSign] at heq
  | @cons _ _ first comma later h _ ih =>
    intro previous read limit hlimit
    rw [List.append_assoc, List.cons_append] at hbound hlimit ⊢
    refine iterateUpTo_runs (by omega) ?_
    refine (h.arrayStep_runs previous read hframe hsilent (.sign (by simp) comma _) (by simp)
      hbound).mono ?_
    rintro next _ ⟨hnext, stop, more, last, ⟨heq, -⟩ | ⟨heq, rfl⟩⟩
    · simp [Lexeme.ofSign] at heq
    · obtain ⟨-, rfl⟩ := List.cons.inj heq
      refine ⟨fun hnone => (by rw [hnone] at hnext; cases hnext), fun given _ => ?_⟩
      simp only [List.length_append, List.length_cons] at hbound hlimit
      exact ih (by simp; omega) last given (limit - 1) (by simp; omega)

theorem eatPatternOption_reads {view : View} (h : view.frame.Typed source) :
    Reads Grammar.eatPatternOption view () view := by
  refine get_runs fun state hshows => ?_
  rw [hshows.context, h.inDeclare]
  exact Runs.done

namespace PatternStops

/-- An array pattern ends behind the bracket that its elements end at. -/
theorem arrayPattern_runs {signs : List String} {bound : Nat} {inner rest : List Lexeme}
    {left right previous : Span} {frame : Frame} (hframe : frame.Typed source)
    (hloop : ∀ limit, inner.length + 2 ≤ limit →
      Runs (iterateUpTo (Grammar.ofFuel (bound + 7)).arrayStep limit none) ⟨inner, left, frame⟩ True
        fun _ after => ∃ last, after = ⟨.ofSign "]" right :: rest, last, frame⟩) :
    Runs (Grammar.ofFuel (bound + 8)).pattern ⟨.ofSign "[" left :: inner, previous, frame⟩ True
      fun _ after => ∃ left last, after = ⟨left, last, frame⟩ ∧
        (left = rest ∨ Follows signs left) := by
  show Runs ((Grammar.ofFuel (bound + 7)).patternStep true) _ _ _
  refine (needToken_reads hframe.clear).step <| (position_reads hframe.clear).step ?_
  show Runs (Grammar.ofFuel (bound + 7)).arrayPattern _ _ _
  rw [Grammar.arrayPattern_eq]
  refine (position_reads hframe.clear).step <| (bump_reads hframe.clear).step ?_
  refine .bind <| iterate_runs fun limit hlimit => (hloop limit hlimit).mono ?_
  rintro _ _ ⟨last, rfl⟩
  refine (expect_reads hframe.clear (by rfl)).step <| (eatPatternOption_reads hframe).step ?_
  exact (spanFrom_reads _).step <| .pure ⟨rest, right, rfl, .inl rfl⟩

/-- A tuple is an array pattern, or the trial ends. -/
theorem tuple {elements : List TupleElement} {left right : Span}
    (h : Separated "," (fun _ ls => ElementStops source ls) elements lexemes) :
    PatternStops source wordEnds (.ofSign "[" left :: (lexemes ++ [.ofSign "]" right])) := by
  intro bound rest previous frame hframe hsilent hne hbound
  rw [List.cons_append, List.append_assoc] at hbound ⊢
  obtain ⟨n, rfl, hinner⟩ := exists_fuel hbound
  exact arrayPattern_runs hframe (arrayElements_runs h hframe hsilent hne hinner left none)

theorem emptyTuple {left right : Span} :
    PatternStops source wordEnds [.ofSign "[" left, .ofSign "]" right] := by
  intro bound rest previous frame hframe hsilent _ hbound
  exact arrayPattern_runs hframe fun limit hlimit =>
    iterateUpTo_stop (by omega) (arrayStep_stop hframe none) ⟨left, rfl⟩

end PatternStops

/-! ## Objects of patterns -/

/-- Members, as far as a pattern goes: behind the first property stands no comma and no brace. -/
structure PropertyStops (source : List Char) (lexemes : List Lexeme) : Prop where
  begins : BeginsOutside [rightBrace] lexemes
  runs : ∀ bound rest previous (frame : Frame), frame.Typed source → frame.context.silent = true →
    (lexemes ++ rest).length ≤ bound →
      Runs (Grammar.ofFuel (bound + 8)).patternProperty ⟨lexemes ++ rest, previous, frame⟩ True
        fun _ after => ∃ first more last, after = ⟨first :: more, last, frame⟩ ∧
          [rightBrace, ","].any first.token.spells = false

theorem SpellsKey.spells_eq_false {name : String} {token : Token} (h : SpellsKey name token)
    {text : String} (htext : isIdentifier text = false) : token.spells text = false := by
  cases h with
  | word hname =>
    have hne : name ≠ text := by
      rintro rfl
      rw [hname] at htext
      cases htext
    unfold wordToken
    split <;> exact decide_eq_false hne
  | string => rfl

theorem propertyName_word {g : Grammar} {lexeme : Lexeme} {text : String} {rest : List Lexeme}
    {previous : Span} {frame : Frame} (hframe : frame.Typed source)
    (hword : lexeme.token.word? = some text) :
    Runs g.propertyName ⟨lexeme :: rest, previous, frame⟩ False fun read after =>
      read.1 = .word text ∧ after = ⟨rest, lexeme.span, frame⟩ := by
  refine (position_reads hframe.clear).step <| (needToken_reads hframe.clear).step ?_
  obtain ⟨token, span, afterBreak⟩ := lexeme
  cases token <;> cases hword
  all_goals
    refine (bump_reads hframe.clear).step <| .bind <| .pure ?_
    exact (spanFrom_reads _).step <| .pure ⟨rfl, rfl⟩

theorem propertyName_string {g : Grammar} {value raw : String} {span : Span} {afterBreak : Bool}
    {rest : List Lexeme} {previous : Span} {frame : Frame} (hframe : frame.Typed source) :
    Runs g.propertyName ⟨⟨.string value raw, span, afterBreak⟩ :: rest, previous, frame⟩ False
      fun read after => read.1 = .string value ∧ after = ⟨rest, span, frame⟩ := by
  refine (position_reads hframe.clear).step <| (needToken_reads hframe.clear).step ?_
  refine (bump_reads hframe.clear).step <| .bind <| .pure ?_
  exact (spanFrom_reads _).step <| .pure ⟨rfl, rfl⟩

namespace PropertyStops

/-- A word is a property of its own where neither a colon nor a default value follows. -/
theorem of_word {first second : Lexeme} {text : String} {more : List Lexeme}
    (hfirst : ["...", rightBrace].any first.token.spells = false)
    (hword : first.token.word? = some text)
    (hsecond : [":", "=", rightBrace, ","].any second.token.spells = false) :
    PropertyStops source (first :: second :: more) where
  begins := ⟨_, _, rfl, by simpa using (Bool.or_eq_false_iff.mp hfirst).2⟩
  runs bound rest previous frame hframe hsilent hbound := by
    have hno {text : String} (htext : text ∈ [":", "=", rightBrace, ","]) :
        second.token.spells text = false :=
      Bool.eq_false_iff.mpr (List.any_eq_false.mp hsecond text htext)
    refine (position_reads hframe.clear).step ?_
    refine (eat_no hframe.clear (by exact (Bool.or_eq_false_iff.mp hfirst).1)).no ?_
    refine .bind <| (propertyName_word hframe hword).weaken.mono ?_
    rintro ⟨_, span⟩ _ ⟨rfl, rfl⟩
    refine (eat_no hframe.clear (by exact hno (by simp))).no ?_
    refine (eat_no hframe.clear (by exact hno (by simp))).no ?_
    have hstop : ∃ head later last, (⟨second :: (more ++ rest), first.span, frame⟩ : View) =
        ⟨head :: later, last, frame⟩ ∧ [rightBrace, ","].any head.token.spells = false :=
      ⟨second, _, _, rfl, by simp [hno]⟩
    exact .ite (fun _ => (noteAt_reads hsilent _ _).step (.pure hstop)) fun _ => .pure hstop

/-- What a parser for names reads in front of a colon has a pattern behind it. -/
theorem of_colon {first : Lexeme} {colon stop : Span} {type more : List Lexeme}
    (hfirst : ["...", rightBrace].any first.token.spells = false)
    (hname : ∀ (g : Grammar) rest previous (frame : Frame), frame.Typed source →
      Runs g.propertyName ⟨first :: rest, previous, frame⟩ False fun _ after =>
        after = ⟨rest, first.span, frame⟩)
    (hbegins : BeginsOutside typeRefused type) (htype : PatternStops source wordEnds type) :
    PropertyStops source (first :: .ofSign ":" colon :: (type ++ .ofSign ";" stop :: more)) where
  begins := ⟨_, _, rfl, by simpa using (Bool.or_eq_false_iff.mp hfirst).2⟩
  runs bound rest previous frame hframe hsilent hbound := by
    rw [List.cons_append, List.cons_append, List.append_assoc, List.cons_append] at hbound ⊢
    have hend : Follows [";"] (.ofSign ";" stop :: (more ++ rest)) := .sign List.mem_cons_self _ _
    have hstop {signs : List String} {left : List Lexeme} (last : Span) (h : Follows signs left)
        (hsigns : [rightBrace, ","].all (fun text => !signs.contains text) = true) :
        ∃ head later last', (⟨left, last, frame⟩ : View) = ⟨head :: later, last', frame⟩ ∧
          [rightBrace, ","].any head.token.spells = false := by
      have hany : [rightBrace, ","].any (View.spells ⟨left, last, frame⟩) = false :=
        h.any_spells_eq_false hsigns last frame
      obtain ⟨text, -, span, later, rfl⟩ := h
      exact ⟨_, later, last, rfl, hany⟩
    refine (position_reads hframe.clear).step ?_
    refine (eat_no hframe.clear (by exact (Bool.or_eq_false_iff.mp hfirst).1)).no ?_
    refine .bind <| (hname _ _ previous frame hframe).weaken.mono ?_
    rintro ⟨key, span⟩ _ rfl
    refine (eat_yes hframe.clear (by rfl)).yes ?_
    have hlater : (type ++ .ofSign ";" stop :: (more ++ rest)).length ≤ bound := by
      simp at hbound ⊢
      omega
    refine .bind <| (htype.patternElement_runs hbegins (by decide) hframe hsilent hend (by decide)
      hlater).mono ?_
    rintro _ _ ⟨left, last, rfl, rfl | hleft⟩
    · exact .pure (hstop last hend (by decide))
    · exact .pure (hstop last hleft (by decide))

/-- A string alone is no property. -/
theorem of_string {value raw : String} {span mark : Span} {afterBreak : Bool} {more : List Lexeme} :
    PropertyStops source (⟨.string value raw, span, afterBreak⟩ :: .ofSign "?" mark :: more) where
  begins := ⟨_, _, rfl, fun _ _ => rfl⟩
  runs bound rest previous frame hframe hsilent hbound := by
    refine (position_reads hframe.clear).step <| (eat_no hframe.clear (by rfl)).no ?_
    refine .bind <| (propertyName_string hframe).weaken.mono ?_
    rintro ⟨_, place⟩ _ ⟨rfl, rfl⟩
    exact (eat_no hframe.clear (by rfl)).no <| unexpected_runs hframe.clear _

/-- The parameter of an index signature is an expression with no bracket behind it. -/
theorem of_bracket {parameter : String} {left place colon : Span} {afterBreak : Bool}
    {more : List Lexeme} (hparameter : IsFreeName parameter) :
    PropertyStops source (⟨.sign "[", left, afterBreak⟩ :: ⟨wordToken parameter, place, false⟩ ::
      .ofSign ":" colon :: more) where
  begins := ⟨_, _, rfl, by simp [Token.spells, rightBrace]⟩
  runs bound rest previous frame hframe hsilent hbound := by
    rw [hparameter.wordToken_eq]
    refine (position_reads hframe.clear).step <| (eat_no hframe.clear (by rfl)).no ?_
    have hname {post : MemberKey × Span → View → Prop} :
        Runs (Grammar.ofFuel (bound + 8)).propertyName
          ⟨⟨.sign "[", left, afterBreak⟩ :: ⟨.name parameter, place, false⟩ ::
            .ofSign ":" colon :: (more ++ rest), previous, frame⟩ True post := by
      refine (position_reads hframe.clear).step <| (needToken_reads hframe.clear).step ?_
      refine (bump_reads hframe.clear).step <| (position_reads hframe.clear).step ?_
      let inner : Frame := { frame with context := { frame.context with inAllowed := true } }
      have hinner : inner.context.silent = true := hsilent
      refine .bind <| within_runs ?_
      show Runs (Grammar.ofFuel (bound + 2 + 5)).assignmentStep ⟨_, left, inner⟩ _ _
      refine (Grammar.assignmentStep_name hparameter hinner (bound + 2)).weaken.mono ?_
      rintro _ _ rfl
      -- the expression has left its own mark on the frame
      let after : Frame := { frame with arrowStart := some place.start }
      have hafter : after.Typed source := ⟨hframe.source, hframe.singleAngles, hframe.inDeclare⟩
      show Runs _ ⟨.ofSign ":" colon :: (more ++ rest), place, after⟩ _ _
      refine (notAt hafter.clear (by rfl)).no ?_
      exact .bind (expect_fails hafter.clear (by rfl))
    exact .bind hname

theorem property {name : String} {token : Token} {readonly optional : Bool} {start : Nat}
    {colon stop : Span} {head mark type more : List Lexeme} (hkey : SpellsKey name token)
    (hhead : SpellsHead token readonly start head) (hmark : SpellsOptional optional mark)
    (hbegins : BeginsOutside typeRefused type) (htype : PatternStops source wordEnds type) :
    PropertyStops source
      (head ++ (mark ++ .ofSign ":" colon :: (type ++ .ofSign ";" stop :: more))) := by
  have hsigns {texts : List String} (htexts : texts.all (fun text => !isIdentifier text) = true) :
      texts.any token.spells = false :=
    List.any_eq_false.mpr fun text hmem => Bool.eq_false_iff.mp <|
      hkey.spells_eq_false (by simpa using List.all_eq_true.mp htexts text hmem)
  cases hhead with
  | readonly => exact of_word (by rfl) rfl (hsigns (by rfl))
  | plain =>
    cases hkey with
    | word hname =>
      have hword := wordToken_word? name
      cases hmark with
      | required =>
        refine of_colon (hsigns (by rfl)) (fun g rest previous frame hframe => ?_) hbegins htype
        exact (propertyName_word hframe hword).mono fun _ _ h => h.2
      | optional => exact of_word (hsigns (by rfl)) hword (by rfl)
    | string =>
      cases hmark with
      | required =>
        refine of_colon (by rfl) (fun g rest previous frame hframe => ?_) hbegins htype
        exact (propertyName_string hframe).mono fun _ _ h => h.2
      | optional => exact of_string

theorem index {parameter : String} {readonly : Bool} {start : Nat} {place colon : Span}
    {head more : List Lexeme} (hparameter : IsFreeName parameter)
    (hhead : SpellsHead (.sign "[") readonly start head) :
    PropertyStops source
      (head ++ ⟨wordToken parameter, place, false⟩ :: .ofSign ":" colon :: more) := by
  cases hhead with
  | readonly => exact of_word (by rfl) rfl (by rfl)
  | plain => exact of_bracket hparameter

end PropertyStops

/-- What `braced` repeats. -/
def Grammar.bracedStep {α : Type} (property : Parser α) :
    List α × Option Nat × Bool → Parser (Option (List α × Option Nat × Bool))
  | (items, comma, isDone) => do
    if isDone then return none
    if ← eat rightBrace then return some (items, comma, true)
    let items := (← property) :: items
    if ← at? rightBrace then return some (items, comma, false)
    expect ","
    let comma ← if ← at? rightBrace then pure (some (← get).previous.start) else pure comma
    return some (items, comma, false)

theorem Grammar.braced_eq {α : Type} (property : Parser α) :
    Grammar.braced property = awaitingNoColon (do
      expect leftBrace
      let (items, comma, _) ← iterate (bracedStep property) ([], none, false)
      return (items.reverse, comma)) := rfl

namespace PatternStops

variable {signs : List String}

/-- An object pattern with no properties ends where its loop does. -/
theorem objectPattern_runs {bound : Nat} {inner rest : List Lexeme} {left previous : Span}
    {frame : Frame} (hframe : frame.Typed source)
    (hloop : ∀ limit, inner.length + 2 ≤ limit →
      Runs (iterateUpTo (Grammar.bracedStep (Grammar.ofFuel (bound + 7)).patternProperty) limit
          ([], none, false)) ⟨inner, left, frame.awaitingNoColon⟩ True
        fun read after => read = ([], none, true) ∧
          ∃ last, after = ⟨rest, last, frame.awaitingNoColon⟩) :
    Runs (Grammar.ofFuel (bound + 8)).pattern ⟨.ofSign leftBrace left :: inner, previous, frame⟩
      True fun _ after => ∃ left last, after = ⟨left, last, frame⟩ ∧
        (left = rest ∨ Follows signs left) := by
  show Runs ((Grammar.ofFuel (bound + 7)).patternStep true) _ _ _
  refine (needToken_reads hframe.clear).step <| (position_reads hframe.clear).step ?_
  show Runs (Grammar.ofFuel (bound + 7)).objectPattern _ _ _
  refine (position_reads hframe.clear).step <| .bind ?_
  rw [Grammar.braced_eq]
  refine awaitingNoColon_runs <| (expect_reads hframe.awaitingNoColon.clear (by rfl)).step ?_
  refine .bind <| iterate_runs fun limit hlimit => (hloop limit hlimit).mono ?_
  rintro _ _ ⟨rfl, last, rfl⟩
  refine .pure <| .bind <| .pure <| (eatPatternOption_reads hframe).step ?_
  exact (spanFrom_reads _).step <| .pure ⟨rest, last, rfl, .inl rfl⟩

/-- A shape with members is no object pattern. -/
theorem shape {left right : Span} {afterBreak : Bool} (h : PropertyStops source lexemes) :
    PatternStops source signs
      (.ofSign leftBrace left :: (lexemes ++ [⟨.sign rightBrace, right, afterBreak⟩])) := by
  intro bound rest previous frame hframe hsilent _ hbound
  rw [List.cons_append, List.append_assoc, List.singleton_append] at hbound ⊢
  obtain ⟨n, rfl, hlength⟩ := exists_fuel hbound
  have hinner : frame.awaitingNoColon.Typed source := hframe.awaitingNoColon
  have hproperty := h.runs n (⟨.sign rightBrace, right, afterBreak⟩ :: rest) left
    frame.awaitingNoColon hinner hsilent hlength
  -- the first property is read to its end, and there the loop fails
  refine objectPattern_runs hframe fun limit hlimit => iterateUpTo_runs (by omega) ?_
  refine (eat_no (hinner.clear (h.begins.append_ne_nil _))
    (h.begins.spells_eq_false (by simp) _ _ _)).no ?_
  refine .bind <| hproperty.mono ?_
  rintro property _ ⟨first, more, last, rfl, hfirst⟩
  simp only [List.any_cons, List.any_nil, Bool.or_false, Bool.or_eq_false_iff] at hfirst
  refine (notAt hinner.clear (by exact hfirst.1)).no ?_
  exact .bind (expect_fails hinner.clear (by exact hfirst.2))

/-- The empty shape is an object pattern. -/
theorem emptyShape {left right : Span} {afterBreak : Bool} :
    PatternStops source signs
      (.ofSign leftBrace left :: [⟨.sign rightBrace, right, afterBreak⟩]) := by
  intro bound rest previous frame hframe hsilent _ hbound
  refine objectPattern_runs hframe fun limit hlimit => ?_
  refine iterateUpTo_next (by omega) ((eat_yes hframe.awaitingNoColon.clear (by rfl)).yes .done) ?_
  exact iterateUpTo_stop (by simp at hlimit; omega) Runs.done ⟨rfl, right, rfl⟩

end PatternStops

/-! ## All types -/

namespace Spells

/-- How far a part of a type goes as a pattern. -/
def Stops (source : List Char) : Phrase → List Lexeme → Prop
  | .type _, lexemes => PatternStops source wordEnds lexemes
  | .types sign _, lexemes => PatternStops source (sign :: wordEnds) lexemes
  | .element _, lexemes => ElementStops source lexemes
  | .elements elements, lexemes =>
    Separated "," (fun _ ls => ElementStops source ls) elements lexemes
  | .members [], lexemes => lexemes = []
  | .members (_ :: _), lexemes => PropertyStops source lexemes

theorem stops {phrase : Phrase} (h : Spells source phrase front behind lexemes) :
    Stops source phrase lexemes := by
  -- a tuple or a shape is the only form that a pattern goes into; of every other form it takes the
  -- first word and leaves the sign behind that
  have hname {words : List String} {lexemes : List Lexeme} (h : SpellsName words lexemes) :
      PatternStops source wordEnds lexemes := by
    refine .of_word fun rest => ?_
    obtain ⟨-, hwords⟩ := h
    cases hwords with
    | nil => exact ⟨_, _, _, rfl, rfl, .inl rfl⟩
    | cons _ => exact ⟨_, _, _, rfl, rfl, .inr <| .sign (by decide) _ _⟩
  have hcons (sign : String) : ∀ text ∈ wordEnds, text ∈ sign :: wordEnds :=
    fun _ => List.mem_cons_of_mem _
  induction h with
  | @keyword word span =>
    exact .of_word fun rest => ⟨_, _, _, rfl, wordToken_word? word.text, .inl rfl⟩
  | boolean => exact .of_word fun rest => ⟨_, _, _, rfl, rfl, .inl rfl⟩
  | string | number | negative | parenthesized =>
    exact .of_other fun rest => ⟨_, _, rfl, rfl, rfl⟩
  | reference h => exact hname h
  | applied h _ _ => exact (hname h).append (by decide)
  | array _ _ ih => exact ih.append (by decide)
  | emptyTuple => exact .emptyTuple
  | tuple _ _ ih => exact .tuple ih
  | union _ _ _ ih => exact ih.mono (by decide)
  | intersection _ _ _ ih => exact ih.mono (by decide)
  | @shape members _ _ _ _ _ _ _ ih =>
    cases members with
    | nil =>
      obtain rfl : _ = [] := ih
      exact .emptyShape
    | cons _ _ => exact .shape ih
  | single _ ih => exact ih.mono (hcons _)
  | cons _ _ ih _ => exact (ih.mono (hcons _)).append List.mem_cons_self
  | plainElement h ih => exact .plain h.begins ih
  | optionalElement _ h ih => exact .optional h.begins ih
  | restElement h ih => exact .rest ih
  | singleElement _ ih => exact .single ih
  | consElement _ _ ih ihs => exact .cons ih ihs
  | noMembers => exact rfl
  | property hkey hhead hmark _ h _ ih _ => exact .property hkey hhead hmark h.begins ih
  | index hparameter hhead _ _ _ _ _ _ _ => exact .index hparameter hhead

end Spells

/-! ## Parentheses -/

/-- The signs that stand inside of a type or follow it. -/
def partEnds : List String := wordEnds ++ typeEnds

/-- Whatever begins with a parenthesis is no function type. -/
def NoParameters (source : List Char) (lexemes : List Lexeme) : Prop :=
  ∀ bound rest previous (frame : Frame), frame.Typed source → Follows partEnds rest →
    (lexemes ++ rest).length ≤ bound →
      Reads (at? "(" <&&> lookAhead (Grammar.ofFuel (bound + 7)).startsParameters)
        ⟨lexemes ++ rest, previous, frame⟩ false ⟨lexemes ++ rest, previous, frame⟩

namespace NoParameters

theorem of_first {first : Lexeme} {more : List Lexeme} (h : first.token.spells "(" = false) :
    NoParameters source (first :: more) :=
  fun _ _ _ _ hframe _ _ => (notAt hframe.clear (by exact h)).and_no

theorem append {sign : String} {span : Span} {more : List Lexeme} (h : NoParameters source lexemes)
    (hsign : sign ∈ partEnds) : NoParameters source (lexemes ++ .ofSign sign span :: more) := by
  intro bound rest previous frame hframe _ hbound
  rw [List.append_assoc, List.cons_append] at hbound ⊢
  exact h bound _ previous frame hframe (.sign hsign _ _) hbound

theorem parenthesized {inner : TypeNode} {left right : Span}
    (h : Spells source (.type inner) front behind lexemes) :
    NoParameters source (.ofSign "(" left :: (lexemes ++ [.ofSign ")" right])) := by
  intro bound rest previous frame hframe hrest hbound
  rw [List.cons_append, List.append_assoc, List.singleton_append] at hbound ⊢
  obtain ⟨n, rfl, hinner⟩ := exists_fuel hbound
  refine (isAt hframe.clear (by rfl)).and_yes <| lookAhead_runs ?_
  let trying : Frame := frame.trying
  have htrying : trying.Typed source := hframe.trying
  -- what stands behind a parameter, or behind the parenthesis around it, stands nowhere here
  have hends {left : List Lexeme} (last : Span)
      (hleft : left = .ofSign ")" right :: rest ∨ Follows wordEnds left) :
      Runs (do
        if ← atAny [":", ",", "?", "="] then return true
        eat ")" <&&> at? "=>") ⟨left, last, trying⟩ False
        fun holds _ => holds = false := by
    rcases hleft with rfl | hleft
    · refine (notAtAny htrying.clear (by rfl)).no ?_
      refine ((eat_yes htrying.clear (by rfl)).and_yes
        (notAt (htrying.clear hrest.ne_nil) ?_)).runs rfl
      exact hrest.spells_eq_false (by decide) _ _
    · have hclear : View.Clear ⟨left, last, trying⟩ := htrying.clear hleft.ne_nil
      refine (notAtAny hclear (hleft.any_spells_eq_false (by decide) _ _)).no ?_
      exact (eat_no hclear (hleft.spells_eq_false (by decide) _ _)).and_no.runs rfl
  have hstarts : Runs (Grammar.ofFuel (n + 8)).startsParameters
      ⟨.ofSign "(" left :: (lexemes ++ .ofSign ")" right :: rest), previous, trying⟩ False
      fun holds _ => holds = false := by
    have hbegins : BeginsOutside typeRefused lexemes := h.begins
    have hnone {texts : List String} (htexts : ∀ text ∈ texts, text ∈ typeRefused) :=
      hbegins.any_spells_eq_false htexts (.ofSign ")" right :: rest) left trying
    have hpattern := h.stops n (.ofSign ")" right :: rest) left trying htrying rfl (by simp) hinner
    refine (bump_reads htrying.clear).step ?_
    refine (notAtAny htrying.clear (hnone (by decide))).no ?_
    refine (eatParameterModifier_reads htrying.clear (hnone (by decide))).step ?_
    obtain ⟨first, more, heq, hfirst⟩ := h.goesOn (.ofSign ")" right :: rest)
    rw [heq] at hpattern ⊢
    refine (atWord_reads htrying.clear).step ?_
    -- a word is a parameter by itself, and a bracket is tried as a pattern
    cases hword : first.token.word? with
    | some text =>
      refine .ite (fun _ => (bump_reads htrying.clear).step <| hends _ ?_) fun hno => absurd rfl hno
      exact hfirst.resolve_left (by rw [hword]; simp)
    | none =>
      refine .ite (fun hyes => absurd hyes (by simp)) fun _ => (atAny_reads htrying.clear).step ?_
      refine .ite (fun _ => .bind <| attempt_runs ?_ fun _ : True => .pure rfl) fun _ =>
        .pure rfl
      show Runs _ ⟨first :: more, left, trying⟩ True _
      refine .bind <| hpattern.mono ?_
      rintro pattern _ ⟨behind, last, rfl, hbehind⟩
      refine .pure ⟨fun hnone => (Option.some_ne_none _ hnone).elim, fun given _ => ?_⟩
      exact hends last hbehind
  exact hstarts.mono fun _ _ hholds => ⟨hholds, rfl⟩

end NoParameters

namespace Spells

/-- What a part of a type begins with is no parameter list. -/
def Unparametrized (source : List Char) : Phrase → List Lexeme → Prop
  | .type _, lexemes => NoParameters source lexemes
  | .types sign _, lexemes => sign ∈ partEnds → NoParameters source lexemes
  | _, _ => True

theorem unparametrized {phrase : Phrase} (h : Spells source phrase front behind lexemes) :
    Unparametrized source phrase lexemes := by
  have hname {words : List String} {lexemes : List Lexeme} (h : SpellsName words lexemes) :
      NoParameters source lexemes := by
    obtain ⟨hword, -⟩ := h
    exact .of_first (name_spells_eq_false hword (by decide +kernel))
  induction h with
  | @keyword word span => exact .of_first (by cases word <;> rfl)
  | @boolean value span => exact .of_first (by cases value <;> rfl)
  | string | number | negative | emptyTuple | tuple | shape => exact .of_first rfl
  | reference h => exact hname h
  | applied h _ _ => exact (hname h).append (by decide)
  | array _ _ ih => exact ih.append (by decide)
  | union _ _ _ ih => exact ih (by decide)
  | intersection _ _ _ ih => exact ih (by decide)
  | parenthesized h _ => exact .parenthesized h
  | single _ ih => exact fun _ => ih
  | cons _ _ ih _ => exact fun hsign => ih.append hsign
  | _ => trivial

/-- No type of a tree begins with the parameters of a function. -/
theorem no_parameters {node : TypeNode} (h : Spells source (.type node) front behind lexemes) :
    NoParameters source lexemes := h.unparametrized

end Spells

end Declutter.Syntax
