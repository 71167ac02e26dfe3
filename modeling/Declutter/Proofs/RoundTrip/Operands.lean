import Declutter.Proofs.RoundTrip.Types

/-!
# Reading operands

The types that need nothing around them: words, literals, names with their arguments, tuples and
types in parentheses. Where types stand inside of them, that these are read as themselves is taken
from `ReadAs`.
-/

namespace Declutter.Syntax

open Declutter.Syntax.Parser

variable {source : List Char} {bound : Nat} {g : Grammar} {node : TypeNode}
  {front behind : List Comment} {lexemes : List Lexeme}

/-! ## Words and literals -/

theorem primaryType_keyword (word : Keyword) (span : Span) :
    Gives source g.primaryType primaryEnds bound (Lowers source) ⟨.keyword word, front, front⟩
      [⟨wordToken word.text, span, false⟩] := by
  intro rest previous frame hframe hrest _
  have hword : Keyword.ofText? word.text = some word := by cases word <;> rfl
  have hnamed (start : Nat) : Runs (g.namedType start word.text)
      ⟨⟨wordToken word.text, span, false⟩ :: rest, previous, frame⟩ False fun type after =>
        Lowers source type ⟨.keyword word, front, front⟩ ∧ ∃ last, after = ⟨rest, last, frame⟩ := by
    have hasserts : (wordToken word.text).spells "asserts" = false := by cases word <;> rfl
    refine (notAt hframe.clear (by exact hasserts)).and_no.no ?_
    refine (notAhead hframe.clear (hframe.clear hrest.ne_nil)
      (hrest.spells_eq_false (by decide) _ _)).step ?_
    simp only [hword, Bool.not_false, if_true]
    refine (bump_reads hframe.clear).step ?_
    exact (spanFrom_reads start).step <| .pure ⟨rfl, _, rfl⟩
  refine (position_reads hframe.clear).step ?_
  refine (needToken_reads hframe.clear).step ?_
  cases word <;> exact hnamed _

theorem primaryType_string (value raw : String) (span : Span) :
    Gives source g.primaryType primaryEnds bound (Lowers source)
      ⟨.literal (.string value), front, front⟩ [⟨.string value raw, span, false⟩] := by
  intro rest previous frame hframe hrest _
  refine (position_reads hframe.clear).step ?_
  refine (needToken_reads hframe.clear).step ?_
  refine (bump_reads hframe.clear).step ?_
  exact (spanFrom_reads _).step <| .pure ⟨rfl, _, rfl⟩

theorem primaryType_number {text value raw : String} {span : Span} (hle : span.start ≤ span.stop)
    (htext : Reading.textOf source span = text) :
    Gives source g.primaryType primaryEnds bound (Lowers source)
      ⟨.literal (.number text), front, front⟩ [⟨.number value raw, span, false⟩] := by
  intro rest previous frame hframe hrest _
  refine (position_reads hframe.clear).step ?_
  refine (needToken_reads hframe.clear).step ?_
  refine (bump_reads hframe.clear).step ?_
  refine (spanFrom_reads _).step <| .pure ⟨?_, _, rfl⟩
  simp only [Nat.min_eq_left hle, Nat.max_eq_right hle]
  rw [← htext]
  rfl

theorem primaryType_negative {text value raw : String} {sign span : Span}
    (hle : sign.start ≤ span.stop) (htext : Reading.textOf source ⟨sign.start, span.stop⟩ = text) :
    Gives source g.primaryType primaryEnds bound (Lowers source)
      ⟨.literal (.number text), front, front⟩ [.ofSign "-" sign, ⟨.number value raw, span, false⟩] := by
  intro rest previous frame hframe hrest _
  refine (position_reads hframe.clear).step ?_
  refine (needToken_reads hframe.clear).step ?_
  refine (notAt hframe.clear (by rfl)).no ?_
  refine (eat_yes hframe.clear (by rfl)).yes ?_
  refine (needToken_reads hframe.clear).step ?_
  refine (bump_reads hframe.clear).step ?_
  refine (spanFrom_reads _).step <| .pure ⟨?_, _, rfl⟩
  simp only [Lexeme.ofSign, Nat.min_eq_left hle, Nat.max_eq_right hle]
  rw [← htext]
  rfl

theorem primaryType_boolean (value : Bool) (span : Span) :
    Gives source g.primaryType primaryEnds bound (Lowers source)
      ⟨.literal (.boolean value), front, front⟩ [⟨.keyword (if value then "true" else "false"), span, false⟩] := by
  intro rest previous frame hframe hrest _
  refine (position_reads hframe.clear).step ?_
  refine (needToken_reads hframe.clear).step ?_
  cases value
  all_goals
    refine (bump_reads hframe.clear).step ?_
    exact (spanFrom_reads _).step <| .pure ⟨rfl, _, rfl⟩

/-! ## Names -/

/-- The signs that can follow a name. -/
def nameEnds : List String := "<" :: primaryEnds

/-- What `entityName` repeats. -/
def Grammar.entityStep : List String × Bool → Parser (Option (List String × Bool))
  | (parts, isDone) => do
    if isDone then return none
    unless ← eat "." do return none
    if (← at? "#") || (← atWord) then return some (parts ++ [← word], false)
    noteAt (← position) .expectedIdentifier
    return some (parts, true)

theorem Grammar.entityName_eq :
    Grammar.entityName word = (do
      let first ← word
      if first = "void" then noteAt (← spanFrom (← position)).start .expectedSemicolon
      let (parts, _) ← iterate Grammar.entityStep ([first], false)
      return parts) := rfl

/-- A word of a qualified name, behind its point. -/
theorem entityStep_word {parts : List String} {word : String} {point span previous : Span}
    {rest : List Lexeme} {frame : Frame} (hframe : frame.Typed source) :
    Reads (Grammar.entityStep (parts, false))
      ⟨.ofSign "." point :: ⟨wordToken word, span, false⟩ :: rest, previous, frame⟩
      (some (parts ++ [word], false)) ⟨rest, span, frame⟩ := by
  refine (eat_yes hframe.clear rfl).yes ?_
  refine (at?_reads hframe.clear).step <| (atWord_reads hframe.clear).step ?_
  rw [if_pos (by simp [wordToken_word?])]
  exact (word_reads hframe.clear (wordToken_word? word)).step .done

theorem entityStep_stop {parts : List String} {previous : Span} {rest : List Lexeme} {frame : Frame}
    (hframe : frame.Typed source) (hrest : Follows nameEnds rest) :
    Reads (Grammar.entityStep (parts, false)) ⟨rest, previous, frame⟩ none
      ⟨rest, previous, frame⟩ :=
  (eat_no (hframe.clear hrest.ne_nil) (hrest.spells_eq_false (by decide) _ _)).no .done

/-- A qualified name is read with all its words. -/
theorem entityName_gives {words : List String} (h : SpellsName words lexemes) :
    Gives source (Grammar.entityName word) nameEnds bound (· = ·) words lexemes := by
  intro rest previous frame hframe hrest hbound
  -- along the words: the loop stands behind some of them
  have hloop : ∀ {words lexemes}, SpellsWords words lexemes →
      ∀ parts previous limit, (lexemes ++ rest).length + 1 < limit →
        Runs (iterateUpTo Grammar.entityStep limit (parts, false))
          ⟨lexemes ++ rest, previous, frame⟩ False
          fun result after => result.1 = parts ++ words ∧ ∃ last, after = ⟨rest, last, frame⟩ := by
    intro words lexemes h
    induction h with
    | nil =>
      intro parts previous limit hlimit
      exact iterateUpTo_stop (by omega) (entityStep_stop hframe hrest) ⟨by simp, _, rfl⟩
    | @cons word words point span lexemes _ ih =>
      intro parts previous limit hlimit
      simp only [List.cons_append, List.length_cons] at hlimit
      refine iterateUpTo_next (by omega) (entityStep_word hframe) ?_
      refine (ih (parts ++ [word]) span (limit - 1) (by omega)).mono ?_
      rintro result after ⟨hresult, hafter⟩
      exact ⟨by simp [hresult], hafter⟩
  obtain @⟨word, words, span, lexemes, hword, hwords⟩ := h
  have hvoid : word ≠ "void" := by
    rintro rfl
    exact absurd hword (by decide +kernel)
  rw [Grammar.entityName_eq]
  refine (word_reads hframe.clear rfl).step ?_
  simp only [if_neg hvoid]
  refine .bind <| iterate_runs fun limit hlimit => ?_
  refine (hloop hwords _ _ limit hlimit).mono ?_
  rintro ⟨parts, _⟩ after ⟨hparts, hafter⟩
  exact .pure ⟨hparts, hafter⟩

theorem SpellsName.head {words : List String} (h : SpellsName words lexemes) :
    ∃ word span more, lexemes = ⟨.name word, span, false⟩ :: more ∧ isReferenceWord word = true := by
  obtain ⟨hword, -⟩ := h
  exact ⟨_, _, _, rfl, hword⟩

/-! ## References -/

/-- `<A, B>` behind a name. -/
theorem typeArguments_runs {sites : List (Site TypeNode)} {left right previous : Span}
    {rest : List Lexeme} {frame : Frame}
    (hparts : Separated "," (ReadAs source) sites lexemes) (hframe : frame.Typed source)
    (hbound : (lexemes ++ .ofSign ">" right :: rest).length ≤ bound) :
    Runs (Grammar.ofFuel (bound + 8)).typeArguments
      ⟨.ofSign "<" left :: (lexemes ++ .ofSign ">" right :: rest), previous, frame⟩ False
      fun types after => List.Forall₂ (Lowers source) types sites ∧
        ∃ last, after = ⟨rest, last, frame⟩ := by
  have hinner : frame.ofType.Typed source := hframe.ofType
  refine .bind <| inType_runs <| forgettingBrackets_runs ?_
  refine (notAt hinner.clear (by rfl)).no ?_
  refine (expect_reads hinner.clear (by rfl)).step ?_
  have hgives : Separated "," (fun site ls => BeginsOutside [">"] ls ∧
      Gives source (Grammar.ofFuel (bound + 8)).type [",", ">"] bound (Lowers source) site ls)
      sites lexemes :=
    hparts.mono fun site ls h => ⟨h.spelled.begins.mono (by decide),
      (h.whole bound).mono_ends (by decide)⟩
  refine (commaList_runs hinner (by decide) hgives hbound).mono ?_
  rintro types after ⟨htypes, last, rfl⟩
  refine (operandAllowed_reads false).step ?_
  exact (expect_reads hframe.clear (by rfl)).step <| .pure ⟨htypes, _, rfl⟩

/-- The arguments behind a name: none, or some between angles. -/
inductive SpellsArguments (source : List Char) : List (Site TypeNode) → List Lexeme → Prop
  | none : SpellsArguments source [] []
  | some {sites lexemes left right} : Separated "," (ReadAs source) sites lexemes →
      SpellsArguments source sites (.ofSign "<" left :: (lexemes ++ [.ofSign ">" right]))

/-- What begins a reference is none of the types that have words of their own. -/
theorem ofText?_of_isReferenceWord {word : String} (h : isReferenceWord word = true) :
    Keyword.ofText? word = none := by
  refine List.find?_eq_none.mpr fun keyword hmem => ?_
  rw [beq_iff_eq]
  rintro rfl
  have hword : keyword.text ∈ typeWords := List.mem_append_right _ (List.mem_map_of_mem hmem)
  simp [isReferenceWord, hword] at h

/-- A name with its arguments is read as a reference. -/
theorem typeReference_gives {words : List String} {sites : List (Site TypeNode)}
    {name inner : List Lexeme} (hname : SpellsName words name)
    (harguments : SpellsArguments source sites inner) (hchain : Chain front sites behind)
    (start : Nat) :
    Gives source ((Grammar.ofFuel (bound + 7)).typeReference start) primaryEnds bound
      (Lowers source) ⟨.reference (".".intercalate words) (sites.map (·.item)), front, behind⟩
      (name ++ inner) := by
  intro rest previous frame hframe hrest hbound
  rw [List.append_assoc] at hbound ⊢
  have hbehind : Follows nameEnds (inner ++ rest) := by
    cases harguments with
    | none => exact hrest.mono fun _ => List.mem_cons_of_mem _
    | some _ => exact .sign (by decide) _ _
  have hentity := entityName_gives hname _ previous frame hframe hbehind hbound
  obtain ⟨word, span, more, rfl, hword⟩ := hname.head
  rw [List.cons_append] at hentity hbound ⊢
  refine (eatParameterModifier_reads hframe.clear (name_any_spells_eq_false hword (by decide +kernel))).step ?_
  refine .bind <| hentity.mono ?_
  rintro parts after ⟨rfl, last, rfl⟩
  have hlowers {types : List TypeSyntax} (span : Span)
      (h : List.Forall₂ (Lowers source) types sites) :
      Lowers source (.reference span parts types)
        ⟨.reference (".".intercalate parts) (sites.map (·.item)), front, behind⟩ := by
    rw [Lowers, Reading.typeNode, run_bind_eq (typeNodes_eq_ok h hchain)]
    rfl
  cases harguments with
  | none =>
    have hangles : ["<", "<<"].any (View.spells ⟨rest, last, frame⟩) = false :=
      hrest.any_spells_eq_false (by decide) last frame
    obtain ⟨text, -, stop, later, rfl⟩ := hrest
    refine (afterBreak_reads hframe.clear).step ?_
    refine (notAtAny hframe.clear (by exact hangles)).step ?_
    rw [if_neg (by simp)]
    refine .bind <| .pure ?_
    exact (spanFrom_reads start).step <| .pure ⟨hlowers _ .nil, last, rfl⟩
  | @some _ arguments left right hparts =>
    rw [List.cons_append, List.append_assoc] at hbound ⊢
    refine (afterBreak_reads hframe.clear).step ?_
    refine (isAtAny hframe.clear (by rfl)).step ?_
    -- the arguments are read with one unit of fuel less, behind the name and the angle
    have hbehindName : (.ofSign "<" left :: (arguments ++ .ofSign ">" right :: rest)).length ≤
        bound := by
      simp at hbound ⊢
      omega
    obtain ⟨n, rfl, hinner⟩ := exists_fuel hbehindName
    refine .bind <| (typeArguments_runs hparts hframe hinner).mono ?_
    rintro types after ⟨htypes, last, rfl⟩
    exact (spanFrom_reads start).step <| .pure ⟨hlowers _ htypes, last, rfl⟩

theorem primaryType_reference {words : List String} {sites : List (Site TypeNode)}
    {name inner : List Lexeme} (hname : SpellsName words name)
    (harguments : SpellsArguments source sites inner) (hchain : Chain front sites behind) :
    Gives source (Grammar.ofFuel (bound + 7)).primaryType primaryEnds bound (Lowers source)
      ⟨.reference (".".intercalate words) (sites.map (·.item)), front, behind⟩ (name ++ inner) := by
  intro rest previous frame hframe hrest hbound
  have hreference (start : Nat) :=
    typeReference_gives hname harguments hchain start rest previous frame hframe hrest hbound
  obtain ⟨word, span, more, rfl, hword⟩ := hname.head
  have hasserts : (Token.name word).spells "asserts" = false :=
    name_spells_eq_false hword (by decide +kernel)
  have hintrinsic : word ≠ "intrinsic" := by
    rintro rfl
    exact absurd hword (by decide +kernel)
  refine (position_reads hframe.clear).step ?_
  refine (needToken_reads hframe.clear).step ?_
  refine (notAt hframe.clear (by exact hasserts)).and_no.no ?_
  have hbehind : more ++ inner ++ rest ≠ [] := List.append_ne_nil_of_right_ne_nil _ hrest.ne_nil
  refine (ahead?_reads hframe.clear (hframe.clear hbehind)).step ?_
  simp only [ofText?_of_isReferenceWord hword, if_neg hintrinsic, ite_self]
  exact hreference _

/-! ## Brackets -/

/-- What a type is that begins with a bracket: the last that `markedType` tries. -/
def Grammar.bracketedType (g : Grammar) (start : Nat) : Parser TypeSyntax := do
  if ← at? leftBrace then
    if ← lookAhead Grammar.startsMapped then g.mappedType start
    else
      let members ← g.members
      return .literal (← spanFrom start) members
  else if ← at? "[" then g.tupleType start
  else if ← eat "(" then
    let inner ← g.type
    expect ")"
    return .parenthesized (← spanFrom start) inner
  else unexpected Grammar.typeOptions

theorem primaryType_of_bracket {opening : String} {span previous : Span} {rest : List Lexeme}
    {frame : Frame} {post : TypeSyntax → View → Prop} (hframe : frame.Typed source)
    (hopening : opening ∈ [leftBrace, "[", "("])
    (h : Runs (g.bracketedType span.start) ⟨.ofSign opening span :: rest, previous, frame⟩ False
      post) : Runs g.primaryType ⟨.ofSign opening span :: rest, previous, frame⟩ False post := by
  have hnot {text : String} (htext : [leftBrace, "[", "("].contains text = false) :
      View.spells ⟨.ofSign opening span :: rest, previous, frame⟩ text = false :=
    (Follows.sign hopening span rest).spells_eq_false htext previous frame
  refine (position_reads hframe.clear).step <| (needToken_reads hframe.clear).step ?_
  show Runs (g.markedType span.start) _ _ _
  refine (notAt hframe.clear (hnot (by decide))).no ?_
  refine (eat_no hframe.clear (hnot (by decide))).no ?_
  refine (notAt hframe.clear (hnot (by decide))).no ?_
  refine (eat_no hframe.clear (hnot (by decide))).no ?_
  exact (notAt hframe.clear (hnot (by decide))).no h

theorem primaryType_parenthesized {left right : Span}
    (h : ReadAs source ⟨node, front, behind⟩ lexemes) :
    Gives source (Grammar.ofFuel (bound + 7)).primaryType primaryEnds bound (Lowers source)
      ⟨.parenthesized node, front, behind⟩
      (.ofSign "(" left :: (lexemes ++ [.ofSign ")" right])) := by
  intro rest previous frame hframe hrest hbound
  rw [List.cons_append, List.append_assoc] at hbound ⊢
  obtain ⟨n, rfl, hlength⟩ := exists_fuel hbound
  have hinner := h.whole n (.ofSign ")" right :: rest) left frame hframe (.sign (by decide) _ _)
    hlength
  refine primaryType_of_bracket hframe (by decide) ?_
  refine (notAt hframe.clear (by rfl)).no ?_
  refine (notAt hframe.clear (by rfl)).no ?_
  refine (eat_yes hframe.clear (by rfl)).yes ?_
  refine .bind <| hinner.mono ?_
  rintro type after ⟨htype, last, rfl⟩
  refine (expect_reads hframe.clear (by rfl)).step ?_
  refine (spanFrom_reads _).step <| .pure ⟨?_, _, rfl⟩
  rw [Lowers, Reading.typeNode, run_bind_eq htype]
  rfl

/-! ## Tuples -/

/-- An element as it was read stands for an element of the tree. -/
inductive LowersElement (source : List Char) : TupleElementSyntax → Site TupleElement → Prop
  | plain {span type node front behind} : Lowers source type ⟨node, front, behind⟩ →
      LowersElement source (.mk span false .plain type) ⟨⟨node, false, false⟩, front, behind⟩
  | optional {span type node front behind} : Lowers source type ⟨node, front, behind⟩ →
      LowersElement source (.mk span false .optional type) ⟨⟨node, true, false⟩, front, behind⟩
  | rest {span type node front behind} : Lowers source type ⟨node, front, behind⟩ →
      LowersElement source (.mk span false .rest type) ⟨⟨node, false, true⟩, front, behind⟩

theorem tupleElements_eq_ok {items : List TupleElementSyntax} {sites : List (Site TupleElement)}
    (h : List.Forall₂ (LowersElement source) items sites) (hchain : Chain front sites behind) :
    (Reading.tupleElements source items).run front = .ok (sites.map (·.item), behind) := by
  induction h generalizing front with
  | nil =>
    cases hchain
    rfl
  | cons hfirst _ ih =>
    cases hchain with
    | cons hchain =>
      cases hfirst
      all_goals
        rename_i htype
        rw [Reading.tupleElements]
        simp only [Bool.false_eq_true, if_false]
        rw [run_bind_eq htype, run_bind_eq (ih hchain)]
        rfl

theorem requiredAfterOptional_eq {items : List TupleElementSyntax} {sites : List (Site TupleElement)}
    (h : List.Forall₂ (LowersElement source) items sites) :
    Grammar.requiredAfterOptional items = requiredAfterOptional (sites.map (·.item)) := by
  -- the parser asks an element for its form and the tree for two flags: on what an element is read as
  -- they agree
  have hany {items : List TupleElementSyntax} {sites : List (Site TupleElement)}
      {isRequired : TupleElementSyntax → Bool}
      (hform : ∀ span labelled form type,
        isRequired (.mk span labelled form type) = decide (form = .plain))
      (h : List.Forall₂ (LowersElement source) items sites) :
      items.any isRequired =
        (sites.map (·.item)).any fun later => !later.optional && !later.rest := by
    induction h with
    | nil => rfl
    | cons hfirst _ ih =>
      rw [List.any_cons, List.map_cons, List.any_cons, ih]
      cases hfirst <;> rw [hform] <;> rfl
  induction h with
  | nil => rfl
  | cons hfirst hothers ih =>
    cases hfirst with
    | optional _ => exact hany (fun _ _ form _ => by cases form <;> rfl) hothers
    | plain _ => exact ih
    | rest _ => exact ih

/-- An element of a tuple that is read as itself. -/
structure ReadsElement (source : List Char) (site : Site TupleElement) (lexemes : List Lexeme) :
    Prop where
  spelled : Spells source (.element site.item) site.front site.behind lexemes
  gives : ∀ bound, Gives source (Grammar.ofFuel (bound + 8)).tupleElement [",", "]"] bound
    (LowersElement source) site lexemes

/-- What follows an element, or the question mark that belongs to it. -/
inductive EndsElement : List Lexeme → Prop
  | plain {rest} : Follows [",", "]"] rest → EndsElement rest
  | optional {mark rest} : Follows [",", "]"] rest → EndsElement (.ofSign "?" mark :: rest)

/-- The label of an element, if it has one. -/
def Grammar.tupleLabel : Parser (Option Unit) := do
  let _ ← eat "..."
  let _ ← word
  let _ ← eat "?"
  expect ":"
  return some ()

theorem Grammar.tupleElement_eq (g : Grammar) :
    g.tupleElement = (do
      let start ← position
      let label ← attempt tupleLabel
      if ← eat "..." then
        let type ← g.type
        return .mk (← spanFrom start) label.isSome .rest type
      let type ← g.type
      let form : TupleForm := if ← eat "?" then .optional else .plain
      return .mk (← spanFrom start) label.isSome form type) := rfl

/-- No element of a spelled type begins with a label, dots or none in front of it. -/
theorem label_runs {rest : List Lexeme} {previous : Span} {frame : Frame}
    (h : Spells source (.type node) front behind lexemes) (hframe : frame.Typed source)
    (hrest : EndsElement rest) :
    Runs (do
        let _ ← word
        let _ ← eat "?"
        expect ":"
        return some ()) ⟨lexemes ++ rest, previous, frame⟩ True fun value _ => value = none := by
  obtain ⟨first, more, heq, hfirst⟩ := h.goesOn rest
  rw [heq]
  have hcolon {signs : List String} {rest : List Lexeme} {previous : Span}
      (hrest : Follows signs rest) (hsigns : signs.contains ":" = false) :
      Runs (expect ":" >>= fun _ => pure (some ())) ⟨rest, previous, frame⟩ True
        fun value _ => value = none := by
    have hno := hrest.spells_eq_false hsigns previous frame
    obtain ⟨text, -, span, later, rfl⟩ := hrest
    exact .bind (expect_fails hframe.clear hno)
  -- a label is a word in front of a colon, and behind the first word of a type stands none
  cases hword : first.token.word? with
  | none => exact .bind (word_fails hframe.clear hword)
  | some text =>
    refine (word_reads hframe.clear hword).step ?_
    rcases hfirst with hnone | rfl | hfollows
    · rw [hnone] at hword
      cases hword
    · cases hrest with
      | plain hrest =>
        exact (eat_no (hframe.clear hrest.ne_nil) (hrest.spells_eq_false (by decide) _ _)).step
          (hcolon hrest (by decide))
      | optional hrest => exact (eat_yes hframe.clear (by rfl)).step (hcolon hrest (by decide))
    · exact (eat_no (hframe.clear hfollows.ne_nil)
        (hfollows.spells_eq_false (by decide) _ _)).step (hcolon hfollows (by decide))

namespace ReadsElement

theorem plain (h : ReadAs source ⟨node, front, behind⟩ lexemes) :
    ReadsElement source ⟨⟨node, false, false⟩, front, behind⟩ lexemes where
  spelled := .plainElement h.spelled
  gives bound rest previous frame hframe hrest hbound := by
    have hno (frame : Frame) : View.spells ⟨lexemes ++ rest, previous, frame⟩ "..." = false :=
      h.spelled.begins.spells_eq_false (by decide) rest previous frame
    have hne : lexemes ++ rest ≠ [] := h.spelled.begins.append_ne_nil rest
    have hlabel : Reads (attempt Grammar.tupleLabel) ⟨lexemes ++ rest, previous, frame⟩ none
        ⟨lexemes ++ rest, previous, frame⟩ :=
      attempt_none <| (eat_no (hframe.trying.clear hne) (hno frame.trying)).step
        (label_runs h.spelled hframe.trying (.plain hrest))
    obtain ⟨start, hstart⟩ := h.spelled.begins.position_reads _ previous hframe
    rw [Grammar.tupleElement_eq]
    refine hstart.step <| hlabel.step ?_
    refine (eat_no (hframe.clear hne) (hno frame)).no ?_
    refine .bind <| (h.whole bound rest previous frame hframe (hrest.mono (by decide))
      hbound).mono ?_
    rintro type after ⟨htype, last, rfl⟩
    refine (eat_no (hframe.clear hrest.ne_nil) (hrest.spells_eq_false (by decide) _ _)).step ?_
    exact (spanFrom_reads _).step <| .pure ⟨.plain htype, last, rfl⟩

theorem optional {mark : Span} (hnode : node.isCompound = false)
    (h : ReadAs source ⟨node, front, behind⟩ lexemes) :
    ReadsElement source ⟨⟨node, true, false⟩, front, behind⟩
      (lexemes ++ [.ofSign "?" mark]) where
  spelled := .optionalElement hnode h.spelled
  gives bound rest previous frame hframe hrest hbound := by
    rw [List.append_assoc, List.singleton_append] at hbound ⊢
    have hno (frame : Frame) :
        View.spells ⟨lexemes ++ .ofSign "?" mark :: rest, previous, frame⟩ "..." = false :=
      h.spelled.begins.spells_eq_false (by decide) _ previous frame
    have hlabel : Reads (attempt Grammar.tupleLabel)
        ⟨lexemes ++ .ofSign "?" mark :: rest, previous, frame⟩ none
        ⟨lexemes ++ .ofSign "?" mark :: rest, previous, frame⟩ :=
      attempt_none <| (eat_no hframe.trying.clear (hno frame.trying)).step
        (label_runs h.spelled hframe.trying (.optional hrest))
    obtain ⟨start, hstart⟩ := h.spelled.begins.position_reads _ previous hframe
    rw [Grammar.tupleElement_eq]
    refine hstart.step <| hlabel.step ?_
    refine (eat_no hframe.clear (hno frame)).no ?_
    refine .bind <| (h.whole bound _ previous frame hframe (.sign (by decide) _ _) hbound).mono ?_
    rintro type after ⟨htype, last, rfl⟩
    refine (eat_yes hframe.clear (by rfl)).step ?_
    exact (spanFrom_reads _).step <| .pure ⟨.optional htype, mark, rfl⟩

theorem rest {dots : Span} (h : ReadAs source ⟨node, front, behind⟩ lexemes) :
    ReadsElement source ⟨⟨node, false, true⟩, front, behind⟩ (.ofSign "..." dots :: lexemes) where
  spelled := .restElement h.spelled
  gives bound rest previous frame hframe hrest hbound := by
    rw [List.cons_append] at hbound ⊢
    have hlabel : Reads (attempt Grammar.tupleLabel)
        ⟨.ofSign "..." dots :: (lexemes ++ rest), previous, frame⟩ none
        ⟨.ofSign "..." dots :: (lexemes ++ rest), previous, frame⟩ :=
      attempt_none <| (eat_yes hframe.trying.clear (by rfl)).step
        (label_runs h.spelled hframe.trying (.plain hrest))
    rw [Grammar.tupleElement_eq]
    refine (position_reads hframe.clear).step <| hlabel.step ?_
    refine (eat_yes hframe.clear (by rfl)).yes ?_
    refine .bind <| (h.whole bound rest dots frame hframe (hrest.mono (by decide))
      (by simp at hbound ⊢; omega)).mono ?_
    rintro type after ⟨htype, last, rfl⟩
    exact (spanFrom_reads _).step <| .pure ⟨.rest htype, last, rfl⟩

end ReadsElement

theorem primaryType_tuple {elements : List TupleElement} {left right : Span}
    (hoptional : requiredAfterOptional elements = false)
    (hparts : Strung "," (ReadsElement source) elements front behind lexemes) :
    Gives source (Grammar.ofFuel (bound + 7)).primaryType primaryEnds bound (Lowers source)
      ⟨.tuple elements, front, behind⟩
      (.ofSign "[" left :: (lexemes ++ [.ofSign "]" right])) := by
  intro rest previous frame hframe hrest hbound
  obtain ⟨sites, hchain, rfl, hparts⟩ := hparts
  rw [List.cons_append, List.append_assoc] at hbound ⊢
  obtain ⟨n, rfl, hinner⟩ := exists_fuel hbound
  have hgives : Separated "," (fun site ls => BeginsOutside ["]"] ls ∧
      Gives source (Grammar.ofFuel (n + 8)).tupleElement [",", "]"] n (LowersElement source)
        site ls) sites lexemes := hparts.mono fun _ _ h => ⟨h.spelled.begins, h.gives n⟩
  refine primaryType_of_bracket hframe (by decide) ?_
  refine (notAt hframe.clear (by rfl)).no ?_
  refine (isAt hframe.clear (by rfl)).yes ?_
  refine (expect_reads hframe.clear (by rfl)).step ?_
  refine .bind <| (commaList_runs hframe (by decide) hgives hinner).mono ?_
  rintro items after ⟨hitems, last, rfl⟩
  refine (expect_reads hframe.clear (by rfl)).step ?_
  rw [requiredAfterOptional_eq hitems, hoptional]
  refine (spanFrom_reads _).step <| .pure ⟨?_, _, rfl⟩
  rw [Lowers, Reading.typeNode, run_bind_eq (tupleElements_eq_ok hitems hchain)]
  rfl

theorem primaryType_emptyTuple {bound : Nat} {left right : Span} :
    Gives source (Grammar.ofFuel (bound + 7)).primaryType primaryEnds bound (Lowers source)
      ⟨.tuple [], front, front⟩ [.ofSign "[" left, .ofSign "]" right] := by
  intro rest previous frame hframe hrest hbound
  refine primaryType_of_bracket hframe (by decide) ?_
  refine (notAt hframe.clear (by rfl)).no ?_
  refine (isAt hframe.clear (by rfl)).yes ?_
  refine (expect_reads hframe.clear (by rfl)).step ?_
  have hempty : Reads (commaList (at? "]") (Grammar.ofFuel (bound + 7)).tupleElement)
      ⟨.ofSign "]" right :: rest, left, frame⟩ [] ⟨.ofSign "]" right :: rest, left, frame⟩ := by
    rw [commaList, listUpTo_eq]
    refine .bind <| iterate_runs fun limit _ => ?_
    exact iterateUpTo_stop (by omega) ((isAt hframe.clear (by rfl)).yes .done) .done
  refine hempty.step <| (expect_reads hframe.clear (by rfl)).step ?_
  exact (spanFrom_reads _).step <| .pure ⟨rfl, right, rfl⟩

end Declutter.Syntax
