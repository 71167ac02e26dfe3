import Declutter.Proofs.RoundTrip.Running
import Declutter.Proofs.RoundTrip.Spelling
import Mathlib.Data.List.Forall2

/-!
# Sequences of parts

How lists are read whose parts are known to be readable: with commas between the parts up to a
closing sign, with the sign of a union or intersection between them, or one behind the other. A part
is readable in front of the signs that can follow it: `Follows`.
-/

namespace Declutter.Syntax

/-- A frame inside of a type of a source. -/
structure Frame.Typed (frame : Frame) (source : List Char) : Prop where
  source : frame.source = source
  singleAngles : frame.singleAngles = true
  inDeclare : frame.context.inDeclare = false

theorem Frame.Typed.clear {frame : Frame} {source : List Char} (h : frame.Typed source)
    {rest : List Lexeme} {previous : Span} (hne : rest ≠ [] := by simp) :
    View.Clear ⟨rest, previous, frame⟩ := ⟨hne, .inl h.singleAngles⟩

theorem Frame.Typed.trying {frame : Frame} {source : List Char} (h : frame.Typed source) :
    frame.trying.Typed source := ⟨h.source, h.singleAngles, h.inDeclare⟩

/-- The frame that a type in a frame is read in. -/
def Frame.ofType (frame : Frame) : Frame :=
  { frame with context := { frame.context with inType := true, inTypedOperand := false } }

theorem Frame.typed_ofType {frame : Frame} {source : List Char} (hsource : frame.source = source)
    (hdeclare : frame.context.inDeclare = false) : frame.ofType.Typed source :=
  ⟨hsource, rfl, hdeclare⟩

theorem Frame.Typed.ofType {frame : Frame} {source : List Char} (h : frame.Typed source) :
    frame.ofType.Typed source := typed_ofType h.source h.inDeclare

theorem Parser.inType_runs {α : Type} {parser : Parser α} {rest : List Lexeme} {previous : Span}
    {frame : Frame} {fails : Prop} {post : α → View → Prop}
    (h : Runs parser ⟨rest, previous, frame.ofType⟩ fails fun value after =>
      post value (after.inContext frame.context)) :
    Runs (inType parser) ⟨rest, previous, frame⟩ fails post := within_runs h

/-- The frame of what is read as if no colon had to follow. -/
def Frame.awaitingNoColon (frame : Frame) : Frame :=
  { frame with context := { frame.context with awaitsColon := false } }

theorem Frame.Typed.awaitingNoColon {frame : Frame} {source : List Char} (h : frame.Typed source) :
    frame.awaitingNoColon.Typed source := ⟨h.source, h.singleAngles, h.inDeclare⟩

theorem Parser.awaitingNoColon_runs {α : Type} {parser : Parser α} {rest : List Lexeme}
    {previous : Span} {frame : Frame} {fails : Prop} {post : α → View → Prop}
    (h : Runs parser ⟨rest, previous, frame.awaitingNoColon⟩ fails fun value after =>
      post value (after.inContext frame.context)) :
    Runs (awaitingNoColon parser) ⟨rest, previous, frame⟩ fails post := within_runs h

/-- The next lexeme is one of these signs, in the line of what is in front of it. -/
def Follows (signs : List String) (rest : List Lexeme) : Prop :=
  ∃ text ∈ signs, ∃ span more, rest = .ofSign text span :: more

namespace Follows

variable {signs : List String} {rest : List Lexeme}

theorem sign {text : String} (h : text ∈ signs) (span : Span) (more : List Lexeme) :
    Follows signs (.ofSign text span :: more) := ⟨text, h, span, more, rfl⟩

theorem ne_nil (h : Follows signs rest) : rest ≠ [] := by
  obtain ⟨text, -, span, more, rfl⟩ := h
  simp

theorem mono {more : List String} (h : Follows signs rest) (hsigns : ∀ text ∈ signs, text ∈ more) :
    Follows more rest := by
  obtain ⟨text, htext, span, behind, rfl⟩ := h
  exact sign (hsigns text htext) span behind

/-- What is no sign that can follow does not follow. -/
theorem spells_eq_false (h : Follows signs rest) {text : String} (htext : signs.contains text = false)
    (previous : Span) (frame : Frame) : View.spells ⟨rest, previous, frame⟩ text = false := by
  obtain ⟨sign, hsign, span, more, rfl⟩ := h
  have hne : sign ≠ text := by
    rintro rfl
    rw [List.contains_iff_mem.mpr hsign] at htext
    cases htext
  exact decide_eq_false hne

theorem any_spells_eq_false (h : Follows signs rest) {texts : List String}
    (htexts : texts.all (fun text => !signs.contains text) = true) (previous : Span)
    (frame : Frame) : texts.any (View.spells ⟨rest, previous, frame⟩) = false := by
  rw [List.any_eq_false]
  intro text hmem
  have htext := List.all_eq_true.mp htexts text hmem
  rw [Bool.not_eq_true'] at htext
  simp [h.spells_eq_false htext previous frame]

end Follows

/-- Parts with a sign between each two. -/
inductive Separated {β : Type} (sign : String) (part : β → List Lexeme → Prop) :
    List β → List Lexeme → Prop
  | single {x lexemes} : part x lexemes → Separated sign part [x] lexemes
  | cons {x xs lexemes span more} : part x lexemes → Separated sign part xs more →
      Separated sign part (x :: xs) (lexemes ++ .ofSign sign span :: more)

namespace Separated

variable {β : Type} {sign : String} {part part' : β → List Lexeme → Prop} {xs : List β}
  {lexemes : List Lexeme}

theorem mono_of_mem (h : Separated sign part xs lexemes)
    (himp : ∀ x lexemes, x ∈ xs → part x lexemes → part' x lexemes) :
    Separated sign part' xs lexemes := by
  induction h with
  | single h => exact .single (himp _ _ List.mem_cons_self h)
  | cons h _ ih =>
    exact .cons (himp _ _ List.mem_cons_self h)
      (ih fun x lexemes hmem => himp x lexemes (List.mem_cons_of_mem _ hmem))

theorem mono (h : Separated sign part xs lexemes)
    (himp : ∀ x lexemes, part x lexemes → part' x lexemes) : Separated sign part' xs lexemes :=
  h.mono_of_mem fun x lexemes _ => himp x lexemes

end Separated

namespace Parser

variable {α β : Type} {source : List Char}

/-! ## Commas -/

/-- What `listUpTo` repeats. -/
def listStep (closed : Parser Bool) (missing : Parser Unit) (item : Parser α) :
    List α × Bool → Parser (Option (List α × Bool))
  | (items, isDone) => do
    if isDone then return none
    if ← closed then return none
    let items := (← item) :: items
    if ← eat "," then return some (items, false)
    if ← closed then return some (items, true)
    missing
    return some (items, false)

theorem listUpTo_eq (closed : Parser Bool) (missing : Parser Unit) (item : Parser α) :
    listUpTo closed missing item = do
      let (items, _) ← iterate (listStep closed missing item) ([], false)
      return items.reverse := rfl

/-- What a parser gives for a part of a type, wherever the part stands in a source, in front of signs
that can follow it and with no more than so many lexemes to come. -/
def Gives (source : List Char) (parser : Parser α) (ends : List String) (bound : Nat)
    (gives : α → β → Prop) (part : β) (lexemes : List Lexeme) : Prop :=
  ∀ rest previous (frame : Frame), frame.Typed source → Follows ends rest →
    (lexemes ++ rest).length ≤ bound →
      Runs parser ⟨lexemes ++ rest, previous, frame⟩ False fun value after =>
        gives value part ∧ ∃ last, after = ⟨rest, last, frame⟩

theorem Gives.mono_ends {parser : Parser α} {ends fewer : List String}
    {bound : Nat} {gives : α → β → Prop} {part : β} {lexemes : List Lexeme}
    (h : Gives source parser ends bound gives part lexemes)
    (hends : ∀ text ∈ fewer, text ∈ ends) : Gives source parser fewer bound gives part lexemes :=
  fun rest previous frame hframe hrest => h rest previous frame hframe (hrest.mono hends)

/-- A lexeme that is passed by makes up for a unit of fuel. -/
theorem exists_fuel {lexeme : Lexeme} {inner : List Lexeme} {bound : Nat}
    (h : (lexeme :: inner).length ≤ bound) : ∃ n, bound = n + 1 ∧ inner.length ≤ n := by
  rw [List.length_cons] at h
  exact ⟨bound - 1, by omega, by omega⟩

/-- The first lexeme of a part is none of these words and signs. -/
def BeginsOutside (texts : List String) (lexemes : List Lexeme) : Prop :=
  ∃ first more, lexemes = first :: more ∧ ∀ text ∈ texts, first.token.spells text = false

theorem BeginsOutside.append_ne_nil {texts : List String} {lexemes : List Lexeme}
    (h : BeginsOutside texts lexemes) (rest : List Lexeme) : lexemes ++ rest ≠ [] := by
  obtain ⟨first, more, rfl, -⟩ := h
  simp

theorem BeginsOutside.spells_eq_false {texts : List String} {lexemes : List Lexeme}
    (h : BeginsOutside texts lexemes) {text : String} (htext : text ∈ texts) (rest : List Lexeme)
    (previous : Span) (frame : Frame) :
    View.spells ⟨lexemes ++ rest, previous, frame⟩ text = false := by
  obtain ⟨first, more, rfl, hfirst⟩ := h
  exact hfirst text htext

theorem BeginsOutside.position_reads {texts : List String} {lexemes : List Lexeme}
    (h : BeginsOutside texts lexemes) (rest : List Lexeme) (previous : Span) {frame : Frame}
    (hframe : frame.Typed source) : ∃ start, Reads position ⟨lexemes ++ rest, previous, frame⟩ start
      ⟨lexemes ++ rest, previous, frame⟩ := by
  obtain ⟨first, more, rfl, -⟩ := h
  exact ⟨_, Parser.position_reads hframe.clear⟩

theorem BeginsOutside.mono {texts some : List String} {lexemes : List Lexeme}
    (h : BeginsOutside texts lexemes) (hsome : ∀ text ∈ some, text ∈ texts) :
    BeginsOutside some lexemes := by
  obtain ⟨first, more, rfl, hfirst⟩ := h
  exact ⟨first, more, rfl, fun text hmem => hfirst text (hsome text hmem)⟩

theorem BeginsOutside.any_spells_eq_false {texts some : List String} {lexemes : List Lexeme}
    (h : BeginsOutside texts lexemes) (hsome : ∀ text ∈ some, text ∈ texts) (rest : List Lexeme)
    (previous : Span) (frame : Frame) :
    some.any (View.spells ⟨lexemes ++ rest, previous, frame⟩) = false :=
  List.any_eq_false.mpr fun text htext =>
    Bool.eq_false_iff.mp (h.spells_eq_false (hsome text htext) rest previous frame)

theorem BeginsOutside.append {texts : List String} {lexemes : List Lexeme}
    (h : BeginsOutside texts lexemes) (more : List Lexeme) :
    BeginsOutside texts (lexemes ++ more) := by
  obtain ⟨first, later, rfl, hfirst⟩ := h
  exact ⟨first, later ++ more, rfl, hfirst⟩

variable {bound : Nat} {gives : α → β → Prop}

/-- One more item of a list is read, and the comma behind it if there is one. -/
theorem listStep_runs {item : Parser α} {close sign : String} {x : β} {lexemes later : List Lexeme}
    {span : Span} {frame : Frame} (previous : Span) (read : List α) (hframe : frame.Typed source)
    (hsign : sign ∈ [",", close]) (hclose : close ≠ ",") (hbegins : BeginsOutside [close] lexemes)
    (hgives : Gives source item [",", close] bound gives x lexemes)
    (hbound : (lexemes ++ .ofSign sign span :: later).length ≤ bound) :
    Runs (listStep (at? close) (expect ",") item (read, false))
      ⟨lexemes ++ .ofSign sign span :: later, previous, frame⟩ False fun next after =>
        ∃ value last, gives value x ∧ next = some (value :: read, decide (sign = close)) ∧
          after = if sign = "," then ⟨later, span, frame⟩
            else ⟨.ofSign sign span :: later, last, frame⟩ := by
  refine (notAt hframe.clear (hbegins.spells_eq_false (by simp) _ _ _)).no ?_
  refine .bind <| (hgives _ previous frame hframe (.sign hsign _ _) hbound).mono ?_
  rintro value after ⟨hvalue, last, rfl⟩
  obtain rfl | rfl : sign = "," ∨ sign = close := by simpa using hsign
  · refine (eat_yes hframe.clear rfl).yes <| .pure ⟨value, last, hvalue, ?_, rfl⟩
    rw [decide_eq_false (Ne.symm hclose)]
  · have hself : (Token.sign sign).spells sign = true := decide_eq_true rfl
    have hcomma : (Token.sign sign).spells "," = false := decide_eq_false hclose
    refine (eat_no hframe.clear (by exact hcomma)).no <|
      (isAt hframe.clear (by exact hself)).yes <| .pure ⟨value, last, hvalue, by simp, ?_⟩
    rw [if_neg hclose]

/-- A list with commas is read up to its closing sign. -/
theorem commaList_runs {item : Parser α} {close : String} {xs : List β} {lexemes : List Lexeme}
    {stop : Span} {more : List Lexeme} {previous : Span} {frame : Frame}
    (hframe : frame.Typed source) (hclose : close ≠ ",")
    (hparts : Separated "," (fun x ls => BeginsOutside [close] ls ∧
      Gives source item [",", close] bound gives x ls) xs lexemes)
    (hbound : (lexemes ++ .ofSign close stop :: more).length ≤ bound) :
    Runs (commaList (at? close) item) ⟨lexemes ++ .ofSign close stop :: more, previous, frame⟩ False
      fun values after => List.Forall₂ gives values xs ∧
        ∃ last, after = ⟨.ofSign close stop :: more, last, frame⟩ := by
  -- along the parts: what was read before stands in front, in reverse, and each turn of the loop
  -- passes by a lexeme, of which there are fewer than turns
  have hloop : ∀ previous limit read, (lexemes ++ .ofSign close stop :: more).length + 2 ≤ limit →
      Runs (iterateUpTo (listStep (at? close) (expect ",") item) limit (read, false))
        ⟨lexemes ++ .ofSign close stop :: more, previous, frame⟩ False
        fun result after => ∃ values, List.Forall₂ gives values xs ∧
          result.1 = values.reverse ++ read ∧
          ∃ last, after = ⟨.ofSign close stop :: more, last, frame⟩ := by
    induction hparts with
    | @single x ls hpart =>
      intro previous limit read hlimit
      have hstep := listStep_runs previous read hframe (by simp) hclose hpart.1 hpart.2 hbound
      refine iterateUpTo_runs (by omega) <| hstep.mono ?_
      rintro _ _ ⟨value, last, hvalue, rfl, rfl⟩
      refine ⟨fun hnone => (Option.some_ne_none _ hnone).elim, ?_⟩
      rintro _ ⟨⟩
      rw [decide_eq_true rfl, if_neg hclose]
      have hroom : 0 < limit - 1 := by
        simp only [List.length_append, List.length_cons] at hlimit
        omega
      exact iterateUpTo_stop hroom Runs.done ⟨[value], .cons hvalue .nil, rfl, last, rfl⟩
    | @cons x xs ls span later hpart _ ih =>
      intro previous limit read hlimit
      have hassoc : (ls ++ .ofSign "," span :: later) ++ .ofSign close stop :: more =
          ls ++ .ofSign "," span :: (later ++ .ofSign close stop :: more) := by simp
      rw [hassoc] at hbound hlimit ⊢
      have hstep := listStep_runs previous read hframe (by simp) hclose hpart.1 hpart.2 hbound
      refine iterateUpTo_runs (by omega) <| hstep.mono ?_
      rintro _ _ ⟨value, last, hvalue, rfl, rfl⟩
      refine ⟨fun hnone => (Option.some_ne_none _ hnone).elim, ?_⟩
      rintro _ ⟨⟩
      rw [decide_eq_false (Ne.symm hclose), if_pos rfl]
      simp only [List.length_append, List.length_cons] at hbound hlimit
      refine (ih (by simp; omega) _ (limit - 1) (value :: read) (by simp; omega)).mono ?_
      rintro result after ⟨values, hvalues, hresult, hafter⟩
      exact ⟨value :: values, .cons hvalue hvalues, by simp [hresult], hafter⟩
  rw [commaList, listUpTo_eq]
  refine .bind <| iterate_runs fun limit hlimit => ?_
  refine (hloop previous limit [] hlimit).mono ?_
  rintro ⟨items, _⟩ after ⟨values, hvalues, hitems, hafter⟩
  refine .pure ⟨?_, hafter⟩
  simp only [List.append_nil] at hitems
  rwa [hitems, List.reverse_reverse]

/-! ## Items behind each other -/

/-- What `collect` repeats. -/
def collectStep (item : Parser (Option α)) (items : List α) : Parser (Option (List α)) :=
  return (← item).map (· :: items)

theorem collect_eq (item : Parser (Option α)) :
    collect item = (do return (← iterate (collectStep item) []).reverse) := rfl

/-- Collecting goes on with an item that is given, and ends where none is. -/
theorem iterateUpTo_collect {item : Parser (Option α)} {limit : Nat} {read : List α} {view : View}
    {fails : Prop} {post : List α → View → Prop} (hlimit : 0 < limit)
    (h : Runs item view fails fun next after =>
      (next = none → post read after) ∧ ∀ value, next = some value →
        Runs (iterateUpTo (collectStep item) (limit - 1) (value :: read)) after fails post) :
    Runs (iterateUpTo (collectStep item) limit read) view fails post := by
  refine iterateUpTo_runs hlimit <| .bind <| h.mono ?_
  rintro next after ⟨hnone, hsome⟩
  refine .pure ⟨fun hmap => hnone (Option.map_eq_none_iff.mp hmap), fun given hmap => ?_⟩
  obtain ⟨value, rfl, rfl⟩ := Option.map_eq_some_iff.mp hmap
  exact hsome value rfl

/-- An item with a sign in front of it. -/
def signedItem (sign : String) (item : Parser α) : Parser (Option α) := do
  if ← eat sign then return some (← item)
  return none

/-- Items that a sign is in front of are collected as long as it is. -/
theorem collect_signed_runs {sign : String} {item : Parser α} {ends : List String}
    {xs : List β} {lexemes rest : List Lexeme} {span previous : Span} {frame : Frame}
    (hframe : frame.Typed source) (hsign : ends.contains sign = false)
    (hparts : Separated sign (Gives source item (sign :: ends) bound gives) xs lexemes)
    (hrest : Follows ends rest) (hbound : (lexemes ++ rest).length ≤ bound) :
    Runs (collect (signedItem sign item))
      ⟨.ofSign sign span :: (lexemes ++ rest), previous, frame⟩ False
      fun values after => List.Forall₂ gives values xs ∧ ∃ last, after = ⟨rest, last, frame⟩ := by
  have hself : (Token.sign sign).spells sign = true := decide_eq_true rfl
  -- along the parts: at each turn the loop stands in front of the sign of the next part
  have hloop : ∀ span previous limit read, (lexemes ++ rest).length + 1 < limit →
      Runs (iterateUpTo (collectStep (signedItem sign item)) limit read)
        ⟨.ofSign sign span :: (lexemes ++ rest), previous, frame⟩ False
        fun result after => ∃ values, List.Forall₂ gives values xs ∧
          result = values.reverse ++ read ∧ ∃ last, after = ⟨rest, last, frame⟩ := by
    induction hparts with
    | @single x lexemes hgives =>
      intro span previous limit read hlimit
      refine iterateUpTo_collect (by omega) ?_
      refine (eat_yes hframe.clear (by exact hself)).yes ?_
      refine .bind <| (hgives rest _ frame hframe (hrest.mono fun _ => List.mem_cons_of_mem _)
        hbound).mono ?_
      rintro value after ⟨hvalue, last, rfl⟩
      refine .pure ⟨fun hnone => (Option.some_ne_none _ hnone).elim, ?_⟩
      rintro _ ⟨⟩
      refine iterateUpTo_collect (by omega) ?_
      refine (eat_no (hframe.clear hrest.ne_nil) (hrest.spells_eq_false hsign _ _)).no <| .pure ?_
      exact ⟨fun _ => ⟨[value], .cons hvalue .nil, rfl, last, rfl⟩,
        fun _ hsome => (Option.some_ne_none _ hsome.symm).elim⟩
    | @cons x xs lexemes next later hgives _ ih =>
      intro span previous limit read hlimit
      rw [List.append_assoc, List.cons_append] at hlimit hbound ⊢
      refine iterateUpTo_collect (by omega) ?_
      refine (eat_yes hframe.clear (by exact hself)).yes ?_
      refine .bind <| (hgives _ _ frame hframe (.sign List.mem_cons_self _ _) hbound).mono ?_
      rintro value after ⟨hvalue, last, rfl⟩
      refine .pure ⟨fun hnone => (Option.some_ne_none _ hnone).elim, ?_⟩
      rintro _ ⟨⟩
      simp only [List.length_append, List.length_cons] at hbound hlimit
      refine (ih (by simp; omega) next last (limit - 1) (value :: read) (by simp; omega)).mono ?_
      rintro result after ⟨values, hvalues, hresult, hafter⟩
      exact ⟨value :: values, .cons hvalue hvalues, by simp [hresult], hafter⟩
  rw [collect_eq]
  refine .bind <| iterate_runs fun limit hlimit => ?_
  refine (hloop span previous limit [] (by simp at hlimit ⊢; omega)).mono ?_
  rintro result after ⟨values, hvalues, hresult, hafter⟩
  refine .pure ⟨?_, hafter⟩
  rwa [hresult, List.append_nil, List.reverse_reverse]

end Parser

end Declutter.Syntax
