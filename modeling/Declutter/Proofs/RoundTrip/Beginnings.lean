import Declutter.Proofs.RoundTrip.Sequences

/-!
# How types begin

By its first lexeme a type is told from all that it is not, and behind its first word stands one of a
few signs. So no type of a tree is taken for a function type or for a labelled element.
-/

namespace Declutter.Syntax

open Declutter.Syntax.Parser

variable {source : List Char}

/-! ## Words -/

/-- What cannot begin a reference is not read in front of one. -/
theorem name_spells_eq_false {word text : String} (h : isReferenceWord word = true)
    (htext : isReferenceWord text = false) : (Token.name word).spells text = false := by
  refine decide_eq_false ?_
  rintro rfl
  rw [h] at htext
  cases htext

theorem name_any_spells_eq_false {word : String} {texts : List String} {span previous : Span}
    {afterBreak : Bool} {rest : List Lexeme} {frame : Frame} (h : isReferenceWord word = true)
    (htexts : texts.all (fun text => !isReferenceWord text) = true) :
    texts.any (View.spells ⟨⟨.name word, span, afterBreak⟩ :: rest, previous, frame⟩) = false := by
  refine List.any_eq_false.mpr fun text hmem => Bool.eq_false_iff.mp ?_
  have htext := List.all_eq_true.mp htexts text hmem
  rw [Bool.not_eq_true'] at htext
  exact name_spells_eq_false h htext

/-- No modifier of a parameter is passed by where none stands. -/
theorem eatParameterModifier_reads {view : View} (hclear : view.Clear)
    (h : ["public", "protected", "private", "readonly"].any view.spells = false) :
    Reads eatParameterModifier view false view :=
  (notAtAny hclear h).no .done

/-- The words and signs that begin no type that a tree has a place for. -/
def typeRefused : List String :=
  ["keyof", "unique", "readonly", "public", "protected", "private", "infer", "<", "abstract", "new",
    "|", "&", "...", "]", ")", ">", ","]

/-- The signs inside of a type that can stand behind its first word. -/
def wordEnds : List String := [".", "<", "[", "|", "&"]

namespace Spells

/-- What a part of a type does not begin with. -/
def Begins : Phrase → List Lexeme → Prop
  | .type _, lexemes | .types _ _, lexemes => BeginsOutside typeRefused lexemes
  | .element _, lexemes | .elements _, lexemes => BeginsOutside ["]"] lexemes
  | .members _, _ => True

theorem begins {phrase : Phrase} {front behind : List Comment} {lexemes : List Lexeme}
    (h : Spells source phrase front behind lexemes) : Begins phrase lexemes := by
  have hname {words lexemes} (h : SpellsName words lexemes) :
      BeginsOutside typeRefused lexemes := by
    have hother : typeRefused.all (fun text => !isReferenceWord text) = true := by decide +kernel
    obtain ⟨hword, -⟩ := h
    exact ⟨_, _, rfl, fun text hmem =>
      name_spells_eq_false hword (by simpa using List.all_eq_true.mp hother text hmem)⟩
  have hliteral {lexeme more} (h : typeRefused.any lexeme.token.spells = false) :
      BeginsOutside typeRefused (lexeme :: more) :=
    ⟨lexeme, more, rfl, fun text hmem => Bool.eq_false_iff.mpr (List.any_eq_false.mp h text hmem)⟩
  have hbracket : ∀ text ∈ ["]"], text ∈ typeRefused := by simp [typeRefused]
  induction h with
  | @keyword word span => exact hliteral (by cases word <;> rfl)
  | string => exact hliteral rfl
  | number => exact hliteral rfl
  | negative => exact hliteral rfl
  | @boolean value span => exact hliteral (by cases value <;> rfl)
  | reference h => exact hname h
  | applied h _ _ => exact (hname h).append _
  | array _ _ ih => exact ih.append _
  | emptyTuple => exact hliteral rfl
  | tuple _ _ _ => exact hliteral rfl
  | union _ _ _ ih => exact ih
  | intersection _ _ _ ih => exact ih
  | parenthesized _ _ => exact hliteral rfl
  | shape _ _ => exact hliteral rfl
  | single _ ih => exact ih
  | cons _ _ ih _ => exact ih.append _
  | plainElement _ ih => exact ih.mono hbracket
  | optionalElement _ _ ih => exact (ih.mono hbracket).append _
  | restElement _ _ => exact ⟨_, _, rfl, by simp [Lexeme.ofSign, Token.spells]⟩
  | singleElement _ ih => exact ih
  | consElement _ _ ih _ => exact ih.append _
  | noMembers | property _ _ _ _ _ _ _ _ | index _ _ _ _ _ _ _ _ _ => trivial

/-- What begins with a word goes on with one of these signs, if it goes on at all. -/
def GoesOn (signs : List String) (lexemes : List Lexeme) : Prop :=
  ∀ rest, ∃ first more, lexemes ++ rest = first :: more ∧
    (first.token.word? = none ∨ more = rest ∨ Follows signs more)

theorem goesOn {phrase : Phrase} {front behind : List Comment} {lexemes : List Lexeme}
    (h : Spells source phrase front behind lexemes) :
    match phrase with
    | .type _ => GoesOn wordEnds lexemes
    | .types sign _ => GoesOn (sign :: wordEnds) lexemes
    | .element _ | .elements _ | .members _ => True := by
  have happend {signs : List String} {sign : String} {first later : List Lexeme} {span : Span}
      (h : GoesOn signs first) (hsign : sign ∈ signs) :
      GoesOn signs (first ++ .ofSign sign span :: later) := by
    intro rest
    obtain ⟨head, more, heq, hmore⟩ := h (.ofSign sign span :: later ++ rest)
    refine ⟨head, more, by rw [← heq, List.append_assoc], ?_⟩
    rcases hmore with hnone | rfl | hfollows
    · exact .inl hnone
    · exact .inr <| .inr <| .sign hsign _ _
    · exact .inr <| .inr hfollows
  have hmono {signs more : List String} {lexemes : List Lexeme} (h : GoesOn signs lexemes)
      (hsigns : ∀ text ∈ signs, text ∈ more) : GoesOn more lexemes := fun rest => by
    obtain ⟨head, later, heq, hlater⟩ := h rest
    exact ⟨head, later, heq, hlater.imp_right fun h => h.imp_right fun h => h.mono hsigns⟩
  have hname {words : List String} {lexemes : List Lexeme} (h : SpellsName words lexemes) :
      GoesOn wordEnds lexemes := fun rest => by
    obtain ⟨-, hwords⟩ := h
    cases hwords with
    | nil => exact ⟨_, _, rfl, .inr <| .inl rfl⟩
    | cons _ => exact ⟨_, _, rfl, .inr <| .inr <| .sign (by decide) _ _⟩
  -- in an application, array or compound the sign stands behind the first word only if that word is
  -- the whole first part; else the part itself goes on first
  induction h with
  | keyword | number | string | boolean => exact fun rest => ⟨_, _, rfl, .inr <| .inl rfl⟩
  | negative | emptyTuple | tuple | parenthesized | shape => exact fun rest => ⟨_, _, rfl, .inl rfl⟩
  | reference h => exact hname h
  | applied h _ _ => exact happend (hname h) (by decide)
  | array _ _ ih => exact happend ih (by decide)
  | union _ _ _ ih => exact hmono ih (by decide)
  | intersection _ _ _ ih => exact hmono ih (by decide)
  | single _ ih => exact hmono ih fun _ => List.mem_cons_of_mem _
  | cons _ _ ih _ => exact happend (hmono ih fun _ => List.mem_cons_of_mem _) List.mem_cons_self
  | _ => trivial

end Spells

end Declutter.Syntax
