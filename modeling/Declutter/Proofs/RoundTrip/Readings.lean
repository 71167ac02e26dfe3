import Declutter.Proofs.RoundTrip.Members

/-!
# Spelled types are read as themselves

The induction over a spelling puts together what the modules before say of each form.
-/

namespace Declutter.Syntax

open Declutter.Syntax.Parser

variable {source : List Char} {front behind : List Comment} {lexemes : List Lexeme}

namespace Spells

/-- How a part of a type is read. -/
def ReadsPart (source : List Char) : Phrase → List Comment → List Comment → List Lexeme → Prop
  | .type node, front, behind, lexemes => ReadAs source ⟨node, front, behind⟩ lexemes
  | .types sign nodes, front, behind, lexemes =>
    Strung sign (ReadAs source) nodes front behind lexemes
  | .element element, front, behind, lexemes => ReadsElement source ⟨element, front, behind⟩ lexemes
  | .elements elements, front, behind, lexemes =>
    Strung "," (ReadsElement source) elements front behind lexemes
  | .members members, front, behind, lexemes => ReadsMembers source members front behind lexemes

theorem readsPart {phrase : Phrase} (h : Spells source phrase front behind lexemes) :
    ReadsPart source phrase front behind lexemes := by
  induction h with
  | @keyword word span =>
    exact .of_primaryType .keyword fun _ => primaryType_keyword word span
  | @string value raw span =>
    exact .of_primaryType .string fun _ => primaryType_string value raw span
  | number hle htext =>
    exact .of_primaryType (.number hle htext) fun _ => primaryType_number hle htext
  | negative hle htext =>
    exact .of_primaryType (.negative hle htext) fun _ => primaryType_negative hle htext
  | @boolean value span =>
    exact .of_primaryType .boolean fun _ => primaryType_boolean value span
  | @reference words lexemes comments hname =>
    refine .of_primaryType (.reference hname) fun bound => ?_
    have hreads : Gives source (Grammar.ofFuel (bound + 7)).primaryType primaryEnds bound
        (Lowers source) ⟨.reference (".".intercalate words) [], comments, comments⟩
        (lexemes ++ []) := primaryType_reference hname .none .nil
    rwa [List.append_nil] at hreads
  | applied hname h ih =>
    obtain ⟨sites, hchain, rfl, hparts⟩ := ih
    exact .of_primaryType (.applied hname h) fun _ => primaryType_reference hname (.some hparts) hchain
  | array hnode _ ih => exact .array hnode ih
  | emptyTuple => exact .of_primaryType .emptyTuple fun _ => primaryType_emptyTuple
  | tuple hoptional h ih =>
    exact .of_primaryType (.tuple hoptional h) fun _ => primaryType_tuple hoptional ih
  | union hlength hplain h ih => exact .union hlength hplain (.union hlength hplain h) ih
  | intersection hlength hplain h ih =>
    exact .intersection hlength hplain (.intersection hlength hplain h) ih
  | parenthesized h ih =>
    exact .of_primaryType (.parenthesized h) fun _ => primaryType_parenthesized ih
  | shape h ih => exact .of_primaryType (.shape h) fun _ => primaryType_shape ih
  | single _ ih => exact .single ih
  | cons _ _ ih ihs => exact .cons ih ihs
  | plainElement _ ih => exact .plain ih
  | optionalElement hnode _ ih => exact .optional hnode ih
  | restElement _ ih => exact .rest ih
  | singleElement _ ih => exact .single ih
  | consElement _ _ ih ihs => exact .cons ih ihs
  | noMembers => exact .nil
  | property hkey hhead hmark hcommented _ _ ih ihs =>
    exact .property hkey hhead hmark hcommented ih ihs
  | index hparameter hhead hcommented _ _ _ ihkey ihvalue ihs =>
    exact .index hparameter hhead hcommented ihkey ihvalue ihs

/-- A spelled type is read as itself. -/
theorem readAs {node : TypeNode} (h : Spells source (.type node) front behind lexemes) :
    ReadAs source ⟨node, front, behind⟩ lexemes := h.readsPart

end Spells

end Declutter.Syntax
