import Declutter.Proofs.RoundTrip.Aliases

/-!
# Quoted texts read back

Strings are written by the rules of JSON and read by those of the grammar. Whatever characters a
string has, it is read back as a literal, and as the name of a property that is no identifier:
`SourceFile.ofText_quoted_string_and_name`.
-/

namespace Declutter

open Printer Syntax

/-- A shape of one property whose name stands in quotes, with any characters. -/
theorem TypeNode.writes_quotedProperty {name : String} {type : TypeNode} (depth : Nat)
    (readonly optional : Bool) (hname : isIdentifier name = false) (h : type.Readable) :
    Writes (.type (.typeLiteral [.property ⟨[], readonly, name, optional, type.settled⟩]))
      ((typeLiteral [.property ⟨[], readonly, name, optional, type⟩]).render depth) typeStops := by
  have htype := type.writes_settled (depth + 1) h.legible
  have hquoted : isIdentifier name = true → name.toList.all isAscii = true := by simp [hname]
  have hwrites := Writes.property (depth + 1) readonly optional (List.forall_mem_nil _) hquoted htype (.noMembers ['\n'])
  have hend : "\n" ++ String.join [] = "" ++ "\n" := by decide
  rw [render]
  refine WritesBraced.shape (.braced depth (by simp [renderMembers]) ?_ hwrites) _
  rw [renderMembers, renderMembers, String.join_cons, Writes.line_ahead hend]
  simp only [← String.append_assoc]

/-- A string literal is read back from its text, and so is a property under a name that is no
identifier, whatever characters they have. -/
theorem SourceFile.ofText_quoted_string_and_name (value : String) :
    ofText ("type T = " ++ (TypeNode.literal (.string value)).print ++ ";") =
        .ok ⟨[.typeAlias ⟨[], [], "T", .literal (.string value)⟩], []⟩ ∧
      (isIdentifier value = false →
        ∀ (readonly optional : Bool) (type : TypeNode), type.Readable →
          ofText ("type T = " ++ (TypeNode.typeLiteral
              [.property ⟨[], readonly, value, optional, type⟩]).print ++ ";") =
            .ok ⟨[.typeAlias ⟨[], [], "T", .typeLiteral
              [.property ⟨[], readonly, value, optional, type.settled⟩]⟩], []⟩) := by
  constructor
  · have hwrites : Writes (.type (.literal (.string value)))
        (TypeNode.literal (.string value)).print typeStops := by
      rw [TypeNode.print, TypeNode.render]
      exact .string value _
    exact ofText_alias_of_writes hwrites
  · intro hname readonly optional type h
    exact ofText_alias_of_writes (TypeNode.writes_quotedProperty 0 readonly optional hname h)

/-- Quotes, backslashes, what looks like an escape, line ends of all kinds and a character behind
the basic plane. -/
theorem SourceFile.ofText_quoted_lookalikes :
    let value := "\"\\u0041\\\n\r\t\x00\x7f\u2028\u2029/*😀*/'"
    let type : TypeNode := .union [.literal (.string value), .keyword .null]
    isIdentifier value = false ∧ type.Readable ∧
      ofText ("type T = " ++ (TypeNode.literal (.string value)).print ++ ";") =
        .ok ⟨[.typeAlias ⟨[], [], "T", .literal (.string value)⟩], []⟩ ∧
      ofText ("type T = " ++
          (TypeNode.typeLiteral [.property ⟨[], true, value, true, type⟩]).print ++ ";") =
        .ok ⟨[.typeAlias ⟨[], [], "T", .typeLiteral [.property ⟨[], true, value, true, type⟩]⟩],
          []⟩ := by
  intro value type
  have hname : isIdentifier value = false := by decide
  have hreadable : type.Readable := by decide
  obtain ⟨hliteral, hproperty⟩ := ofText_quoted_string_and_name value
  exact ⟨hname, hreadable, hliteral, hproperty hname true true type hreadable⟩

end Declutter
