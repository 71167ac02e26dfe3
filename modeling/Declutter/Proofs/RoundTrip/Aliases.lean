import Declutter.Proofs.RoundTrip.Files

/-!
# Reading the text of an alias

The round trip of types: an alias of a type that can be written is read back with the settled type,
`SourceFile.ofText_alias`.
-/

namespace Declutter

open Printer Syntax

/-- The text of an alias is read as an alias of what is written in it. -/
theorem SourceFile.ofText_alias_of_writes {node : TypeNode} {text : String}
    (h : Writes (.type node) text typeStops) :
    ofText ("type T = " ++ text ++ ";") = .ok ⟨[.typeAlias ⟨[], [], "T", node⟩], []⟩ := by
  have hname : isPlainWord "T" = true := by decide
  have hwrites := (WritesDeclaration.typeAlias hname h).plain (List.forall_mem_nil _)
  have htext : comments 0 [] ++ ("type" ++ " " ++ ("T" ++ " = " ++ text ++ ";")) =
      "type T = " ++ text ++ ";" := by
    have hhead : comments 0 [] ++ "type" ++ " " ++ "T" ++ " = " = "type T = " := by decide
    rw [← hhead]
    simp only [String.append_assoc]
  rw [htext] at hwrites
  obtain ⟨front, lexemes, marked, hspells, hmarked, hlexes⟩ :=
    hwrites _ [] [] [] (by rw [List.append_nil]) .done
  rw [List.append_nil] at hlexes hmarked
  exact ofText_eq_ok (by rw [hmarked]; exact hspells.single) hlexes

/-- The text of an alias of a type that can be written is read as an alias of the settled type. -/
theorem SourceFile.ofText_alias {node : TypeNode} (h : node.Readable) :
    ofText ("type T = " ++ node.print ++ ";") =
      .ok ⟨[.typeAlias ⟨[], [], "T", node.settled⟩], []⟩ :=
  ofText_alias_of_writes (node.writes_settled 0 h.legible)

/-- Compounds in each place where one can stand bare. -/
theorem SourceFile.ofText_alias_bare :
    let bare (name : String) : TypeNode := .union [.named name, .keyword .null]
    let node : TypeNode := .union
      [bare "A", .intersection [.intersection [.named "B.C", .array (bare "D")], bare "E"],
        .typeLiteral [.property ⟨[], true, "a b", true, .literal (.string "\n")⟩,
          .index ⟨[], false, "k", .keyword .string, bare "F"⟩],
        .reference "G" [bare "H"],
        .tuple [⟨.literal (.number "10"), false, false⟩, ⟨bare "I", true, false⟩,
          ⟨bare "J", false, true⟩]]
    node.Readable ∧ ofText ("type T = " ++ node.print ++ ";") =
      .ok ⟨[.typeAlias ⟨[], [], "T", .union
        [.parenthesized (bare "A"),
          .intersection [.named "B.C", .array (.parenthesized (bare "D")),
            .parenthesized (bare "E")],
          .typeLiteral [.property ⟨[], true, "a b", true, .literal (.string "\n")⟩,
            .index ⟨[], false, "k", .keyword .string, bare "F"⟩],
          .reference "G" [bare "H"],
          .tuple [⟨.literal (.number "10"), false, false⟩, ⟨.parenthesized (bare "I"), true, false⟩,
            ⟨bare "J", false, true⟩]]⟩], []⟩ := by
  intro bare node
  have hreadable : node.Readable := by decide
  exact ⟨hreadable, ofText_alias hreadable⟩

end Declutter
