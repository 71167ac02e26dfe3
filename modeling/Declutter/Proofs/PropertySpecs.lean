import Declutter.Options
import Mathlib.Data.List.TakeWhile

/-!
# Properties given on a command line

`InjectedProperty.HasSpec` says which texts stand for a property: its interface, a point, its name,
an equals sign and its value. The interface ends at the first point and the name at the first equals
sign, so the interface has neither and the name no equals sign, and both have something in them.
Reading finds the property of every such text and refuses all others: `ofSpec?_iff_hasSpec`.
-/

namespace Declutter

/-- A text is split where the separator stands for the first time. -/
theorem splitAtFirst_eq_some_iff {separator : Char} {cs front back : List Char} :
    splitAtFirst separator cs = some (front, back) ↔
      cs = front ++ separator :: back ∧ separator ∉ front := by
  unfold splitAtFirst
  constructor
  · intro h
    split at h
    · cases h
    · rename_i c rest hrest
      -- what is left begins with the character at which the front ended
      have hc : c = separator := by
        have hhead := List.head?_dropWhile_not (· ≠ separator) cs
        rw [hrest] at hhead
        simpa using hhead
      have hparts := List.takeWhile_append_dropWhile (p := (· ≠ separator)) (l := cs)
      rw [hrest, hc] at hparts
      obtain ⟨rfl, rfl⟩ : cs.takeWhile (· ≠ separator) = front ∧ rest = back := by
        simpa using h
      refine ⟨hparts.symm, fun hmem => ?_⟩
      simpa using List.mem_takeWhile_imp hmem
  · intro h
    obtain ⟨rfl, hfront⟩ := h
    -- nothing in front of the separator stops the search
    have hpass : ∀ c ∈ front, decide (c ≠ separator) = true := by
      intro c hmem
      apply decide_eq_true
      intro heq
      exact hfront (heq ▸ hmem)
    rw [List.dropWhile_append_of_pos hpass, List.takeWhile_append_of_pos hpass]
    simp

namespace InjectedProperty

/-- The text of a property on a command line. -/
structure HasSpec (property : InjectedProperty) (spec : String) : Prop where
  spec_eq : spec = property.interface ++ "." ++ property.name ++ "=" ++ property.value
  interface_ne_empty : property.interface ≠ ""
  point_notMem_interface : '.' ∉ property.interface.toList
  equals_notMem_interface : '=' ∉ property.interface.toList
  name_ne_empty : property.name ≠ ""
  equals_notMem_name : '=' ∉ property.name.toList

/-- A text is read by splitting it twice, the second time in front of the value. -/
theorem ofSpec?_eq_some_iff {spec : String} {property : InjectedProperty} :
    ofSpec? spec = some property ↔
      ∃ target, splitAtFirst '=' spec.toList = some (target, property.value.toList) ∧
        splitAtFirst '.' target = some (property.interface.toList, property.name.toList) ∧
        property.interface ≠ "" ∧ property.name ≠ "" := by
  simp only [ofSpec?, Option.bind_eq_bind, Option.bind_eq_some_iff, Prod.exists]
  constructor
  · intro h
    obtain ⟨target, value, hvalue, interface, name, hname, h⟩ := h
    split at h
    · cases h
    · rename_i hempty
      rw [Bool.or_eq_true, List.isEmpty_iff, List.isEmpty_iff, not_or] at hempty
      obtain rfl := Option.some.inj h
      refine ⟨target, ?_, ?_, ?_, ?_⟩
      · rw [String.toList_ofList, hvalue]
      · rw [String.toList_ofList, String.toList_ofList, hname]
      · simpa using hempty.1
      · simpa using hempty.2
  · intro h
    obtain ⟨target, hvalue, hname, hinterface, hnonempty⟩ := h
    refine ⟨target, _, hvalue, _, _, hname, ?_⟩
    rw [if_neg, String.ofList_toList, String.ofList_toList, String.ofList_toList]
    simp [hinterface, hnonempty]

/-- A property is read from its texts and from no other. -/
theorem ofSpec?_eq_some_iff_hasSpec {spec : String} {property : InjectedProperty} :
    ofSpec? spec = some property ↔ property.HasSpec spec := by
  rw [ofSpec?_eq_some_iff]
  simp only [splitAtFirst_eq_some_iff]
  constructor
  · intro h
    obtain ⟨target, ⟨hspec, hequals⟩, ⟨rfl, hpoint⟩, hinterface, hname⟩ := h
    simp only [List.mem_append, List.mem_cons, not_or] at hequals
    refine ⟨?_, hinterface, hpoint, hequals.1, hname, hequals.2.2⟩
    rw [← String.toList_inj, hspec]
    simp
  · intro h
    -- the first split leaves the interface and the name, with the point between them
    refine ⟨property.interface.toList ++ '.' :: property.name.toList, ⟨?_, ?_⟩, ⟨rfl, ?_⟩, ?_, ?_⟩
    · rw [h.spec_eq]
      simp
    · simp [h.equals_notMem_interface, h.equals_notMem_name]
    · exact h.point_notMem_interface
    · exact h.interface_ne_empty
    · exact h.name_ne_empty

/-- Each text is read as the property that it is the text of, and refused if there is none. -/
theorem ofSpec?_iff_hasSpec (spec : String) :
    (∀ property, ofSpec? spec = some property ↔ property.HasSpec spec) ∧
      (ofSpec? spec = none ↔ ∀ property : InjectedProperty, ¬property.HasSpec spec) := by
  constructor
  · intro property
    exact ofSpec?_eq_some_iff_hasSpec
  · rw [Option.eq_none_iff_forall_ne_some]
    apply forall_congr'
    intro property
    rw [← ofSpec?_eq_some_iff_hasSpec]

/-- Only the first point and the first equals sign divide. -/
example : ofSpec? "A.b.c=d=.e" = some ⟨"A", "b.c", "d=.e"⟩ := by decide

end InjectedProperty

end Declutter
