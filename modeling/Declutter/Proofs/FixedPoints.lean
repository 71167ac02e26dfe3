import Declutter.Proofs.ThinnedShapes

/-!
# Files that a rewriting leaves alone

`dropStringWidening` and `dropUnknownIndex` each have a normal form that can be told without running
them: all nodes are narrow, and all shapes are stripped. What they make of a file is of that form,
whatever tree they are given, and a file of that form stays as it is. So these are the files that
they do not change, and a second run changes nothing
(`dropStringWidening_and_dropUnknownIndex_idempotent`).

Nothing here asks how a tree came about: compounds may be empty, have one member or stand directly
in each other, and parentheses may stand around parentheses.
-/

namespace Declutter

namespace SourceFile

/-! ## Redundant `string` members -/

/-- Dropping redundant `string` members leaves narrow nodes. -/
theorem narrow_of_mem_dropStringWidening (file : SourceFile) :
    ∀ node ∈ file.dropStringWidening.visit, node.Narrow := by
  rw [forall_visit_iff]
  intro statement hmem type htype
  obtain ⟨old, _, rfl⟩ := List.mem_map.mp hmem
  rw [Statement.types_mapTypes] at htype
  obtain ⟨oldType, _, rfl⟩ := List.mem_map.mp htype
  exact oldType.everywhere_narrow_dropStringWidening

/-- The files without redundant `string` members are those that stay as they are. -/
theorem dropStringWidening_eq_self_iff {file : SourceFile} :
    file.dropStringWidening = file ↔ ∀ node ∈ file.visit, node.Narrow := by
  constructor
  · intro h
    rw [← h]
    exact file.narrow_of_mem_dropStringWidening
  · intro h
    rw [forall_visit_iff] at h
    apply mapTypes_eq_self
    intro statement hmem type htype
    exact TypeNode.dropStringWidening_eq_self (h statement hmem type htype)

/-! ## Unknown index signatures -/

/-- Dropping unknown index signatures leaves stripped shapes. -/
theorem strippedShape_of_mem_dropUnknownIndex (file : SourceFile) :
    ∀ shape ∈ file.dropUnknownIndex.shapes, StrippedShape shape := by
  rw [forall_mem_shapes_iff]
  intro statement hmem
  obtain ⟨old, _, rfl⟩ := List.mem_map.mp hmem
  constructor
  · exact old.strippedShape_body_dropUnknownIndex
  · intro type htype
    -- a type of the new body comes from one of the old body, which may have had more
    obtain ⟨oldType, _, rfl⟩ := Statement.exists_of_mem_types_dropUnknownIndex htype
    exact oldType.everywhere_stripped_dropUnknownIndex

/-- The files without unknown index signatures to lose are those that stay as they are. -/
theorem dropUnknownIndex_eq_self_iff {file : SourceFile} :
    file.dropUnknownIndex = file ↔ ∀ shape ∈ file.shapes, StrippedShape shape := by
  constructor
  · intro h
    rw [← h]
    exact file.strippedShape_of_mem_dropUnknownIndex
  · intro h
    rw [forall_mem_shapes_iff] at h
    have hstatements : file.statements.map (·.dropUnknownIndex) = file.statements := by
      apply TypeNode.map_eq_self
      intro statement hmem
      -- the body of an interface is a shape that is no type of it
      obtain ⟨hbody, htypes⟩ := h statement hmem
      apply Statement.dropUnknownIndex_eq_self hbody
      intro type htype
      exact TypeNode.dropUnknownIndex_eq_self (htypes type htype)
    rw [dropUnknownIndex, hstatements]

/-! ## Second runs -/

/-- Dropping redundant `string` members is done after one run, and so is dropping unknown index
signatures. -/
theorem dropStringWidening_and_dropUnknownIndex_idempotent (file : SourceFile) :
    file.dropStringWidening.dropStringWidening = file.dropStringWidening ∧
      file.dropUnknownIndex.dropUnknownIndex = file.dropUnknownIndex := by
  constructor
  · -- the result of the first run is a file that a run leaves alone
    rw [dropStringWidening_eq_self_iff]
    exact file.narrow_of_mem_dropStringWidening
  · rw [dropUnknownIndex_eq_self_iff]
    exact file.strippedShape_of_mem_dropUnknownIndex

end SourceFile

end Declutter
