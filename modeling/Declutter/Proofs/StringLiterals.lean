import Declutter.Proofs.Subsumption

/-!
# String literals through all rewritings

Whether `string` is redundant next to a type is asked of types that have been rewritten already, so
the answer must not depend on how far a rewriting has come. No rewriting gives a type its first
string literal or takes the last one away, and those that run before and after the unknown records
are dropped do not change what is `string` either: `hasStringLiteral_rewritten`.

Dropping unknown records can only make a type `string`: `string | { [k: string]: unknown }` becomes
it, and what is `string` stays.
-/

namespace Declutter.TypeNode

/-- A reference has no string literal under any name. -/
theorem hasStringLiteral_renameHead (old new : String) (node : TypeNode) :
    (node.renameHead old new).hasStringLiteral = node.hasStringLiteral := by
  cases node with
  | reference name arguments =>
    rw [renameHead]
    by_cases hroot : referenceRoot name = old
    · rw [if_pos hroot]
      simp [hasStringLiteral]
    · rw [if_neg hroot]
  | _ => rfl

theorem hasStringLiteral_renameReferences (old new : String) (node : TypeNode) :
    (node.renameReferences old new).hasStringLiteral = node.hasStringLiteral :=
  hasStringLiteral_rewrite (fun _ => hasStringLiteral_renameHead old new) node

/-- Both kinds of compounds have the string literals of their members. -/
theorem hasStringLiteral_unionAsIntersection (node : TypeNode) :
    node.unionAsIntersection.hasStringLiteral = node.hasStringLiteral := by
  cases node with
  | union members =>
    -- the same members under the other kind of compound
    show (Compound.intersection.node members).hasStringLiteral =
      (Compound.union.node members).hasStringLiteral
    rw [hasStringLiteral_node, hasStringLiteral_node]
  | _ => rfl

theorem hasStringLiteral_mergeUnions (node : TypeNode) :
    node.mergeUnions.hasStringLiteral = node.hasStringLiteral :=
  hasStringLiteral_rewrite (fun _ => hasStringLiteral_unionAsIntersection) node

/-- Every rewriting of a type keeps whether it has a string literal. Dropping redundant `string`
members and unknown index signatures keeps whether it is `string`, and what is `string` stays that
where unknown records are dropped. -/
theorem hasStringLiteral_rewritten (node : TypeNode) :
    (∀ old new, (node.renameReferences old new).hasStringLiteral = node.hasStringLiteral) ∧
      node.mergeUnions.hasStringLiteral = node.hasStringLiteral ∧
      node.dropStringWidening.hasStringLiteral = node.hasStringLiteral ∧
      node.dropUnknownRecords.hasStringLiteral = node.hasStringLiteral ∧
      node.dropUnknownIndex.hasStringLiteral = node.hasStringLiteral ∧
      node.dropStringWidening.isWideString = node.isWideString ∧
      node.dropUnknownIndex.isWideString = node.isWideString ∧
      (node.isWideString = true → node.dropUnknownRecords.isWideString = true) := by
  refine ⟨fun old new => ?_, ?_, ?_, ?_, ?_, ?_, ?_, fun hwide => ?_⟩
  · exact node.hasStringLiteral_renameReferences old new
  · exact node.hasStringLiteral_mergeUnions
  · exact node.hasStringLiteral_dropStringWidening
  · exact node.hasStringLiteral_dropUnknownRecords
  · exact node.hasStringLiteral_dropUnknownIndex
  · exact node.isWideString_dropStringWidening
  · exact node.isWideString_dropUnknownIndex
  · exact isWideString_dropUnknownRecords hwide

/-- `((string))`, which all rewritings leave as it is. -/
theorem hasStringLiteral_rewritten_parenthesized :
    let node : TypeNode := .parenthesized (.parenthesized (.keyword .string))
    node.isWideString = true ∧ node.dropUnknownRecords.isWideString = true := by
  intro node
  have hwide : node.isWideString = true := rfl
  exact ⟨hwide, node.hasStringLiteral_rewritten.2.2.2.2.2.2.2 hwide⟩

/-- What is no `string` can become it. -/
example :
    let record : TypeNode :=
      .typeLiteral [.index ⟨[], false, "k", .keyword .string, .keyword .unknown⟩]
    (union [.keyword .string, record]).isWideString = false ∧
      (union [.keyword .string, record]).dropUnknownRecords.isWideString = true := by
  decide

end Declutter.TypeNode
