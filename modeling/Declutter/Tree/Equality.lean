import Declutter.Tree.Basic

/-!
# Equality of trees

Two trees are compared node by node. `TypeNode.same_iff` says that the comparison decides
equality, which gives every tree type a `DecidableEq` instance.
-/

namespace Declutter

mutual

/-- Node by node comparison of two types. -/
def TypeNode.same : TypeNode → TypeNode → Bool
  | .keyword j, .keyword k => j = k
  | .literal a, .literal b => a = b
  | .reference m as, .reference n bs => m = n && TypeNode.sameList as bs
  | .array a, .array b => a.same b
  | .tuple as, .tuple bs => TypeNode.sameElements as bs
  | .union as, .union bs => TypeNode.sameList as bs
  | .intersection as, .intersection bs => TypeNode.sameList as bs
  | .parenthesized a, .parenthesized b => a.same b
  | .typeLiteral as, .typeLiteral bs => TypeNode.sameMembers as bs
  | _, _ => false

def TypeNode.sameList : List TypeNode → List TypeNode → Bool
  | [], [] => true
  | a :: as, b :: bs => a.same b && TypeNode.sameList as bs
  | _, _ => false

def TypeNode.sameElements : List TupleElement → List TupleElement → Bool
  | [], [] => true
  | ⟨a, o, r⟩ :: as, ⟨b, p, s⟩ :: bs =>
    a.same b && o = p && r = s && TypeNode.sameElements as bs
  | _, _ => false

def TypeNode.sameMembers : List TypeMember → List TypeMember → Bool
  | [], [] => true
  | .property ⟨c, r, n, o, a⟩ :: as, .property ⟨d, s, m, p, b⟩ :: bs =>
    c = d && r = s && n = m && o = p && a.same b && TypeNode.sameMembers as bs
  | .index ⟨c, r, n, k, a⟩ :: as, .index ⟨d, s, m, l, b⟩ :: bs =>
    c = d && r = s && n = m && k.same l && a.same b && TypeNode.sameMembers as bs
  | _, _ => false

end

mutual

theorem TypeNode.same_iff : ∀ a b : TypeNode, a.same b = true ↔ a = b
  | .keyword _, b => by cases b <;> simp [TypeNode.same]
  | .literal _, b => by cases b <;> simp [TypeNode.same]
  | .reference _ as, b => by
    cases b <;> simp [TypeNode.same, TypeNode.sameList_iff as]
  | .array a, b => by cases b <;> simp [TypeNode.same, TypeNode.same_iff a]
  | .tuple as, b => by cases b <;> simp [TypeNode.same, TypeNode.sameElements_iff as]
  | .union as, b => by cases b <;> simp [TypeNode.same, TypeNode.sameList_iff as]
  | .intersection as, b => by cases b <;> simp [TypeNode.same, TypeNode.sameList_iff as]
  | .parenthesized a, b => by cases b <;> simp [TypeNode.same, TypeNode.same_iff a]
  | .typeLiteral as, b => by cases b <;> simp [TypeNode.same, TypeNode.sameMembers_iff as]

theorem TypeNode.sameList_iff :
    ∀ as bs : List TypeNode, TypeNode.sameList as bs = true ↔ as = bs
  | [], bs => by cases bs <;> simp [TypeNode.sameList]
  | a :: as, bs => by
    cases bs <;> simp [TypeNode.sameList, TypeNode.same_iff a, TypeNode.sameList_iff as]

theorem TypeNode.sameElements_iff :
    ∀ as bs : List TupleElement, TypeNode.sameElements as bs = true ↔ as = bs
  | [], bs => by cases bs <;> simp [TypeNode.sameElements]
  | ⟨a, o, r⟩ :: as, bs => by
    cases bs with
    | nil => simp [TypeNode.sameElements]
    | cons b bs =>
      cases b
      simp [TypeNode.sameElements, TypeNode.same_iff a, TypeNode.sameElements_iff as,
        and_assoc]

theorem TypeNode.sameMembers_iff :
    ∀ as bs : List TypeMember, TypeNode.sameMembers as bs = true ↔ as = bs
  | [], bs => by cases bs <;> simp [TypeNode.sameMembers]
  | .property ⟨c, r, n, o, a⟩ :: as, bs => by
    cases bs with
    | nil => simp [TypeNode.sameMembers]
    | cons b bs =>
      rcases b with ⟨⟨_, _, _, _, _⟩⟩ | ⟨⟨_, _, _, _, _⟩⟩ <;>
        simp [TypeNode.sameMembers, TypeNode.same_iff a, TypeNode.sameMembers_iff as, and_assoc]
  | .index ⟨c, r, n, k, a⟩ :: as, bs => by
    cases bs with
    | nil => simp [TypeNode.sameMembers]
    | cons b bs =>
      rcases b with ⟨⟨_, _, _, _, _⟩⟩ | ⟨⟨_, _, _, _, _⟩⟩ <;>
        simp [TypeNode.sameMembers, TypeNode.same_iff k, TypeNode.same_iff a,
          TypeNode.sameMembers_iff as, and_assoc]

end

instance : DecidableEq TypeNode := fun a b => decidable_of_iff _ (TypeNode.same_iff a b)

instance : DecidableEq TupleElement := fun ⟨a, o, r⟩ ⟨b, p, s⟩ =>
  decidable_of_iff (a = b ∧ o = p ∧ r = s) (by simp)

instance : DecidableEq PropertySignature := fun ⟨c, r, n, o, a⟩ ⟨d, s, m, p, b⟩ =>
  decidable_of_iff (c = d ∧ r = s ∧ n = m ∧ o = p ∧ a = b) (by simp)

instance : DecidableEq IndexSignature := fun ⟨c, r, n, k, a⟩ ⟨d, s, m, l, b⟩ =>
  decidable_of_iff (c = d ∧ r = s ∧ n = m ∧ k = l ∧ a = b) (by simp)

instance : DecidableEq TypeMember
  | .property p, .property q => decidable_of_iff (p = q) (by simp)
  | .index i, .index j => decidable_of_iff (i = j) (by simp)
  | .property _, .index _ => isFalse nofun
  | .index _, .property _ => isFalse nofun

deriving instance DecidableEq for TypeAlias
deriving instance DecidableEq for Interface
deriving instance DecidableEq for Verbatim
deriving instance DecidableEq for Statement
deriving instance DecidableEq for SourceFile

end Declutter
