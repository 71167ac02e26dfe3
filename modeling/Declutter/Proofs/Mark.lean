import Declutter.Proofs.ParsedFiles

/-!
# The mark of an encoding

A text can begin with U+FEFF, which the grammar does not see: the places of its tree are counted
without the mark. But what is taken over as text is counted off with it, and so is cut three bytes
too early: `exists_ofText_marked_ne`. A mark makes no difference if nothing is taken over as text,
which is so for comments, for statements that are kept verbatim, for numbers and for numeric keys:
`ofText_marked`.

Two readings of one tree are compared step by step, each with a text of its own.
-/

namespace Declutter

/-! ## What is taken over as text -/

namespace Syntax

/-- Whether a key is named as it is written. -/
def MemberKey.takesText : MemberKey → Bool
  | .number _ => true
  | .word _ | .string _ | .computed | .other _ => false

mutual

/-- Whether a number stands anywhere in a type. -/
def TypeSyntax.takesText : TypeSyntax → Bool
  | .number _ => true
  | .reference _ _ arguments => TypeSyntax.anyTakesText arguments
  | .array _ element => element.takesText
  | .tuple _ elements => TupleElementSyntax.anyTakesText elements
  | .union _ members | .intersection _ members => TypeSyntax.anyTakesText members
  | .parenthesized _ inner => inner.takesText
  | .literal _ members => MemberSyntax.anyTakesText members
  | .keyword _ _ | .string _ _ | .boolean _ _ | .unmodelled _ _ => false

def TypeSyntax.anyTakesText : List TypeSyntax → Bool
  | [] => false
  | type :: types => type.takesText || TypeSyntax.anyTakesText types

def TupleElementSyntax.anyTakesText : List TupleElementSyntax → Bool
  | [] => false
  | .mk _ _ _ type :: elements => type.takesText || TupleElementSyntax.anyTakesText elements

def MemberSyntax.takesText : MemberSyntax → Bool
  | .property _ _ key _ type =>
    key.takesText || match type with
      | some type => type.takesText
      | none => false
  | .index _ _ _ key value =>
    key.takesText || match value with
      | some value => value.takesText
      | none => false
  | .method _ | .signature _ => false

def MemberSyntax.anyTakesText : List MemberSyntax → Bool
  | [] => false
  | member :: members => member.takesText || MemberSyntax.anyTakesText members

end

/-- Whether an item is kept as text, or has a number in it. -/
def ItemSyntax.takesText : ItemSyntax → Bool
  | .empty _ => false
  | .alias _ _ _ type => type.takesText
  | .interface _ _ _ heritage members =>
    heritage.any (TypeSyntax.anyTakesText ·.arguments) || MemberSyntax.anyTakesText members
  | .directive _ _ | .other _ => true

/-- Whether a source has a comment, or an item of which text is taken over. -/
def Source.takesText (source : Source) : Bool :=
  !source.comments.isEmpty || source.items.any (·.takesText)

end Syntax

namespace Reading

open Syntax

/-! ## Two readings side by side -/

/-- Where there are no comments, two readers come to the same, and leave none. -/
def Alike {α : Type} (reader other : Reader α) : Prop :=
  reader.run [] = other.run [] ∧ ∀ result, reader.run [] = .ok result → result.2 = []

namespace Alike

variable {α β : Type} {reader other : Reader α}

protected theorem pure {a : α} : Alike (pure a) (pure a) :=
  ⟨rfl, fun _ hresult => by cases hresult; rfl⟩

protected theorem bind {f g : α → Reader β} (h : Alike reader other) (hf : ∀ a, Alike (f a) (g a)) :
    Alike (reader >>= f) (other >>= g) := by
  obtain ⟨hrun, hleft⟩ := h
  rw [Alike, StateT.run_bind, StateT.run_bind, ← hrun]
  cases hread : reader.run [] with
  | error refusal => exact ⟨rfl, nofun⟩
  | ok read =>
    obtain ⟨a, comments⟩ := read
    obtain rfl : comments = [] := hleft _ hread
    exact hf a

theorem map (f : α → β) (h : Alike reader other) :
    Alike (do return f (← reader)) (do return f (← other)) := h.bind fun _ => .pure

theorem refuse {reason : Unsupported} {span : Span} :
    Alike (refuse reason span : Reader α) (refuse reason span) := ⟨rfl, nofun⟩

end Alike

variable {source other : List Char}

theorem alike_takeComments (place : Nat) :
    Alike (takeComments source place) (takeComments other place) :=
  ⟨rfl, fun _ hresult => by cases hresult; rfl⟩

theorem alike_dropComments (place : Nat) : Alike (dropComments place) (dropComments place) :=
  ⟨rfl, fun _ hresult => by cases hresult; rfl⟩

/-! ## Types and members -/

theorem alike_propertyName {span : Span} {key : MemberKey} (h : key.takesText = false) :
    Alike (propertyName source span key) (propertyName other span key) := by
  cases key with
  | word text => exact .pure
  | string value => exact .pure
  | number place => cases h
  | computed => exact .refuse
  | other place => exact .refuse

mutual

theorem alike_typeNode (type : TypeSyntax) (h : type.takesText = false) :
    Alike (typeNode source type) (typeNode other type) := by
  cases type with
  | keyword | string | boolean =>
    rw [typeNode, typeNode]
    exact .pure
  | number span => simp [TypeSyntax.takesText] at h
  | reference span name arguments =>
    rw [typeNode, typeNode]
    rw [TypeSyntax.takesText] at h
    exact (alike_typeNodes arguments h).map _
  | array span element =>
    rw [typeNode, typeNode]
    rw [TypeSyntax.takesText] at h
    exact (alike_typeNode element h).map _
  | tuple span elements =>
    rw [typeNode, typeNode]
    rw [TypeSyntax.takesText] at h
    exact (alike_tupleElements elements h).map _
  | union span members =>
    rw [typeNode, typeNode]
    rw [TypeSyntax.takesText] at h
    exact (alike_typeNodes members h).map _
  | intersection span members =>
    rw [typeNode, typeNode]
    rw [TypeSyntax.takesText] at h
    exact (alike_typeNodes members h).map _
  | parenthesized span inner =>
    rw [typeNode, typeNode]
    rw [TypeSyntax.takesText] at h
    exact (alike_typeNode inner h).map _
  | literal span members =>
    rw [typeNode, typeNode]
    rw [TypeSyntax.takesText] at h
    exact (alike_typeMembers members h).map _
  | unmodelled span form =>
    rw [typeNode, typeNode]
    exact .refuse

theorem alike_typeNodes (types : List TypeSyntax) (h : TypeSyntax.anyTakesText types = false) :
    Alike (typeNodes source types) (typeNodes other types) := by
  cases types with
  | nil =>
    rw [typeNodes, typeNodes]
    exact .pure
  | cons type types =>
    rw [typeNodes, typeNodes]
    rw [TypeSyntax.anyTakesText, Bool.or_eq_false_iff] at h
    exact (alike_typeNode type h.1).bind fun _ => (alike_typeNodes types h.2).map _

theorem alike_tupleElements (elements : List TupleElementSyntax)
    (h : TupleElementSyntax.anyTakesText elements = false) :
    Alike (tupleElements source elements) (tupleElements other elements) := by
  match elements, h with
  | [], _ =>
    rw [tupleElements, tupleElements]
    exact .pure
  | .mk span labelled form type :: elements, h =>
    rw [tupleElements, tupleElements]
    rw [TupleElementSyntax.anyTakesText, Bool.or_eq_false_iff] at h
    have hread := (alike_typeNode type h.1).bind fun node => (alike_tupleElements elements h.2).map
      (TupleElement.mk node (form = .optional) (form = .rest) :: ·)
    split
    · exact Alike.refuse.bind fun _ => hread
    · exact hread

theorem alike_typeMember (comments : List String) (member : MemberSyntax)
    (h : member.takesText = false) :
    Alike (typeMember source comments member) (typeMember other comments member) := by
  match member, h with
  | .property span readonly key optional (some type), h =>
    rw [typeMember, typeMember]
    rw [MemberSyntax.takesText, Bool.or_eq_false_iff] at h
    exact (alike_propertyName h.1).bind fun _ => (alike_typeNode type h.2).map _
  | .property span readonly key optional none, h =>
    rw [typeMember, typeMember]
    rw [MemberSyntax.takesText, Bool.or_eq_false_iff] at h
    exact (alike_propertyName h.1).bind fun _ => .refuse
  | .index span readonly parameter key (some value), h =>
    rw [typeMember, typeMember]
    rw [MemberSyntax.takesText, Bool.or_eq_false_iff] at h
    exact (alike_typeNode key h.1).bind fun _ => (alike_typeNode value h.2).map _
  | .index span readonly parameter key none, _ =>
    rw [typeMember, typeMember]
    exact .refuse
  | .method span, _ =>
    rw [typeMember, typeMember]
    exact .refuse
  | .signature span, _ =>
    rw [typeMember, typeMember]
    exact .refuse

theorem alike_typeMembers (members : List MemberSyntax)
    (h : MemberSyntax.anyTakesText members = false) :
    Alike (typeMembers source members) (typeMembers other members) := by
  cases members with
  | nil =>
    rw [typeMembers, typeMembers]
    exact .pure
  | cons member members =>
    rw [typeMembers, typeMembers]
    rw [MemberSyntax.anyTakesText, Bool.or_eq_false_iff] at h
    exact (alike_takeComments _).bind fun comments =>
      (alike_typeMember comments member h.1).bind fun _ => (alike_dropComments _).bind fun _ =>
        (alike_typeMembers members h.2).map _

end

/-! ## Statements -/

/-- The name of a heritage has no text in it, only words. -/
theorem alike_heritageName (expression : ExprSyntax) :
    Alike (heritageName expression) (heritageName expression) := by
  fun_induction heritageName expression with
  | case1 span word => exact .pure
  | case2 span object property ih => exact ih.map _
  | case3 span object => exact .refuse
  | case4 expression => exact .refuse

theorem alike_heritage (items : List HeritageSyntax)
    (h : items.any (TypeSyntax.anyTakesText ·.arguments) = false) :
    Alike (heritage source items) (heritage other items) := by
  induction items with
  | nil => exact .pure
  | cons item items ih =>
    rw [List.any_cons, Bool.or_eq_false_iff] at h
    exact (alike_heritageName item.expression).bind fun _ =>
      (alike_typeNodes item.arguments h.1).bind fun _ => (ih h.2).map _

theorem alike_statement (item : ItemSyntax) (h : item.takesText = false) :
    Alike (statement source item) (statement other item) := by
  have hdone (s : Statement) (place : Nat) :
      Alike (do let read ← (pure s : Reader Statement); dropComments place; return some read)
        (do let read ← (pure s : Reader Statement); dropComments place; return some read) :=
    Alike.pure.bind fun _ => (alike_dropComments place).bind fun _ => .pure
  unfold statement
  match item, h with
  | .empty span, _ => exact .pure
  | .alias span modifiers name type, h =>
    exact (alike_takeComments _).bind fun comments => (alike_typeNode type h).bind fun node =>
      hdone (.typeAlias ⟨comments, modifiers, name, node⟩) _
  | .interface span modifiers name parents members, h =>
    rw [ItemSyntax.takesText, Bool.or_eq_false_iff] at h
    exact (alike_takeComments _).bind fun comments => (alike_heritage parents h.1).bind fun nodes =>
      (alike_typeMembers members h.2).bind fun others =>
        hdone (.interface ⟨comments, modifiers, name, nodes, others⟩) _
  | .directive span raw, h => cases h
  | .other span, h => cases h

theorem alike_statements (items : List ItemSyntax) (h : items.any (·.takesText) = false) :
    Alike (statements source items) (statements other items) := by
  induction items with
  | nil => exact .pure
  | cons item items ih =>
    rw [List.any_cons, Bool.or_eq_false_iff] at h
    exact (alike_statement item h.1).bind fun _ => (ih h.2).map _

theorem withoutMark_of_head? {cs : List Char} (h : cs.head? ≠ some '\uFEFF') :
    withoutMark cs = cs := by
  unfold withoutMark
  split
  · exact absurd rfl h
  · rfl

end Reading

/-! ## Texts -/

/-- A text with the mark of its encoding in front of it. -/
def marked (text : String) : String := "\uFEFF" ++ text

namespace SourceFile

/-- A text of which something is taken over as it is written. -/
def TakesText (text : String) : Prop :=
  ∃ tree, Syntax.Source.parse text.toList = .ok tree ∧ tree.takesText = true

/-- A mark makes no difference if nothing of the text is taken over as it is written. -/
theorem ofText_marked {text : String} (h : text.toList.head? ≠ some '\uFEFF')
    (hplain : ¬ TakesText text) : ofText (marked text) = ofText text := by
  have hmarked : (marked text).toList = '\uFEFF' :: text.toList := by
    rw [marked, String.toList_append]
    rfl
  unfold ofText
  dsimp only
  rw [hmarked, Reading.withoutMark_of_head? h, Reading.withoutMark]
  cases hparse : Syntax.Source.parse text.toList with
  | error fault => rfl
  | ok tree =>
    have htree : tree.takesText = false :=
      Bool.eq_false_iff.mpr fun htakes => hplain ⟨tree, hparse, htakes⟩
    rw [Syntax.Source.takesText, Bool.or_eq_false_iff] at htree
    have hcomments : tree.comments = [] := by simpa using htree.1
    have halike : Reading.Alike (Reading.statements text.toList tree.items)
        (Reading.statements ('\uFEFF' :: text.toList) tree.items) :=
      Reading.alike_statements tree.items htree.2
    obtain ⟨hrun, hleft⟩ := halike
    simp only [Except.mapError, bind, Except.bind, hcomments, ← hrun]
    cases hread : (Reading.statements text.toList tree.items).run [] with
    | error refusal => rfl
    | ok read =>
      obtain ⟨statements, comments⟩ := read
      obtain rfl : comments = [] := hleft _ hread
      rfl

/-- `export type A = "12" | B[];` is read as itself behind a mark. -/
theorem ofText_marked_union :
    "export type A = \"12\" | B[];".toList.head? ≠ some '\uFEFF' ∧
      ¬ TakesText "export type A = \"12\" | B[];" ∧
        ofText (marked "export type A = \"12\" | B[];") =
          .ok ⟨[.typeAlias ⟨[], [.exported], "A",
            .union [.literal (.string "12"), .array (.named "B")]⟩], []⟩ := by
  have hhead : "export type A = \"12\" | B[];".toList.head? ≠ some '\uFEFF' := by decide
  have hplain : ¬ TakesText "export type A = \"12\" | B[];" := by
    have hparse : (Syntax.Source.parse "export type A = \"12\" | B[];".toList).toOption.all
        (!·.takesText) = true := by decide +kernel
    rintro ⟨tree, htree, htakes⟩
    rw [htree] at hparse
    simp [Except.toOption, htakes] at hparse
  refine ⟨hhead, hplain, ?_⟩
  rw [ofText_marked hhead hplain]
  decide +kernel

/-- With a mark, a number is read as other text than it is written with. -/
theorem exists_ofText_marked_ne :
    ∃ (text : String) (file other : SourceFile), text.toList.head? ≠ some '\uFEFF' ∧
      ofText text = .ok file ∧ ofText (marked text) = .ok other ∧ other ≠ file :=
  ⟨"type A = 12;", ⟨[.typeAlias ⟨[], [], "A", .literal (.number "12")⟩], []⟩,
    ⟨[.typeAlias ⟨[], [], "A", .literal (.number " =")⟩], []⟩,
    by decide, by decide +kernel, by decide +kernel, by simp⟩

end SourceFile

end Declutter
