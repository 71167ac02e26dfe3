import Declutter.Proofs.ParsedFiles
import Declutter.Proofs.Parsing.NestedItems
import Mathlib.Data.List.TakeDrop
import Mathlib.Data.List.TakeWhile

/-!
# The comments that statements and members take

`Reading.statement_eq_takeComments`: a statement takes the comments that end in front of it, and
then its members, however deep, take some of those that follow, in document order. What lies behind
the end of the statement is not touched.

`Reading.Hands` says so of a reader, and goes through the forms of types and members. Members take
what ends in front of them and leave out what begins in front of their end; that both are no further
than the end of the statement is `Source.within_of_parse`.
-/

namespace Declutter

/-! ## The comments of members -/

namespace TypeNode

mutual

/-- The comments of the members inside of a type, in document order: those of a member in front of
those inside of its types. -/
def comments : TypeNode → List String
  | .keyword _ | .literal _ => []
  | .reference _ arguments => commentsList arguments
  | .array element => element.comments
  | .tuple elements => commentsElements elements
  | .union members | .intersection members => commentsList members
  | .parenthesized inner => inner.comments
  | .typeLiteral members => commentsMembers members

def commentsList : List TypeNode → List String
  | [] => []
  | node :: nodes => node.comments ++ commentsList nodes

def commentsElements : List TupleElement → List String
  | [] => []
  | ⟨type, _, _⟩ :: elements => type.comments ++ commentsElements elements

def commentsMembers : List TypeMember → List String
  | [] => []
  | .property ⟨leadingComments, _, _, _, type⟩ :: members =>
    leadingComments ++ (type.comments ++ commentsMembers members)
  | .index ⟨leadingComments, _, _, key, value⟩ :: members =>
    leadingComments ++ (key.comments ++ (value.comments ++ commentsMembers members))

end

end TypeNode

/-- The comments of a member and of the members inside of its types. -/
def TypeMember.comments : TypeMember → List String
  | .property p => p.leadingComments ++ p.type.comments
  | .index i => i.leadingComments ++ (i.key.comments ++ i.value.comments)

namespace TypeNode

theorem commentsList_eq (nodes : List TypeNode) :
    commentsList nodes = nodes.flatMap comments := by
  induction nodes with
  | nil => rfl
  | cons node nodes ih =>
    show node.comments ++ commentsList nodes = _
    rw [ih, List.flatMap_cons]

theorem commentsElements_eq (elements : List TupleElement) :
    commentsElements elements = elements.flatMap (·.type.comments) := by
  induction elements with
  | nil => rfl
  | cons element elements ih =>
    obtain ⟨type, optional, rest⟩ := element
    show type.comments ++ commentsElements elements = _
    rw [ih, List.flatMap_cons]

theorem commentsMembers_eq (members : List TypeMember) :
    commentsMembers members = members.flatMap TypeMember.comments := by
  induction members with
  | nil => rfl
  | cons member members ih =>
    rw [List.flatMap_cons, ← ih]
    cases member with
    | property p =>
      obtain ⟨leadingComments, readonly, name, optional, type⟩ := p
      show leadingComments ++ (type.comments ++ commentsMembers members) = _
      rw [TypeMember.comments, List.append_assoc]
    | index i =>
      obtain ⟨leadingComments, readonly, parameter, key, value⟩ := i
      show leadingComments ++ (key.comments ++ (value.comments ++ commentsMembers members)) = _
      rw [TypeMember.comments, List.append_assoc, List.append_assoc]

end TypeNode

namespace Statement

/-- The comments in front of a statement. -/
def leadingComments : Statement → List String
  | .typeAlias a => a.leadingComments
  | .interface i => i.leadingComments
  | .verbatim v => v.leadingComments

/-- The comments of the members inside of a statement, in document order. -/
def innerComments : Statement → List String
  | .typeAlias a => a.type.comments
  | .interface i => i.heritage.flatMap (·.comments) ++ i.members.flatMap (·.comments)
  | .verbatim _ => []

end Statement

namespace Syntax

/-- Whether an item is a statement; the empty one is none. -/
def ItemSyntax.isStatement : ItemSyntax → Bool
  | .empty _ => false
  | _ => true

end Syntax

namespace Reading

open Syntax

variable {source : List Char}

/-! ## What readers take -/

/-- A comment that a reading up to a place can take or leave out. -/
def GoneBy (place : Nat) (comment : Comment) : Prop :=
  comment.span.start < place ∨ comment.span.stop ≤ place

/-- What a reader gives and the comments that it hands out have a property. Those are some of the
first comments, of which none that lies behind a place is touched. -/
def Hands {α : Type} (source : List Char) (place : Nat) (post : α → List String → Prop)
    (reader : Reader α) : Prop :=
  ∀ comments value left, reader.run comments = .ok (value, left) → ∃ gone taken : List Comment,
    comments = gone ++ left ∧ taken.Sublist gone ∧ (∀ comment ∈ gone, GoneBy place comment) ∧
      post value (taken.map (commentText source))

theorem run_takeComments {start : Nat} {comments : List Comment} :
    (takeComments source start).run comments =
      .ok ((comments.takeWhile (·.span.stop ≤ start)).map (commentText source),
        comments.dropWhile (·.span.stop ≤ start)) := by
  show Except.ok ((comments.span (·.span.stop ≤ start)).1.map (commentText source),
    (comments.span (·.span.stop ≤ start)).2) = _
  rw [List.span_eq_takeWhile_dropWhile]

namespace Hands

variable {α β : Type} {place : Nat} {P : α → List String → Prop} {Q : β → List String → Prop}
  {reader : Reader α} {f : α → Reader β}

protected theorem pure {a : α} (h : P a []) : Hands source place P (pure a) := by
  intro comments value left hrun
  cases hrun
  exact ⟨[], [], rfl, .refl _, List.forall_mem_nil _, h⟩

protected theorem bind (hreader : Hands source place P reader)
    (hf : ∀ a texts, P a texts → Hands source place (fun b more => Q b (texts ++ more)) (f a)) :
    Hands source place Q (reader >>= f) := by
  intro comments value left hrun
  obtain ⟨a, between, hfirst, hthen⟩ := exists_runs_of_bind hrun
  obtain ⟨gone, taken, hcomments, htaken, hgone, hvalue⟩ := hreader comments a between hfirst
  obtain ⟨gone', taken', hcomments', htaken', hgone', hvalue'⟩ :=
    hf a _ hvalue between value left hthen
  refine ⟨gone ++ gone', taken ++ taken', ?_, htaken.append htaken',
    List.forall_mem_append.mpr ⟨hgone, hgone'⟩, ?_⟩
  · rw [hcomments, hcomments', List.append_assoc]
  · rw [List.map_append]
    exact hvalue'

theorem mono {R : α → List String → Prop} (h : Hands source place P reader)
    (himp : ∀ a texts, P a texts → R a texts) : Hands source place R reader := by
  intro comments value left hrun
  obtain ⟨gone, taken, hcomments, htaken, hgone, hvalue⟩ := h comments value left hrun
  exact ⟨gone, taken, hcomments, htaken, hgone, himp value _ hvalue⟩

theorem refuse {reason : Unsupported} {span : Span} :
    Hands source place P (Reading.refuse reason span) := by
  intro comments value left hrun
  cases hrun

/-- What ends in front of a place is taken. -/
theorem takeComments {start : Nat} (hstart : start ≤ place) :
    Hands source place (fun read texts => read = texts) (takeComments source start) := by
  intro comments value left hrun
  rw [run_takeComments] at hrun
  cases hrun
  refine ⟨comments.takeWhile (·.span.stop ≤ start), comments.takeWhile (·.span.stop ≤ start),
    List.takeWhile_append_dropWhile.symm, .refl _, fun comment hmem => .inr ?_, rfl⟩
  have hended := List.mem_takeWhile_imp hmem
  exact Nat.le_trans (of_decide_eq_true hended) hstart

/-- What begins in front of a place is left out. -/
theorem dropComments {stop : Nat} (hstop : stop ≤ place) :
    Hands source place (fun _ texts => texts = []) (dropComments stop) := by
  intro comments value left hrun
  cases hrun
  refine ⟨comments.takeWhile (·.span.start < stop), [], List.takeWhile_append_dropWhile.symm,
    List.nil_sublist _, fun comment hmem => .inl ?_, rfl⟩
  have hbegun := List.mem_takeWhile_imp hmem
  exact Nat.lt_of_lt_of_le (of_decide_eq_true hbegun) hstop

end Hands

/-! ## Types and members -/

/-- A reader of types hands out the comments of the members inside of the type. -/
def HandsType (source : List Char) (place : Nat) : Reader TypeNode → Prop :=
  Hands source place fun node texts => node.comments = texts

variable {place : Nat}

theorem hands_typeNodes {types : List TypeSyntax}
    (h : ∀ type ∈ types, HandsType source place (typeNode source type)) :
    Hands source place (fun nodes texts => nodes.flatMap (·.comments) = texts)
      (typeNodes source types) := by
  induction types with
  | nil =>
    rw [typeNodes]
    exact .pure rfl
  | cons type types ih =>
    obtain ⟨htype, htypes⟩ := List.forall_mem_cons.mp h
    rw [typeNodes]
    refine htype.bind fun node texts hnode => (ih htypes).bind fun nodes more hnodes => .pure ?_
    rw [List.flatMap_cons, hnode, hnodes, List.append_nil]

theorem hands_tupleElements {elements : List TupleElementSyntax}
    (h : ∀ element ∈ elements, HandsType source place (typeNode source element.type)) :
    Hands source place (fun nodes texts => nodes.flatMap (·.type.comments) = texts)
      (tupleElements source elements) := by
  induction elements with
  | nil =>
    rw [tupleElements]
    exact .pure rfl
  | cons element elements ih =>
    obtain ⟨span, labelled, form, type⟩ := element
    obtain ⟨htype, helements⟩ := List.forall_mem_cons.mp h
    rw [tupleElements]
    split
    · exact .bind .refuse fun _ _ (hnever : False) => hnever.elim
    · refine htype.bind fun node texts hnode =>
        (ih helements).bind fun nodes more hnodes => .pure ?_
      rw [List.flatMap_cons, hnode, hnodes, List.append_nil]

theorem hands_propertyName {span : Span} {key : MemberKey} :
    Hands source place (fun _ texts => texts = []) (propertyName source span key) := by
  cases key with
  | word | string | number => exact .pure rfl
  | computed | other => exact .refuse

/-- A member has the comments that it is given, and hands out those inside of its types. -/
theorem hands_typeMember {leadingComments : List String} {member : MemberSyntax}
    (h : ∀ type ∈ member.types, HandsType source place (typeNode source type)) :
    Hands source place (fun node texts => node.comments = leadingComments ++ texts)
      (typeMember source leadingComments member) := by
  cases member with
  | property span readonly key optional type =>
    rw [typeMember]
    refine hands_propertyName.bind fun name texts hname => ?_
    subst hname
    cases type with
    | none => exact .refuse
    | some type =>
      refine (h type (List.mem_singleton_self type)).bind fun node texts hnode => .pure ?_
      rw [TypeMember.comments, hnode, List.append_nil, List.nil_append]
  | index span readonly parameter key value =>
    cases value with
    | none =>
      rw [typeMember]
      exact .refuse
    | some value =>
      rw [typeMember]
      obtain ⟨hkey, hvalue⟩ := List.forall_mem_cons.mp h
      refine hkey.bind fun keyNode texts hkeyNode =>
        (hvalue value (List.mem_singleton_self value)).bind fun valueNode more hvalueNode =>
          .pure ?_
      rw [TypeMember.comments, hkeyNode, hvalueNode, List.append_nil]
  | method span | signature span =>
    rw [typeMember]
    exact .refuse

theorem hands_typeMembers {members : List MemberSyntax}
    (hspans : ∀ member ∈ members, member.span.Within place)
    (h : ∀ member ∈ members, ∀ type ∈ member.types,
      HandsType source place (typeNode source type)) :
    Hands source place (fun nodes texts => nodes.flatMap (·.comments) = texts)
      (typeMembers source members) := by
  induction members with
  | nil =>
    rw [typeMembers]
    exact .pure rfl
  | cons member members ih =>
    obtain ⟨hspan, hspans⟩ := List.forall_mem_cons.mp hspans
    obtain ⟨hmember, hmembers⟩ := List.forall_mem_cons.mp h
    rw [typeMembers]
    -- What ends in front of the member, what is inside of it, and what is left out up to its end.
    refine (Hands.takeComments hspan.1).bind fun leading texts hleading =>
      (hands_typeMember hmember).bind fun node inner hnode =>
        (Hands.dropComments hspan.2).bind fun _ none hnone =>
          (ih hspans hmembers).bind fun nodes more hnodes => .pure ?_
    rw [List.flatMap_cons, hnode, hnodes, hleading, hnone]
    simp only [List.append_assoc, List.nil_append, List.append_nil]

theorem comments_compound {make : List TypeNode → TypeNode} {nodes : List TypeNode}
    (hmake : (make nodes).comments = nodes.flatMap (·.comments)) :
    (compound make nodes).comments = nodes.flatMap (·.comments) := by
  match nodes with
  | [node] => exact (List.append_nil _).symm
  | [] | _ :: _ :: _ => exact hmake

/-- The comments of the members inside of a type are handed out in document order, and nothing that
lies behind the type is touched. -/
theorem hands_typeNode {type : TypeSyntax} (h : type.Within place) :
    HandsType source place (typeNode source type) := by
  -- By the form of the type. Comments are taken by the members of a literal only; all other forms
  -- read their parts one after the other.
  induction h with
  | keyword | string | number | boolean =>
    rw [typeNode]
    exact .pure rfl
  | reference _ ih =>
    rw [typeNode]
    refine (hands_typeNodes ih).bind fun nodes texts hnodes => .pure ?_
    rw [← hnodes, List.append_nil]
    exact TypeNode.commentsList_eq nodes
  | array _ ih =>
    rw [typeNode]
    refine ih.bind fun node texts hnode => .pure ?_
    rw [← hnode, List.append_nil]
    rfl
  | tuple _ ih =>
    rw [typeNode]
    refine (hands_tupleElements ih).bind fun nodes texts hnodes => .pure ?_
    rw [← hnodes, List.append_nil]
    exact TypeNode.commentsElements_eq nodes
  | union _ ih =>
    rw [typeNode]
    refine (hands_typeNodes ih).bind fun nodes texts hnodes => .pure ?_
    rw [← hnodes, List.append_nil]
    exact comments_compound (TypeNode.commentsList_eq nodes)
  | intersection _ ih =>
    rw [typeNode]
    refine (hands_typeNodes ih).bind fun nodes texts hnodes => .pure ?_
    rw [← hnodes, List.append_nil]
    exact comments_compound (TypeNode.commentsList_eq nodes)
  | parenthesized _ ih =>
    rw [typeNode]
    refine ih.bind fun node texts hnode => .pure ?_
    rw [← hnode, List.append_nil]
    rfl
  | literal hspans _ ih =>
    rw [typeNode]
    refine (hands_typeMembers hspans ih).bind fun nodes texts hnodes => .pure ?_
    rw [← hnodes, List.append_nil]
    exact TypeNode.commentsMembers_eq nodes
  | unmodelled =>
    rw [typeNode]
    exact .refuse

/-! ## Statements -/

theorem hands_heritageName {expression : ExprSyntax} :
    Hands source place (fun _ texts => texts = []) (heritageName expression) := by
  fun_induction heritageName expression with
  | case1 => exact .pure rfl
  | case2 span object property ih =>
    refine ih.bind fun name texts hname => .pure ?_
    rw [hname, List.append_nil]
  | case3 | case4 => exact .refuse

theorem hands_heritage {items : List HeritageSyntax}
    (h : ∀ item ∈ items, ∀ type ∈ item.arguments, type.Within place) :
    Hands source place (fun nodes texts => nodes.flatMap (·.comments) = texts)
      (heritage source items) := by
  induction items with
  | nil => exact .pure rfl
  | cons item items ih =>
    obtain ⟨hitem, hitems⟩ := List.forall_mem_cons.mp h
    unfold heritage
    refine hands_heritageName.bind fun name none hnone =>
      (hands_typeNodes fun type hmem => hands_typeNode (hitem type hmem)).bind
        fun nodes texts hnodes => (ih hitems).bind fun others more hothers => .pure ?_
    subst hnone
    rw [List.flatMap_cons, hothers, List.append_nil, List.nil_append, ← hnodes]
    show TypeNode.commentsList nodes ++ more = _
    rw [TypeNode.commentsList_eq]

/-- A statement was read, with its own comments and with those of the members inside of it. -/
def IsReadWith (leading inner : List String) (read : Option Statement) : Prop :=
  ∃ s, read = some s ∧ s.leadingComments = leading ∧ s.innerComments = inner

/-- A statement takes what ends in front of it, and then what its members take; it touches nothing
that lies behind its own end. -/
theorem statement_eq_takeComments (source : List Char) {item : ItemSyntax}
    (hitem : item.isStatement = true) (h : item.Within item.span.stop) :
    ∃ behind, statement source item = takeComments source item.span.start >>= behind ∧
      ∀ leading, Hands source item.span.stop (fun read inner => IsReadWith leading inner read)
        (behind leading) := by
  -- Once its parts have been read, a statement leaves out what begins in front of its end.
  have hclosed (s : Statement) : Hands source item.span.stop
      (fun read texts => read = some s ∧ texts = []) (do
        let read ← (pure s : Reader Statement)
        dropComments item.span.stop
        return some read) := by
    refine .bind (P := fun read texts => read = s ∧ texts = []) (.pure ⟨rfl, rfl⟩)
      fun read none hread => (Hands.dropComments (Nat.le_refl _)).bind fun _ more hmore => .pure ?_
    rw [hread.1, hread.2, hmore]
    exact ⟨rfl, rfl⟩
  unfold statement
  match item, h with
  | .alias span modifiers name type, h =>
    refine ⟨_, rfl, fun leading => (hands_typeNode h).bind fun node texts hnode =>
      (hclosed (.typeAlias _)).mono fun read more hread => ⟨_, hread.1, rfl, ?_⟩⟩
    rw [hread.2, List.append_nil]
    exact hnode
  | .interface span modifiers name parents members, ⟨hparents, hmembers⟩ =>
    refine ⟨_, rfl, fun leading => (hands_heritage hparents).bind fun nodes texts hnodes =>
      (hands_typeMembers (fun member hmem => (hmembers member hmem).span)
        fun member hmem type htype =>
          hands_typeNode ((hmembers member hmem).types type htype)).bind fun others more hothers =>
            (hclosed (.interface _)).mono fun read none hread => ⟨_, hread.1, rfl, ?_⟩⟩
    rw [hread.2, List.append_nil, ← hnodes, ← hothers]
    rfl
  | .directive span raw, _ | .other span, _ =>
    exact ⟨_, rfl, fun leading =>
      (hclosed (.verbatim _)).mono fun read none hread => ⟨_, hread.1, rfl, hread.2.symm⟩⟩
  | .empty span, _ => cases hitem

end Reading

end Declutter
