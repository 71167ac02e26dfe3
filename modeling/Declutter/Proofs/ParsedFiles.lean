import Declutter.Proofs.CleanUp
import Declutter.Proofs.Parsing.Statements
import Declutter.Proofs.Parsing.Words
import Declutter.Proofs.RootEdits
import Declutter.Reading

/-!
# Files that texts are read as

`SourceFile.canonical_of_ofText`: in a file that is read from a text, every union has several
members and none of them is a union without parentheses, every intersection has several members
and none of them is a compound without parentheses, no array has a compound without parentheses
for its element, and no tuple element is optional and a rest at once. A reference begins with a
name, unless an escape for a point is in the text.

The grammar reads regular types only. So what is left to say is what becomes of these: a compound
with one member is that member, and all other types become nodes of their own form.
-/

namespace Declutter

/-! ## Canonical types -/

namespace TypeNode

/-- What holds of each node of a type that was read. -/
def Canonical : TypeNode → Prop
  | .union members => 2 ≤ members.length ∧ ∀ member ∈ members, IsNoUnion member
  | .intersection members => 2 ≤ members.length ∧ ∀ member ∈ members, member.isCompound = false
  | .array element => element.isCompound = false
  | .tuple elements => ∀ element ∈ elements, ¬ (element.optional = true ∧ element.rest = true)
  | _ => True

/-- A node that is no reference, or whose name begins with a word of a sort. -/
def BeginsWith (word : String → Prop) : TypeNode → Prop
  | .reference name _ => ∃ first, word first ∧ first.toList <+: name.toList
  | _ => True

/-- A node as it was read, with words of a sort. -/
structure AsRead (word : String → Prop) (node : TypeNode) : Prop where
  canonical : node.Canonical
  beginsWith : node.BeginsWith word

end TypeNode

namespace Reading

open Syntax

open TypeNode (IsNoUnion)

variable {source : List Char} {word : String → Prop}

/-! ## What readers give -/

/-- A reader that goes on with another one has given a value in between. -/
theorem exists_runs_of_bind {α β : Type} {reader : Reader α} {f : α → Reader β}
    {comments left : List Comment} {b : β}
    (hrun : (reader >>= f).run comments = .ok (b, left)) :
    ∃ a between, reader.run comments = .ok (a, between) ∧ (f a).run between = .ok (b, left) := by
  rw [StateT.run_bind] at hrun
  cases hfirst : reader.run comments with
  | error refusal =>
    rw [hfirst] at hrun
    cases hrun
  | ok read =>
    rw [hfirst] at hrun
    exact ⟨read.1, read.2, rfl, hrun⟩

/-- What a reader gives has a property. -/
def Gives {α : Type} (post : α → Prop) (reader : Reader α) : Prop :=
  ∀ comments result, reader.run comments = .ok result → post result.1

namespace Gives

variable {α β : Type} {P : α → Prop} {Q : β → Prop} {reader : Reader α} {f : α → Reader β}

protected theorem pure {a : α} (h : P a) : Gives P (pure a) := by
  intro comments result hresult
  cases hresult
  exact h

protected theorem bind (hreader : Gives P reader) (hf : ∀ a, P a → Gives Q (f a)) :
    Gives Q (reader >>= f) := by
  intro comments result hresult
  obtain ⟨a, between, hfirst, hthen⟩ := exists_runs_of_bind hresult
  exact hf a (hreader comments (a, between) hfirst) between result hthen

/-- Nothing need be known of the value of a first step. -/
theorem skip (hf : ∀ a, Gives Q (f a)) : Gives Q (reader >>= f) :=
  Gives.bind (P := fun _ => True) (fun _ _ _ => trivial) fun a _ => hf a

theorem refuse {reason : Unsupported} {span : Span} : Gives P (refuse reason span) := by
  intro comments result hresult
  cases hresult

end Gives

/-! ## Types -/

/-- A node that was read from a type, and can stand wherever the type can. -/
structure Stands (word : String → Prop) (type : TypeSyntax) (node : TypeNode) : Prop where
  asRead : TypeNode.Everywhere (·.AsRead word) node
  simple : type.isCompound = false → node.isCompound = false
  noUnion : type.isUnion = false → node.IsNoUnion

theorem isNoUnion_of_isCompound {node : TypeNode} (h : node.isCompound = false) :
    node.IsNoUnion := by
  rintro members rfl
  cases h

/-- A node that is no compound stands where any type can. -/
theorem stands_of_simple {type : TypeSyntax} {node : TypeNode}
    (hnode : node.isCompound = false) (h : node.AsRead word)
    (hchildren : ∀ child ∈ node.children, TypeNode.Everywhere (·.AsRead word) child) :
    Stands word type node :=
  ⟨TypeNode.everywhere_iff.mpr ⟨h, hchildren⟩, fun _ => hnode,
    fun _ => isNoUnion_of_isCompound hnode⟩

/-- The nodes of several types, one for each. -/
theorem gives_typeNodes {types : List TypeSyntax}
    (h : ∀ type ∈ types, Gives (Stands word type) (typeNode source type)) :
    Gives (List.Forall₂ (Stands word) types) (typeNodes source types) := by
  induction types with
  | nil =>
    rw [typeNodes]
    exact .pure .nil
  | cons type types ih =>
    rw [typeNodes]
    obtain ⟨htype, htypes⟩ := List.forall_mem_cons.mp h
    exact htype.bind fun node hnode => (ih htypes).bind fun nodes hnodes =>
      .pure (.cons hnode hnodes)

theorem everywhere_of_forall₂ {types : List TypeSyntax} {nodes : List TypeNode}
    (h : List.Forall₂ (Stands word) types nodes) :
    ∀ node ∈ nodes, TypeNode.Everywhere (·.AsRead word) node := by
  induction h with
  | nil => nofun
  | cons hnode _ ih => exact List.forall_mem_cons.mpr ⟨hnode.asRead, ih⟩

/-- A tuple element that was read. -/
def ReadElement (word : String → Prop) (element : TupleElement) : Prop :=
  ¬ (element.optional = true ∧ element.rest = true) ∧
    TypeNode.Everywhere (·.AsRead word) element.type

theorem gives_tupleElements {elements : List TupleElementSyntax}
    (h : ∀ element ∈ elements, Gives (Stands word element.type) (typeNode source element.type)) :
    Gives (fun nodes => ∀ node ∈ nodes, ReadElement word node) (tupleElements source elements) := by
  induction elements with
  | nil =>
    rw [tupleElements]
    exact .pure nofun
  | cons element elements ih =>
    obtain ⟨span, labelled, form, type⟩ := element
    obtain ⟨htype, helements⟩ := List.forall_mem_cons.mp h
    rw [tupleElements]
    have hform : ¬ (decide (form = .optional) = true ∧ decide (form = .rest) = true) := by
      cases form <;> decide
    have hread : Gives (fun nodes => ∀ node ∈ nodes, ReadElement word node) (do
        let node ← typeNode source type
        return TupleElement.mk node (form = .optional) (form = .rest) ::
          (← tupleElements source elements)) :=
      htype.bind fun node hnode => (ih helements).bind fun nodes hnodes =>
        have helement : ReadElement word ⟨node, form = .optional, form = .rest⟩ :=
          ⟨hform, hnode.asRead⟩
        .pure (List.forall_mem_cons.mpr ⟨helement, hnodes⟩)
    split
    · exact .skip fun _ => hread
    · exact hread

theorem gives_typeMember {comments : List String} {member : MemberSyntax}
    (h : ∀ type ∈ member.types, Gives (Stands word type) (typeNode source type)) :
    Gives (fun node => ∀ type ∈ node.types, TypeNode.Everywhere (·.AsRead word) type)
      (typeMember source comments member) := by
  cases member with
  | property span readonly key optional type =>
    rw [typeMember]
    refine .skip fun name => ?_
    cases type with
    | some type =>
      refine (h type (List.mem_singleton_self type)).bind fun node hnode => .pure ?_
      exact List.forall_mem_singleton.mpr hnode.asRead
    | none => exact .refuse
  | index span readonly parameter key value =>
    cases value with
    | some value =>
      rw [typeMember]
      obtain ⟨hkey, hvalue⟩ := List.forall_mem_cons.mp h
      refine hkey.bind fun keyNode hkeyNode =>
        (hvalue value (List.mem_singleton_self value)).bind fun valueNode hvalueNode => .pure ?_
      exact List.forall_mem_cons.mpr
        ⟨hkeyNode.asRead, List.forall_mem_singleton.mpr hvalueNode.asRead⟩
    | none =>
      rw [typeMember]
      exact .refuse
  | method span =>
    rw [typeMember]
    exact .refuse
  | signature span =>
    rw [typeMember]
    exact .refuse

theorem gives_typeMembers {members : List MemberSyntax}
    (h : ∀ member ∈ members, ∀ type ∈ member.types,
      Gives (Stands word type) (typeNode source type)) :
    Gives (fun nodes => ∀ type ∈ nodes.flatMap (·.types), TypeNode.Everywhere (·.AsRead word) type)
      (typeMembers source members) := by
  induction members with
  | nil =>
    rw [typeMembers]
    exact .pure nofun
  | cons member members ih =>
    obtain ⟨hmember, hmembers⟩ := List.forall_mem_cons.mp h
    rw [typeMembers]
    refine .skip fun comments => (gives_typeMember hmember).bind fun node hnode => .skip fun _ =>
      (ih hmembers).bind fun nodes hnodes => .pure fun type hmem => ?_
    rw [List.flatMap_cons, List.mem_append] at hmem
    exact hmem.elim (hnode type) (hnodes type)

/-- A compound of several nodes, or the only node there is. -/
theorem compound_cases (make : List TypeNode → TypeNode) {nodes : List TypeNode}
    (hne : nodes ≠ []) :
    (∃ node, nodes = [node] ∧ compound make nodes = node) ∨
      (2 ≤ nodes.length ∧ compound make nodes = make nodes) := by
  match nodes with
  | [node] => exact .inl ⟨node, rfl, rfl⟩
  | _ :: _ :: _ => exact .inr ⟨by simp, rfl⟩

theorem forall₂_ne_nil {types : List TypeSyntax} {nodes : List TypeNode} (hne : types ≠ [])
    (h : List.Forall₂ (Stands word) types nodes) : nodes ≠ [] := by
  rintro rfl
  cases h
  exact hne rfl

/-- What follows for a node from what holds of the type it was read from holds of all nodes. -/
theorem forall_of_forall₂ {P : TypeSyntax → Prop} {Q : TypeNode → Prop} {types : List TypeSyntax}
    {nodes : List TypeNode} (h : List.Forall₂ (Stands word) types nodes)
    (himp : ∀ type node, Stands word type node → P type → Q node)
    (htypes : ∀ type ∈ types, P type) : ∀ node ∈ nodes, Q node := by
  induction h with
  | nil => nofun
  | cons hnode _ ih =>
    obtain ⟨htype, htypes⟩ := List.forall_mem_cons.mp htypes
    exact List.forall_mem_cons.mpr ⟨himp _ _ hnode htype, ih htypes⟩

theorem stands_union {span : Span} {types : List TypeSyntax} {nodes : List TypeNode}
    (hne : types ≠ []) (hsimple : ∀ type ∈ types, type.isUnion = false)
    (h : List.Forall₂ (Stands word) types nodes) :
    Stands word (.union span types) (compound .union nodes) := by
  have hnodes := everywhere_of_forall₂ h
  have hnoUnion := forall_of_forall₂ h (fun _ _ hnode => hnode.noUnion) hsimple
  refine ⟨?_, nofun, nofun⟩
  rcases compound_cases .union (forall₂_ne_nil hne h) with ⟨node, rfl, heq⟩ | ⟨hlength, heq⟩
  · rw [heq]
    exact hnodes node (List.mem_singleton_self node)
  · rw [heq]
    exact TypeNode.everywhere_iff.mpr ⟨⟨⟨hlength, hnoUnion⟩, trivial⟩, hnodes⟩

theorem stands_intersection {span : Span} {types : List TypeSyntax} {nodes : List TypeNode}
    (hne : types ≠ []) (hsimple : ∀ type ∈ types, type.isCompound = false)
    (h : List.Forall₂ (Stands word) types nodes) :
    Stands word (.intersection span types) (compound .intersection nodes) := by
  have hnodes := everywhere_of_forall₂ h
  have hcompound := forall_of_forall₂ h (fun _ _ hnode => hnode.simple) hsimple
  rcases compound_cases .intersection (forall₂_ne_nil hne h) with ⟨node, rfl, heq⟩ | ⟨hlength, heq⟩
  · rw [heq]
    exact ⟨hnodes node (List.mem_singleton_self node), nofun, fun _ =>
      isNoUnion_of_isCompound (hcompound node (List.mem_singleton_self node))⟩
  · rw [heq]
    exact ⟨TypeNode.everywhere_iff.mpr ⟨⟨⟨hlength, hcompound⟩, trivial⟩, hnodes⟩, nofun,
      fun _ => nofun⟩

theorem prefix_intercalate (first : String) (others : List String) :
    first.toList <+: (".".intercalate (first :: others)).toList := by
  cases others with
  | nil => simp [String.intercalate_singleton]
  | cons second others =>
    rw [String.intercalate_cons_of_ne_nil (List.cons_ne_nil _ _), String.toList_append,
      String.toList_append, List.append_assoc]
    exact List.prefix_append _ _

theorem stands_typeNode {type : TypeSyntax} (h : type.Regular word) :
    Gives (Stands word type) (typeNode source type) := by
  have hleaf : ∀ (type : TypeSyntax) (node : TypeNode), node.isCompound = false →
      node.AsRead word → node.children = [] → Stands word type node := by
    intro type node hsimple hnode hchildren
    exact stands_of_simple hsimple hnode (by simp [hchildren])
  induction h with
  | keyword | string | number | boolean =>
    rw [typeNode]
    exact .pure (hleaf _ _ rfl ⟨trivial, trivial⟩ rfl)
  | reference hfirst _ ih =>
    rw [typeNode]
    exact (gives_typeNodes ih).bind fun nodes hnodes => .pure (stands_of_simple rfl
      ⟨trivial, _, hfirst, prefix_intercalate _ _⟩ (everywhere_of_forall₂ hnodes))
  | array hsimple _ ih =>
    rw [typeNode]
    exact ih.bind fun node hnode => .pure (stands_of_simple rfl
      ⟨hnode.simple hsimple, trivial⟩ (List.forall_mem_singleton.mpr hnode.asRead))
  | tuple _ ih =>
    rw [typeNode]
    refine (gives_tupleElements ih).bind fun nodes hnodes => .pure (stands_of_simple rfl
      ⟨fun node hmem => (hnodes node hmem).1, trivial⟩ ?_)
    intro child hchild
    obtain ⟨node, hmem, rfl⟩ := List.mem_map.mp hchild
    exact (hnodes node hmem).2
  | union hne hsimple _ ih =>
    rw [typeNode]
    exact (gives_typeNodes ih).bind fun nodes hnodes => .pure (stands_union hne hsimple hnodes)
  | intersection hne hsimple _ ih =>
    rw [typeNode]
    exact (gives_typeNodes ih).bind fun nodes hnodes =>
      .pure (stands_intersection hne hsimple hnodes)
  | parenthesized _ ih =>
    rw [typeNode]
    exact ih.bind fun node hnode => .pure (stands_of_simple rfl ⟨trivial, trivial⟩
      (List.forall_mem_singleton.mpr hnode.asRead))
  | literal _ ih =>
    rw [typeNode]
    exact (gives_typeMembers ih).bind fun nodes hnodes =>
      .pure (stands_of_simple rfl ⟨trivial, trivial⟩ hnodes)
  | unmodelled =>
    rw [typeNode]
    exact .refuse

/-! ## Statements -/

theorem gives_heritageName {expression : ExprSyntax} (h : expression.Regular word) :
    Gives (fun name => ∃ first, word first ∧ first.toList <+: name.toList)
      (heritageName expression) := by
  fun_induction heritageName expression with
  | case1 span text => exact .pure ⟨text, h, List.prefix_refl _⟩
  | case2 span object property ih =>
    refine (ih h).bind fun name hname => .pure ?_
    obtain ⟨first, hfirst, hprefix⟩ := hname
    refine ⟨first, hfirst, hprefix.trans ?_⟩
    rw [String.toList_append, String.toList_append, List.append_assoc]
    exact List.prefix_append _ _
  | case3 span object => exact .refuse
  | case4 expression => exact .refuse

theorem gives_heritage {items : List HeritageSyntax} (h : ∀ item ∈ items, item.Regular word) :
    Gives (fun nodes => ∀ node ∈ nodes, TypeNode.Everywhere (·.AsRead word) node)
      (heritage source items) := by
  induction items with
  | nil => exact .pure nofun
  | cons item items ih =>
    obtain ⟨hitem, hitems⟩ := List.forall_mem_cons.mp h
    unfold heritage
    refine (gives_heritageName hitem.expression).bind fun name hname =>
      (gives_typeNodes fun type hmem => stands_typeNode (hitem.arguments type hmem)).bind
        fun nodes hnodes => (ih hitems).bind fun others hothers => .pure ?_
    exact List.forall_mem_cons.mpr ⟨TypeNode.everywhere_iff.mpr ⟨⟨trivial, hname⟩,
      everywhere_of_forall₂ hnodes⟩, hothers⟩

/-- A statement as it was read: it is called by a word of a sort, and so are its types. -/
structure ReadStatement (word : String → Prop) (statement : Statement) : Prop where
  name : ∀ name ∈ statement.name?, word name
  types : ∀ type ∈ statement.types, TypeNode.Everywhere (·.AsRead word) type

theorem gives_statement {item : ItemSyntax} (h : item.Regular word) :
    Gives (fun statement => ∀ s ∈ statement, ReadStatement word s) (statement source item) := by
  have hgiven (s : Statement) (hs : ReadStatement word s) (place : Nat) :
      Gives (fun statement => ∀ s ∈ statement, ReadStatement word s) (do
        let read ← (pure s : Reader Statement)
        dropComments place
        return some read) := by
    refine .bind (P := (· = s)) (.pure rfl) fun read hread => .skip fun _ => .pure ?_
    rintro _ ⟨⟩
    exact hread ▸ hs
  have hnamed {name : String} (h : word name) : ∀ other ∈ some name, word other := by
    rintro _ ⟨⟩
    exact h
  have hverbatim (v : Verbatim) : ReadStatement word (.verbatim v) :=
    ⟨fun name hname => (by cases hname), List.forall_mem_nil _⟩
  unfold statement
  match item, h with
  | .empty span, _ => exact .pure nofun
  | .alias span modifiers name type, h =>
    exact .skip fun comments => (stands_typeNode h.2).bind fun node hnode =>
      hgiven (.typeAlias _) ⟨hnamed h.1, List.forall_mem_singleton.mpr hnode.asRead⟩ _
  | .interface span modifiers name parents members, ⟨hname, hparents, hmembers⟩ =>
    exact .skip fun comments => (gives_heritage hparents).bind fun nodes hnodes =>
      (gives_typeMembers fun member hmem type htype =>
        stands_typeNode (hmembers member hmem type htype)).bind fun others hothers =>
          hgiven (.interface _) ⟨hnamed hname, fun type hmem =>
            (List.mem_append.mp hmem).elim (hnodes type) (hothers type)⟩ _
  | .directive span raw, _ =>
    exact .skip fun comments => hgiven (.verbatim _) (hverbatim _) _
  | .other span, _ =>
    exact .skip fun comments => hgiven (.verbatim _) (hverbatim _) _

theorem gives_statements {items : List ItemSyntax} (h : ∀ item ∈ items, item.Regular word) :
    Gives (fun statements => ∀ s ∈ statements, ReadStatement word s)
      (statements source items) := by
  induction items with
  | nil => exact .pure nofun
  | cons item items ih =>
    obtain ⟨hitem, hitems⟩ := List.forall_mem_cons.mp h
    refine (gives_statement hitem).bind fun first hfirst => (ih hitems).bind fun others hothers =>
      .pure fun statement hmem => ?_
    rw [List.mem_append, Option.mem_toList] at hmem
    exact hmem.elim (hfirst statement) (hothers statement)

end Reading

/-! ## Texts -/

/-- A name that begins with no point has a first segment. -/
theorem referenceRoot_ne_empty {name : String} {c : Char} {cs : List Char}
    (hname : name.toList = c :: cs) (hc : c ≠ '.') : referenceRoot name ≠ "" := by
  intro hempty
  have hroot : (referenceRoot name).toList = c :: cs.takeWhile (· ≠ '.') := by
    rw [referenceRoot, String.toList_ofList, hname, List.takeWhile_cons_of_pos (by simpa using hc)]
  rw [hempty] at hroot
  cases hroot

theorem Reading.withoutMark_suffix (source : List Char) : withoutMark source <:+ source := by
  unfold withoutMark
  split
  · exact List.suffix_cons _ _
  · exact List.suffix_refl _

namespace Syntax

theorem Source.start_readFrom (text : List Char) : (start text).ReadFrom text :=
  ⟨⟨List.suffix_refl _, List.suffix_refl _⟩, none_readFrom, none_readFrom⟩

/-- The items of a text are regular, with words that are read from it. -/
theorem Source.regular_of_parse {text : List Char} {source : Source}
    (h : parse text = .ok source) :
    ∀ item ∈ source.items, item.Regular (Parser.Occurs (State.ReadFrom text)) := by
  have hregular : Yields (State.ReadFrom text) (fun items => ∀ item ∈ items,
      item.Regular (Parser.Occurs (State.ReadFrom text)))
      (readItems (.ofFuel (8 * (text.length + 8)))) := yields_readItems _
  have hyields := hregular (start text) (start_readFrom text)
  unfold parse at h
  dsimp only at h
  cases hrun : readItems (.ofFuel (8 * (text.length + 8))) (start text) with
  | error fault state =>
    rw [hrun] at h
    cases h
  | ok items state =>
    rw [hrun] at h hyields
    dsimp only at h
    split at h
    · cases h
    · cases h
      exact hyields.1

end Syntax

namespace SourceFile

/-- A file that a text is read as holds what the statements and comments of the text are read as. -/
theorem exists_read_of_ofText {text : String} {file : SourceFile} (h : ofText text = .ok file) :
    ∃ tree read, Syntax.Source.parse (Reading.withoutMark text.toList) = .ok tree ∧
      (Reading.statements text.toList tree.items).run tree.comments = .ok read ∧
        file.statements = read.1 ∧
          file.trailingComments = read.2.map (Reading.commentText text.toList) := by
  cases hparse : Syntax.Source.parse (Reading.withoutMark text.toList) with
  | error fault =>
    simp only [ofText, hparse] at h
    cases h
  | ok tree =>
    cases hread : (Reading.statements text.toList tree.items).run tree.comments with
    | error refusal =>
      simp only [ofText, hparse, Except.mapError, bind, Except.bind, hread] at h
      cases h
    | ok read =>
      simp only [ofText, hparse, Except.mapError, bind, Except.bind, hread] at h
      cases h
      exact ⟨tree, read, rfl, hread, rfl, rfl⟩

/-- The names and types of a file that a text is read as come from words of the text. -/
theorem readStatement_of_ofText {text : String} {file : SourceFile} (h : ofText text = .ok file) :
    ∀ statement ∈ file.statements, Reading.ReadStatement
      (Syntax.Parser.Occurs (Syntax.State.ReadFrom (Reading.withoutMark text.toList)))
      statement := by
  obtain ⟨tree, read, hparse, hread, hstatements, -⟩ := exists_read_of_ofText h
  rw [hstatements]
  exact Reading.gives_statements (Syntax.Source.regular_of_parse hparse) _ _ hread

/-- Every file that a text is read as is canonical, and its references begin with a name, unless an
escape for a point is in the text. -/
theorem canonical_of_ofText {text : String} {file : SourceFile} (h : ofText text = .ok file) :
    (∀ node ∈ file.visit, node.Canonical) ∧
      (¬ Syntax.HidesPoint text.toList → ∀ name arguments,
        .reference name arguments ∈ file.visit → referenceRoot name ≠ "") := by
  have hread := forall_visit_iff.mpr fun statement hmem =>
    (readStatement_of_ofText h statement hmem).types
  refine ⟨fun node hmem => (hread node hmem).canonical, fun hplain name arguments hmem => ?_⟩
  obtain ⟨first, hword, hprefix⟩ := (hread _ hmem).beginsWith
  obtain ⟨token, ⟨state, hstate, lexeme, hlexeme, rfl⟩, hfirst⟩ := hword
  have hparsed : ¬ Syntax.HidesPoint (Reading.withoutMark text.toList) := by
    rintro ⟨behind, hsuffix, hpoint⟩
    exact hplain ⟨behind, hsuffix.trans (Reading.withoutMark_suffix _), hpoint⟩
  obtain ⟨c, cs, htext, hc⟩ :=
    (hstate.current lexeme hlexeme).beginsWithoutPoint hparsed hfirst
  obtain ⟨rest, hrest⟩ := hprefix
  rw [htext, List.cons_append] at hrest
  exact referenceRoot_ne_empty hrest.symm hc

/-- `type A = | B & (C | D) | [(E | F)[], G.H?];` -/
def compounds : SourceFile :=
  ⟨[.typeAlias ⟨[], [], "A", .union [.intersection [.named "B",
      .parenthesized (.union [.named "C", .named "D"])],
    .tuple [⟨.array (.parenthesized (.union [.named "E", .named "F"])), false, false⟩,
      ⟨.named "G.H", true, false⟩]]⟩], []⟩

theorem canonical_compounds :
    ofText "type A = | B & (C | D) | [(E | F)[], G.H?];" = .ok compounds ∧
      (∀ node ∈ compounds.visit, node.Canonical) ∧
        ∀ name arguments, .reference name arguments ∈ compounds.visit → referenceRoot name ≠ "" :=
  have h : ofText "type A = | B & (C | D) | [(E | F)[], G.H?];" = .ok compounds := by
    decide +kernel
  ⟨h, (canonical_of_ofText h).1, (canonical_of_ofText h).2 fun ⟨_, hsuffix, _⟩ =>
    absurd (hsuffix.subset List.mem_cons_self) (by decide +kernel)⟩

/-- What the lexer notes in a trial is lost, so behind `export` an escape that stands for no
character of a word is not refused. -/
theorem exists_namelessReference_of_ofText :
    ∃ (text : String) (file : SourceFile) (name : String) (arguments : List TypeNode),
      ofText text = .ok file ∧ .reference name arguments ∈ file.visit ∧ referenceRoot name = "" :=
  ⟨"export type A = \\u002e;", ⟨[.typeAlias ⟨[], [.exported], "A", .named "."⟩], []⟩, ".", [],
    by decide +kernel, by simp [visit, Statement.types, TypeNode.named, TypeNode.visit,
      TypeNode.visitList], by decide +kernel⟩

end SourceFile

end Declutter
