import Declutter.Proofs.Nodes
import Declutter.Proofs.RoundTrip.Written

/-!
# Types as their texts have them

`settled` puts into a type what its text does not leave out: the parentheses that precedence
requires, and one list for an intersection whose members are intersections. Nothing else of a type
is lost in its text, as long as its names, numbers, lists and comments can be written at all:
`writes_settled`. Those types are the legible ones. The readable ones are legible, and have neither
comments nor names in lower case.
-/

namespace Declutter

open Printer Syntax

/-! ## Types that can be written -/

namespace Syntax

/-- Whether a word begins with a capital letter of ASCII. -/
def isCapitalized (word : String) : Bool := word.toList.head?.any Char.isUpper

/-- A word of a reference's name. -/
def isNameWord (word : String) : Bool := isPlainWord word && isCapitalized word

/-- What is capitalized has no meaning to the grammar. -/
theorem isReferenceWord_of_isNameWord {word : String} (h : isNameWord word = true) :
    isReferenceWord word = true := by
  simp only [isNameWord, isPlainWord, Bool.and_eq_true] at h
  obtain ⟨⟨-, hidentifier⟩, hcapital⟩ := h
  have hnone : (typeWords ++ keywords).all (fun word => !isCapitalized word) = true := by decide
  have hnot : word ∉ typeWords ++ keywords := fun hmem => by
    have hlower := List.all_eq_true.mp hnone word hmem
    rw [hcapital] at hlower
    cases hlower
  simp only [List.mem_append, not_or] at hnot
  simp [isReferenceWord, hnot, hidentifier]

end Syntax

/-- A name whose parts, between the points, are words of ASCII with a capital letter in front. -/
def isReferenceName (name : String) : Bool :=
  (name.toList.splitOn '.').all fun word => isNameWord (String.ofList word)

/-- A name whose parts, between the points, are words of ASCII that can be read as a reference. -/
def isQualifiedName (name : String) : Bool :=
  isWrittenName ((name.toList.splitOn '.').map String.ofList)

/-- No comments, a name of ASCII for a property, and a name of its own for a parameter. -/
def TypeMember.isReadable : TypeMember → Bool
  | .property p => p.leadingComments.isEmpty && p.name.toList.all isAscii
  | .index i => i.leadingComments.isEmpty && isPlainWord i.parameter &&
      (wordToken i.parameter).isBindable

/-- Comments that can be written, a name of ASCII for a property unless it stands in quotes, and a name of
its own for a parameter. -/
def TypeMember.isLegible : TypeMember → Bool
  | .property p => p.leadingComments.all (fun text => decide (IsCommentText text.toList)) &&
      (!isIdentifier p.name || p.name.toList.all isAscii)
  | .index i => i.leadingComments.all (fun text => decide (IsCommentText text.toList)) &&
      isPlainWord i.parameter && (wordToken i.parameter).isBindable

theorem isQualifiedName_of_isReferenceName {name : String} (h : isReferenceName name = true) :
    isQualifiedName name = true := by
  unfold isReferenceName at h
  unfold isQualifiedName
  cases hwords : name.toList.splitOn '.' with
  | nil => exact absurd hwords (List.splitOn_ne_nil _ _)
  | cons word words =>
    rw [hwords, List.all_eq_true] at h
    have hplain : ∀ part ∈ (word :: words).map String.ofList, isPlainWord part = true := by
      intro _ hmem
      obtain ⟨part, hpart, rfl⟩ := List.mem_map.mp hmem
      exact (Bool.and_eq_true_iff.mp (h part hpart)).1
    rw [List.map_cons, isWrittenName, isReferenceWord_of_isNameWord (h word List.mem_cons_self),
      Bool.true_and, List.all_eq_true]
    exact hplain

theorem TypeMember.isLegible_of_isReadable {member : TypeMember} (h : member.isReadable = true) :
    member.isLegible = true := by
  cases member with
  | property p =>
    simp only [isReadable, Bool.and_eq_true, List.isEmpty_iff] at h
    simp [isLegible, h]
  | index i =>
    simp only [isReadable, Bool.and_eq_true, List.isEmpty_iff] at h
    simp [isLegible, h]

namespace TypeNode

/-- Whether what a node holds besides its children can be read back from its text. -/
def isReadable : TypeNode → Bool
  | .literal (.number text) => isNumberText text.toList
  | .reference name _ => isReferenceName name
  | .tuple elements => !requiredAfterOptional elements &&
      elements.all fun element => !(element.optional && element.rest)
  | .union members | .intersection members => 2 ≤ members.length
  | .typeLiteral members => members.all (·.isReadable)
  | _ => true

/-- A type whose nodes can all be read back. -/
def Readable (node : TypeNode) : Prop := node.Everywhere fun below => below.isReadable = true

instance (node : TypeNode) : Decidable node.Readable :=
  inferInstanceAs (Decidable (∀ below ∈ node.visit, below.isReadable = true))

/-- Whether what a node holds besides its children can be read back from its text, with the comments in
it and with names in lower case. -/
def isLegible : TypeNode → Bool
  | .reference name _ => isQualifiedName name
  | .typeLiteral members => members.all (·.isLegible)
  | node => node.isReadable

/-- A type whose nodes are all legible. -/
def Legible (node : TypeNode) : Prop := node.Everywhere fun below => below.isLegible = true

instance (node : TypeNode) : Decidable node.Legible :=
  inferInstanceAs (Decidable (∀ below ∈ node.visit, below.isLegible = true))

theorem Readable.legible {node : TypeNode} (h : node.Readable) : node.Legible := by
  refine fun below hmem => ?_
  have hbelow := h below hmem
  cases below with
  | reference name => exact isQualifiedName_of_isReferenceName hbelow
  | typeLiteral members =>
    exact List.all_eq_true.mpr fun member hmember =>
      TypeMember.isLegible_of_isReadable (List.all_eq_true.mp hbelow member hmember)
  | _ => exact hbelow

/-! ## Settled types -/

/-- A type as members of an intersection. -/
def spread : TypeNode → List TypeNode
  | .intersection members => members
  | node => [node.guarded .intersectionMember]

mutual

/-- A type as its text has it, from the leaves up: a union that is a member of a union or an
intersection stands in parentheses, and so does either of them as the element of an array or as an
optional element of a tuple; an intersection that is a member of one is part of it. -/
def settled : TypeNode → TypeNode
  | .keyword word => .keyword word
  | .literal value => .literal value
  | .reference name arguments => .reference name (settledList arguments)
  | .array element => .array (element.settled.guarded .operand)
  | .tuple elements => .tuple (settledElements elements)
  | .union members => .union (settledAlternatives members)
  | .intersection members => .intersection (settledParts members)
  | .parenthesized inner => .parenthesized inner.settled
  | .typeLiteral members => .typeLiteral (settledMembers members)

def settledList : List TypeNode → List TypeNode
  | [] => []
  | node :: nodes => node.settled :: settledList nodes

/-- The members of a union. -/
def settledAlternatives : List TypeNode → List TypeNode
  | [] => []
  | node :: nodes => node.settled.guarded .unionMember :: settledAlternatives nodes

/-- The members of an intersection. -/
def settledParts : List TypeNode → List TypeNode
  | [] => []
  | node :: nodes => node.settled.spread ++ settledParts nodes

def settledElements : List TupleElement → List TupleElement
  | [] => []
  | ⟨type, optional, rest⟩ :: elements =>
    ⟨if optional then type.settled.guarded .operand else type.settled, optional, rest⟩ ::
      settledElements elements

def settledMembers : List TypeMember → List TypeMember
  | [] => []
  | .property ⟨comments, readonly, name, optional, type⟩ :: members =>
    .property ⟨comments, readonly, name, optional, type.settled⟩ :: settledMembers members
  | .index ⟨comments, readonly, parameter, key, value⟩ :: members =>
    .index ⟨comments, readonly, parameter, key.settled, value.settled⟩ :: settledMembers members

end

/-! ## Members of settled unions and intersections -/

@[simp] theorem needsParentheses_settled (node : TypeNode) (position : Position) :
    needsParentheses node.settled position = needsParentheses node position := by
  cases node <;> cases position <;> simp [settled, needsParentheses]

theorem nested_settled (node : TypeNode) (position : Position) (text : String) :
    nested node.settled position text = nested node position text := by
  rw [nested, needsParentheses_settled, nested]

theorem isCompound_guarded_operand (node : TypeNode) :
    (node.guarded .operand).isCompound = false := by
  cases node <;> rfl

theorem guarded_unionMember_ne_union (node : TypeNode) (members : List TypeNode) :
    node.guarded .unionMember ≠ .union members := by
  cases node <;> simp [guarded, needsParentheses]

theorem length_settledAlternatives (nodes : List TypeNode) :
    (settledAlternatives nodes).length = nodes.length := by
  induction nodes with
  | nil => rw [settledAlternatives]
  | cons node nodes ih => rw [settledAlternatives, List.length_cons, List.length_cons, ih]

theorem ne_union_of_mem_settledAlternatives {member : TypeNode} {nodes : List TypeNode}
    (h : member ∈ settledAlternatives nodes) (members : List TypeNode) :
    member ≠ .union members := by
  induction nodes with
  | nil => simp [settledAlternatives] at h
  | cons node nodes ih =>
    rw [settledAlternatives] at h
    rcases List.mem_cons.mp h with rfl | h
    · exact guarded_unionMember_ne_union node.settled members
    · exact ih h

mutual

theorem isCompound_of_mem_spread {member : TypeNode} : ∀ node : TypeNode,
    member ∈ node.settled.spread → member.isCompound = false
  | .intersection members, h => by
    rw [settled, spread] at h
    exact isCompound_of_mem_settledParts members h
  | .union members, h => by
    rw [settled, spread] at h
    · obtain rfl := List.mem_singleton.mp h
      rfl
    · simp
  | .keyword _, h | .literal _, h | .reference _ _, h | .array _, h | .tuple _, h
  | .parenthesized _, h | .typeLiteral _, h => by
    rw [settled, spread] at h
    · obtain rfl := List.mem_singleton.mp h
      rfl
    · simp

theorem isCompound_of_mem_settledParts {member : TypeNode} : ∀ nodes : List TypeNode,
    member ∈ settledParts nodes → member.isCompound = false
  | [], h => by simp [settledParts] at h
  | node :: nodes, h => by
    rw [settledParts] at h
    rcases List.mem_append.mp h with h | h
    · exact isCompound_of_mem_spread node h
    · exact isCompound_of_mem_settledParts nodes h

end

theorem spread_settled_ne_nil : ∀ node : TypeNode, node.Legible → node.settled.spread ≠ []
  | .intersection [], h => absurd h.here (by decide)
  | .intersection (member :: members), h => by
    have hmember := spread_settled_ne_nil member (h.below member (by simp [children]))
    rw [settled, settledParts, spread]
    exact List.append_ne_nil_of_left_ne_nil hmember _
  | .union _, _ | .keyword _, _ | .literal _, _ | .reference _ _, _ | .array _, _ | .tuple _, _
  | .parenthesized _, _ | .typeLiteral _, _ => by simp [settled, spread]

theorem length_le_settledParts {nodes : List TypeNode} (h : ∀ node ∈ nodes, node.Legible) :
    nodes.length ≤ (settledParts nodes).length := by
  induction nodes with
  | nil => simp
  | cons node nodes ih =>
    have hnode := List.length_pos_iff.mpr (spread_settled_ne_nil node (h node List.mem_cons_self))
    have hnodes := ih fun later hmem => h later (List.mem_cons_of_mem _ hmem)
    rw [settledParts, List.length_cons, List.length_append]
    omega

theorem requiredAfterOptional_settledElements (elements : List TupleElement) :
    requiredAfterOptional (settledElements elements) = requiredAfterOptional elements := by
  have hany (elements : List TupleElement) :
      (settledElements elements).any (fun later => !later.optional && !later.rest) =
        elements.any fun later => !later.optional && !later.rest := by
    induction elements with
    | nil => rw [settledElements]
    | cons element elements ih =>
      obtain ⟨type, optional, rest⟩ := element
      rw [settledElements, List.any_cons, List.any_cons, ih]
  induction elements with
  | nil => rw [settledElements]
  | cons element elements ih =>
    obtain ⟨type, optional, rest⟩ := element
    rw [settledElements, requiredAfterOptional, requiredAfterOptional, hany, ih]

end TypeNode

/-! ## Texts -/

namespace Syntax.Writes

open TypeNode

/-- A settled type is written as a member of an intersection. -/
theorem spread {node : TypeNode} {text : String} (h : Writes (.type node) text typeStops) :
    Writes (.types "&" node.spread) (nested node .intersectionMember text) typeStops := by
  cases node with
  | intersection members => exact h.of_intersection
  | _ => exact (h.guarded .intersectionMember).single

theorem exists_words {name : String} (h : isQualifiedName name = true) :
    ∃ words, isWrittenName words = true ∧ name = ".".intercalate words := by
  refine ⟨(name.toList.splitOn '.').map String.ofList, h, ?_⟩
  rw [← String.toList_inj, String.toList_intercalate, List.map_map]
  simp [Function.comp_def]

/-- The text of an element. -/
theorem element {type : TypeNode} {text : String} {optional rest : Bool}
    (hboth : (optional && rest) = false) (h : Writes (.type type) text typeStops) :
    Writes (.element ⟨if optional then type.guarded .operand else type, optional, rest⟩)
      ((if rest then "..." else "") ++
        (if optional then nested type .operand text ++ "?" else text)) [',', ']'] := by
  cases optional with
  | true =>
    obtain rfl : rest = false := by simpa using hboth
    exact (h.guarded .operand).optionalElement (isCompound_guarded_operand type)
  | false =>
    cases rest with
    | true => exact h.restElement
    | false => exact h.plainElement

/-- A line with its end in front of it instead of behind it: so the members of a shape can be put
together from the last one on. -/
theorem line_ahead {line later lines : String} (h : "\n" ++ later = lines ++ "\n") :
    "\n" ++ (line ++ ";\n" ++ later) = "\n" ++ line ++ ";" ++ lines ++ "\n" :=
  calc "\n" ++ (line ++ ";\n" ++ later)
    _ = "\n" ++ line ++ ";" ++ ("\n" ++ later) := by
      rw [show (";\n" : String) = ";" ++ "\n" from rfl]
      simp only [String.append_assoc]
    _ = "\n" ++ line ++ ";" ++ lines ++ "\n" := by rw [h, ← String.append_assoc]

end Syntax.Writes

namespace TypeNode

open Syntax.Writes

theorem eq_nil_of_renderMembers {depth : Nat} {members : List TypeMember}
    (h : renderMembers depth members = []) : members = [] := by
  match members with
  | [] => rfl
  | .property ⟨_, _, _, _, _⟩ :: _ => simp [renderMembers] at h
  | .index ⟨_, _, _, _, _⟩ :: _ => simp [renderMembers] at h

theorem renderElements_cons_ne_nil (depth : Nat) (element : TupleElement)
    (elements : List TupleElement) : renderElements depth (element :: elements) ≠ [] := by
  obtain ⟨_, _, _⟩ := element
  simp [renderElements]

/-- The braces of a shape whose members are written. -/
theorem braced_settledMembers {depth : Nat} {members : List TypeMember}
    (h : ∃ lines, "\n" ++ String.join (renderMembers depth members) = lines ++ "\n" ∧
      Writes (.members (settledMembers members)) lines ['\n']) :
    WritesBraced (settledMembers members) (braced depth (renderMembers depth members)) := by
  obtain ⟨lines, hlines, hwrites⟩ := h
  refine .braced depth (fun hnone => ?_) hlines hwrites
  obtain rfl := eq_nil_of_renderMembers hnone
  rw [settledMembers]

mutual

/-- A type is written as what it comes to when it is settled. -/
theorem writes_settled (depth : Nat) : ∀ node : TypeNode, node.Legible →
    Writes (.type node.settled) (node.render depth) typeStops
  | .keyword word, _ => by
    rw [settled, render]
    exact .keyword word
  | .literal (.string value), _ => by
    rw [settled, render]
    exact .string value _
  | .literal (.number _), h => by
    rw [settled, render]
    exact .number h.here
  | .literal (.boolean value), _ => by
    rw [settled, render]
    exact .boolean value
  | .reference name [], h => by
    obtain ⟨words, hwords, rfl⟩ := exists_words h.here
    rw [settled, settledList, render]
    exact .reference hwords
  | .reference name (argument :: arguments), h => by
    obtain ⟨words, hwords, rfl⟩ := exists_words h.here
    rw [settled, render]
    exact .applied hwords (writes_settledList depth (argument :: arguments) (by simp) h.below)
  | .array element, h => by
    have helement := writes_settled depth element (h.below element (by simp [children]))
    rw [settled, render, ← nested_settled]
    exact (helement.guarded .operand).array (isCompound_guarded_operand _)
  | .tuple [], _ => by
    rw [settled, settledElements, render, renderElements, String.intercalate_nil]
    exact .emptyTuple _
  | .tuple (element :: elements), h => by
    have hreadable := h.here
    simp only [isLegible, isReadable, Bool.and_eq_true, Bool.not_eq_true', List.all_eq_true] at hreadable
    obtain ⟨hoptional, hboth⟩ := hreadable
    have helements := writes_settledElements depth (element :: elements) (by simp) hboth
      fun below hmem => h.below _ (List.mem_map_of_mem hmem)
    rw [settled, render]
    exact helements.tuple (by rw [requiredAfterOptional_settledElements, hoptional])
  | .union members, h => by
    have hlength : 2 ≤ members.length := of_decide_eq_true h.here
    have hmembers := writes_settledAlternatives depth members
      (List.ne_nil_of_length_pos (by omega)) h.below
    rw [settled, render]
    exact hmembers.union (by rwa [length_settledAlternatives])
      fun member hmem => ne_union_of_mem_settledAlternatives hmem
  | .intersection members, h => by
    have hlength : 2 ≤ members.length := of_decide_eq_true h.here
    have hmembers := writes_settledParts depth members
      (List.ne_nil_of_length_pos (by omega)) h.below
    rw [settled, render]
    exact hmembers.intersection (Nat.le_trans hlength (length_le_settledParts h.below))
      fun member hmem => isCompound_of_mem_settledParts members hmem
  | .parenthesized inner, h => by
    rw [settled, render]
    exact (writes_settled depth inner (h.below inner (by simp [children]))).parenthesized
  | .typeLiteral members, h => by
    rw [settled, render]
    have hmembers := writes_settledMembers depth members (List.all_eq_true.mp h.here)
      fun member hmem type htype => h.below type (List.mem_flatMap.mpr ⟨member, hmem, htype⟩)
    exact (braced_settledMembers hmembers).shape _

theorem writes_settledList (depth : Nat) : ∀ nodes : List TypeNode, nodes ≠ [] →
    (∀ node ∈ nodes, node.Legible) →
    Writes (.types "," (settledList nodes)) (", ".intercalate (renderList depth nodes)) typeStops
  | [], hne, _ => absurd rfl hne
  | [node], _, h => by
    rw [settledList, settledList, renderList, renderList, String.intercalate_singleton]
    exact (writes_settled depth node (h node (by simp))).single
  | node :: next :: nodes, _, h => by
    have hnodes := writes_settledList depth (next :: nodes) (by simp)
      fun later hmem => h later (List.mem_cons_of_mem _ hmem)
    rw [settledList, renderList, String.intercalate_cons_of_ne_nil (by simp [renderList])]
    exact (writes_settled depth node (h node (by simp))).single.append .comma hnodes

theorem writes_settledAlternatives (depth : Nat) : ∀ nodes : List TypeNode, nodes ≠ [] →
    (∀ node ∈ nodes, node.Legible) →
    Writes (.types "|" (settledAlternatives nodes))
      (" | ".intercalate (renderNested depth .unionMember nodes)) typeStops
  | [], hne, _ => absurd rfl hne
  | [node], _, h => by
    rw [settledAlternatives, settledAlternatives, renderNested, renderNested,
      String.intercalate_singleton, ← nested_settled]
    exact ((writes_settled depth node (h node (by simp))).guarded .unionMember).single
  | node :: next :: nodes, _, h => by
    have hnodes := writes_settledAlternatives depth (next :: nodes) (by simp)
      fun later hmem => h later (List.mem_cons_of_mem _ hmem)
    rw [settledAlternatives, renderNested,
      String.intercalate_cons_of_ne_nil (by simp [renderNested]), ← nested_settled]
    exact ((writes_settled depth node (h node (by simp))).guarded .unionMember).single.append .bar
      hnodes

theorem writes_settledParts (depth : Nat) : ∀ nodes : List TypeNode, nodes ≠ [] →
    (∀ node ∈ nodes, node.Legible) →
    Writes (.types "&" (settledParts nodes))
      (" & ".intercalate (renderNested depth .intersectionMember nodes)) typeStops
  | [], hne, _ => absurd rfl hne
  | [node], _, h => by
    rw [settledParts, settledParts, List.append_nil, renderNested, renderNested,
      String.intercalate_singleton, ← nested_settled]
    exact (writes_settled depth node (h node (by simp))).spread
  | node :: next :: nodes, _, h => by
    have hnodes := writes_settledParts depth (next :: nodes) (by simp)
      fun later hmem => h later (List.mem_cons_of_mem _ hmem)
    rw [settledParts, renderNested, String.intercalate_cons_of_ne_nil (by simp [renderNested]),
      ← nested_settled]
    exact (writes_settled depth node (h node (by simp))).spread.append .ampersand hnodes

theorem writes_settledElements (depth : Nat) : ∀ elements : List TupleElement, elements ≠ [] →
    (∀ element ∈ elements, (element.optional && element.rest) = false) →
    (∀ element ∈ elements, element.type.Legible) →
    Writes (.elements (settledElements elements))
      (", ".intercalate (renderElements depth elements)) [',', ']']
  | [], hne, _, _ => absurd rfl hne
  | [⟨type, optional, rest⟩], _, hboth, h => by
    rw [settledElements, settledElements, renderElements, renderElements,
      String.intercalate_singleton, ← nested_settled]
    have htype := writes_settled depth type (h ⟨type, optional, rest⟩ List.mem_cons_self)
    exact (element (hboth ⟨type, optional, rest⟩ List.mem_cons_self) htype).singleElement
  | ⟨type, optional, rest⟩ :: next :: elements, _, hboth, h => by
    have helements := writes_settledElements depth (next :: elements) (by simp)
      (fun later hmem => hboth later (List.mem_cons_of_mem _ hmem))
      fun later hmem => h later (List.mem_cons_of_mem _ hmem)
    rw [settledElements, renderElements,
      String.intercalate_cons_of_ne_nil (renderElements_cons_ne_nil depth next elements),
      ← nested_settled]
    have htype := writes_settled depth type (h ⟨type, optional, rest⟩ List.mem_cons_self)
    exact (element (hboth ⟨type, optional, rest⟩ List.mem_cons_self) htype).consElement helements

theorem writes_settledMembers (depth : Nat) : ∀ members : List TypeMember,
    (∀ member ∈ members, member.isLegible = true) →
    (∀ member ∈ members, ∀ type ∈ member.types, type.Legible) →
    ∃ lines, "\n" ++ String.join (renderMembers depth members) = lines ++ "\n" ∧
      Writes (.members (settledMembers members)) lines ['\n']
  | [], _, _ => by
    rw [renderMembers, settledMembers]
    exact ⟨"", rfl, .noMembers _⟩
  | .property ⟨texts, readonly, name, optional, type⟩ :: members, hlegible, h => by
    obtain ⟨lines, hlines, hwrites⟩ := writes_settledMembers depth members
      (fun later hmem => hlegible later (List.mem_cons_of_mem _ hmem))
      fun later hmem => h later (List.mem_cons_of_mem _ hmem)
    have hhere := hlegible _ List.mem_cons_self
    simp only [TypeMember.isLegible, Bool.and_eq_true, List.all_eq_true, decide_eq_true_eq] at hhere
    obtain ⟨htexts, hname⟩ := hhere
    have htype := writes_settled (depth + 1) type
      (h _ List.mem_cons_self type (by simp [TypeMember.types]))
    rw [renderMembers, settledMembers, String.join_cons]
    refine ⟨_, line_ahead hlines, ?_⟩
    have hascii : isIdentifier name = true → name.toList.all isAscii = true := fun hidentifier => by
      simpa [hidentifier] using hname
    have hwritten := Writes.property (depth + 1) readonly optional htexts hascii htype hwrites
    simpa only [← String.append_assoc] using hwritten
  | .index ⟨texts, readonly, parameter, key, value⟩ :: members, hlegible, h => by
    obtain ⟨lines, hlines, hwrites⟩ := writes_settledMembers depth members
      (fun later hmem => hlegible later (List.mem_cons_of_mem _ hmem))
      fun later hmem => h later (List.mem_cons_of_mem _ hmem)
    have hhere := hlegible _ List.mem_cons_self
    simp only [TypeMember.isLegible, Bool.and_eq_true, List.all_eq_true, decide_eq_true_eq] at hhere
    obtain ⟨⟨htexts, hparameter⟩, hbindable⟩ := hhere
    have hkey := writes_settled (depth + 1) key
      (h _ List.mem_cons_self key (by simp [TypeMember.types]))
    have hvalue := writes_settled (depth + 1) value
      (h _ List.mem_cons_self value (by simp [TypeMember.types]))
    rw [renderMembers, settledMembers, String.join_cons]
    refine ⟨_, line_ahead hlines, ?_⟩
    have hwritten :=
      Writes.index (depth + 1) readonly htexts hparameter hbindable hkey hvalue hwrites
    simpa only [← String.append_assoc] using hwritten

end

end TypeNode

end Declutter
