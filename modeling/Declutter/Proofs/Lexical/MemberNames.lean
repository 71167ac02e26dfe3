import Declutter.Proofs.Lexical.StaleNames

/-!
# Names of members

The members of an interface that is modelled keep their names when the root is renamed. The scanner
of verbatim text tells no member's name from the name of a type, so that in an enum, or in an
interface with type parameters, a member keeps its name exactly if that is not the root's
(`memberNames_of_renameRoot`).
-/

namespace Declutter.Lexical

open Verbatim (endsInAccess rename)

variable {divides : Nat → Bool}

/-! ## Tokens and members -/

/-- Whether elements of a kind are tokens: neither white space nor comments. -/
def Kind.isToken : Kind → Bool
  | .blank | .lineComment | .blockComment => false
  | _ => true

def tokens (es : List Element) : List Element := es.filter (·.kind.isToken)

/-- A member of an enum or an interface: its name and the tokens behind it up to the next one, such
as `= 1 ,` or `? : T ;`. -/
structure Member where
  name : List Char
  rest : List Element

def Member.tokens (member : Member) : List Element := ⟨.word, member.name⟩ :: member.rest

/-- A declaration: the tokens in front of its members, such as `enum E {`, and the members. What
closes it counts as part of the last one. -/
structure Declaration where
  head : List Element
  members : List Member

namespace Declaration

def tokens (decl : Declaration) : List Element := decl.head ++ decl.members.flatMap Member.tokens

def names (decl : Declaration) : List (List Char) := decl.members.map Member.name

/-- No name of a member stands directly behind a point. -/
structure IsSeparated (decl : Declaration) : Prop where
  head : decl.head.getLast? ≠ some point
  members : ∀ member ∈ decl.members, member.rest.getLast? ≠ some point

end Declaration

/-- A name with `old` replaced by `new`. -/
def renamed (old new name : List Char) : List Char := if name = old then new else name

/-- An element, or `new` in place of the name `old`. -/
inductive Follows (old new : List Char) : Element → Element → Prop
  | refl (e : Element) : Follows old new e e
  | name : Follows old new ⟨.word, old⟩ ⟨.word, new⟩

/-- A member of which the name has been replaced, and some of what stands behind it. -/
structure Member.Follows (old new : List Char) (member member' : Member) : Prop where
  name : member'.name = renamed old new member.name
  rest : List.Forall₂ (Lexical.Follows old new) member.rest member'.rest

/-- A declaration with the same members, all of whose names have been replaced. -/
structure Declaration.Follows (old new : List Char) (decl decl' : Declaration) : Prop where
  head : List.Forall₂ (Lexical.Follows old new) decl.head decl'.head
  members : List.Forall₂ (Member.Follows old new) decl.members decl'.members

theorem Declaration.Follows.names_eq {old new : List Char} {decl decl' : Declaration}
    (h : decl.Follows old new decl') : decl'.names = decl.names.map (renamed old new) := by
  have hnames : List.Forall₂ (· = ·) (decl.names.map (renamed old new)) decl'.names := by
    rw [names, names, List.map_map, List.forall₂_map_left_iff, List.forall₂_map_right_iff]
    exact h.members.imp fun _ _ hmember => hmember.name.symm
  rw [List.forall₂_eq_eq_eq] at hnames
  exact hnames.symm

/-- Names that are replaced stay if the old name is none of them, or nothing is replaced. -/
theorem map_renamed_eq_iff (old new : List Char) (names : List (List Char)) :
    names.map (renamed old new) = names ↔ old ∉ names ∨ old = new := by
  have hrenamed (name : List Char) : renamed old new name = name ↔ old ≠ name ∨ old = new := by
    rw [renamed]
    split
    · rename_i hname
      rw [hname, eq_comm, or_iff_right (fun h => h rfl)]
    · rename_i hname
      exact iff_of_true rfl (.inl (Ne.symm hname))
  induction names with
  | nil => simp
  | cons name names ih =>
    have hname := hrenamed name
    rw [List.map_cons, List.cons.injEq, List.mem_cons, not_or]
    tauto

/-! ## Renamed declarations -/

theorem swapFrom_append (old new before : List Char) (front back : List Element) :
    swapFrom old new before (front ++ back) =
      swapFrom old new before front ++
        swapFrom old new ((front.flatMap Element.text).reverse ++ before) back := by
  induction front generalizing before with
  | nil => rfl
  | cons e front ih =>
    rw [List.cons_append, swapFrom, swapFrom, ih, List.cons_append, List.flatMap_cons,
      List.reverse_append, List.append_assoc]

theorem kind_swap (old new before : List Char) (e : Element) :
    (swap old new before e).kind = e.kind := by
  unfold swap
  split
  · rename_i h
    simp only [Bool.and_eq_true, decide_eq_true_eq] at h
    exact h.1.1.symm
  · rfl

theorem follows_swap (old new before : List Char) (e : Element) :
    Follows old new e (swap old new before e) := by
  unfold swap
  split
  · rename_i h
    obtain ⟨kind, text⟩ := e
    simp only [Bool.and_eq_true, decide_eq_true_eq] at h
    obtain ⟨⟨rfl, rfl⟩, _⟩ := h
    exact .name
  · exact .refl e

theorem follows_tokens_swapFrom (old new before : List Char) (es : List Element) :
    List.Forall₂ (Follows old new) (tokens es) (tokens (swapFrom old new before es)) := by
  induction es generalizing before with
  | nil => exact .nil
  | cons e es ih =>
    rw [swapFrom, tokens, List.filter_cons, tokens, List.filter_cons, kind_swap]
    split
    · exact .cons (follows_swap old new before e) (ih _)
    · exact ih _

/-- Behind a token that is no point nothing is a member. -/
theorem accesses_eq_false {es : List Element} (h : (tokens es).getLast? ≠ some point) :
    accesses es.reverse = false := by
  by_contra haccess
  have hlast : (es.reverse.dropWhile (·.kind = .blank)).head? = some point := by
    rw [Bool.not_eq_false, accesses] at haccess
    split at haccess
    · rename_i heq
      rw [Bool.and_eq_true, decide_eq_true_eq] at haccess
      rw [heq, haccess.1]
      rfl
    · rename_i heq
      rw [decide_eq_true_eq] at haccess
      rw [heq, haccess]
      rfl
    · cases haccess
  obtain ⟨rest, hrest⟩ := List.head?_eq_some_iff.mp hlast
  -- blanks are passed by both in `accesses` and among the tokens
  have hblanks : (es.reverse.takeWhile (·.kind = .blank)).filter (·.kind.isToken) = [] := by
    rw [List.filter_eq_nil_iff]
    intro e he
    have hkind : e.kind = .blank := by simpa using List.mem_takeWhile_imp he
    rw [hkind]
    decide
  apply h
  rw [tokens, List.getLast?_eq_head?_reverse, ← List.filter_reverse,
    ← List.takeWhile_append_dropWhile (p := (·.kind = .blank)) (l := es.reverse),
    List.filter_append, hblanks, hrest]
  rfl

/-- A name behind a token that is no point is replaced. -/
theorem swap_name {front : List Element} (hseen : ∀ e ∈ front, e.IsSeen)
    (hplace : (tokens front).getLast? ≠ some point) (old new name : List Char) :
    swap old new (front.flatMap Element.text).reverse ⟨.word, name⟩ =
      ⟨.word, renamed old new name⟩ := by
  have hends : endsInAccess (front.flatMap Element.text).reverse = false := by
    by_contra hends
    have hmember := accesses_of_endsInAccess hseen (Bool.not_eq_false _ ▸ hends)
    rw [accesses_eq_false hplace] at hmember
    cases hmember
  rw [swap, hends, renamed]
  by_cases hname : name = old <;> simp [hname]

theorem exists_of_tokens_eq {es head rest : List Element} {e : Element}
    (h : tokens es = head ++ e :: rest) :
    ∃ front back, es = front ++ e :: back ∧ tokens front = head ∧ tokens back = rest := by
  obtain ⟨front, others, rfl, hfront, hothers⟩ := List.filter_eq_append_iff.mp h
  obtain ⟨blanks, back, rfl, hblanks, _, hback⟩ := List.filter_eq_cons_iff.mp hothers
  refine ⟨front ++ blanks, back, (List.append_assoc _ _ _).symm, ?_, hback⟩
  rw [tokens, List.filter_append, hfront, List.filter_eq_nil_iff.mpr hblanks, List.append_nil]

/-- What comes of the tokens of members, behind some elements and tokens. -/
theorem exists_tokens_swapFrom {old new : List Char} {members : List Member}
    (hmembers : ∀ member ∈ members, member.rest.getLast? ≠ some point)
    {before es head : List Element} (hseen : ∀ e ∈ before ++ es, e.IsSeen)
    (htokens : tokens es = head ++ members.flatMap Member.tokens)
    (hplace : (tokens before ++ head).getLast? ≠ some point) :
    ∃ head' members',
      tokens (swapFrom old new (before.flatMap Element.text).reverse es) =
        head' ++ members'.flatMap Member.tokens ∧
      List.Forall₂ (Follows old new) head head' ∧
      List.Forall₂ (Member.Follows old new) members members' := by
  -- the name of the first member and the elements in front of it go over to `before`
  induction members generalizing before es head with
  | nil =>
    rw [List.flatMap_nil, List.append_nil] at htokens
    refine ⟨_, [], (List.append_nil _).symm, ?_, .nil⟩
    rw [← htokens]
    exact follows_tokens_swapFrom old new _ es
  | cons member members ih =>
    rw [List.flatMap_cons, Member.tokens, List.cons_append] at htokens
    obtain ⟨front, back, rfl, rfl, hback⟩ := exists_of_tokens_eq htokens
    let name : Element := ⟨.word, member.name⟩
    have hnext : ((before ++ front ++ [name]).flatMap Element.text).reverse =
        name.text.reverse ++
          ((front.flatMap Element.text).reverse ++ (before.flatMap Element.text).reverse) := by
      simp [List.flatMap_append]
    -- the next name stands behind the tokens of this member, or behind its name
    have hplace' : (tokens (before ++ front ++ [name]) ++ member.rest).getLast? ≠ some point := by
      rw [tokens, List.filter_append, List.getLast?_append, List.getLast?_append]
      have hrest := hmembers member List.mem_cons_self
      cases hlast : member.rest.getLast? with
      | none => simp [name, point, Kind.isToken]
      | some e => rwa [hlast] at hrest
    obtain ⟨rest', members', hbehind, hrest', hmembers'⟩ :=
      ih (fun m hm => hmembers m (List.mem_cons_of_mem _ hm))
        (fun e he => hseen e (by simpa [name] using he)) hback hplace'
    rw [hnext] at hbehind
    have hname := swap_name (fun e he => hseen e (by simp at he ⊢; tauto))
      (show (tokens (before ++ front)).getLast? ≠ some point by rwa [tokens, List.filter_append])
      old new member.name
    rw [List.flatMap_append, List.reverse_append] at hname
    refine ⟨tokens (swapFrom old new (before.flatMap Element.text).reverse front),
      ⟨renamed old new member.name, rest'⟩ :: members', ?_, follows_tokens_swapFrom _ _ _ _,
      .cons ⟨rfl, hrest'⟩ hmembers'⟩
    rw [swapFrom_append, swapFrom, hname, tokens, List.filter_append,
      List.filter_cons_of_pos (by rfl), ← tokens, ← tokens, hbehind, List.flatMap_cons,
      Member.tokens, List.cons_append]

/-- The declaration of a text of plain elements after a name has been replaced. -/
theorem exists_declaration_rename {text old new : String}
    (hplain : Plain (elements divides text.toList) = true)
    (hfree : isFree old.toList (elements divides text.toList) = true)
    (hdotted : ∀ e ∈ elements divides text.toList, e.isDotted = false)
    (hnew : isName new.toList = true) {decl : Declaration}
    (htokens : tokens (elements divides text.toList) = decl.tokens) (hdecl : decl.IsSeparated) :
    ∃ decl' : Declaration,
      tokens (elements divides (rename text old new).toList) = decl'.tokens ∧
        decl.Follows old.toList new.toList decl' := by
  have hseen : ∀ e ∈ [] ++ elements divides text.toList, Element.IsSeen e :=
    isSeen_of_mem (reads_elements hplain) hplain hdotted
  have hplace : (tokens [] ++ decl.head).getLast? ≠ some point := hdecl.head
  obtain ⟨head', members', hrenamed, hhead, hmembers⟩ :=
    exists_tokens_swapFrom hdecl.members hseen htokens hplace
  rw [elements_rename hplain hfree hnew]
  exact ⟨⟨head', members'⟩, hrenamed, hhead, hmembers⟩

end Declutter.Lexical

namespace Declutter.SourceFile

open Lexical

/-- What renaming the root makes of the members of a statement. Those of a modelled interface keep
their names. Those of a declaration that is kept as plain text have their names replaced. -/
def Statement.MembersFollow (old new : String) : Statement → Statement → Prop
  | .interface decl, .interface decl' =>
    decl'.members.map (·.propertyName?) = decl.members.map (·.propertyName?)
  | .verbatim v, .verbatim w => ∀ (divides : Nat → Bool) (decl : Declaration),
    Plain (elements divides v.text.toList) = true →
    isFree old.toList (elements divides v.text.toList) = true →
    (∀ e ∈ elements divides v.text.toList, e.isDotted = false) →
    tokens (elements divides v.text.toList) = decl.tokens → decl.IsSeparated →
    ∃ decl' : Declaration, tokens (elements divides w.text.toList) = decl'.tokens ∧
      decl.Follows old.toList new.toList decl' ∧
      (decl'.names = decl.names ↔ old.toList ∉ decl.names ∨ old = new)
  | .typeAlias _, .typeAlias _ => True
  | _, _ => False

/-- Renaming the root leaves the names of members alone in interfaces that are modelled. In a
declaration that is kept as plain text they stay exactly if the root's old name is none of them. -/
theorem memberNames_of_renameRoot {file result : SourceFile} {old new : String}
    {wanted : Option String} (hold : file.rootName wanted = .ok old)
    (h : file.renameRoot new wanted = .ok result) (hnew : isName new.toList = true) :
    List.Forall₂ (Statement.MembersFollow old new) file.statements result.statements := by
  refine (forall₂_followed hold h).imp fun before after hfollowed => ?_
  obtain rfl | ⟨hbefore, hafter⟩ := hfollowed
  · cases before with
    | typeAlias => trivial
    | interface decl =>
      show (decl.members.map (·.mapTypes (TypeNode.renameReferences old new))).map
        (·.propertyName?) = decl.members.map (·.propertyName?)
      rw [List.map_map]
      exact List.map_congr_left fun member _ => by cases member <;> rfl
    | verbatim v =>
      intro divides decl hplain hfree hdotted htokens hdecl
      obtain ⟨decl', htokens', hfollows⟩ :=
        exists_declaration_rename hplain hfree hdotted hnew htokens hdecl
      refine ⟨decl', htokens', hfollows, ?_⟩
      rw [hfollows.names_eq, map_renamed_eq_iff, String.toList_inj]
  · cases before with
    | typeAlias =>
      cases after with
      | typeAlias => trivial
      | _ => cases hafter
    | _ => cases hbefore

/-- The declaration `enum E { A = 1, Root = 2 }`. -/
def enumE : Declaration :=
  ⟨[⟨.word, "enum".toList⟩, ⟨.word, ['E']⟩, ⟨.sign, ['\x7b']⟩],
    [⟨['A'], [⟨.sign, ['=']⟩, ⟨.number, ['1']⟩, ⟨.sign, [',']⟩]⟩,
      ⟨"Root".toList, [⟨.sign, ['=']⟩, ⟨.number, ['2']⟩, ⟨.sign, ['\x7d']⟩]⟩]⟩

/-- Of the members of an enum the one that has the root's name is renamed. -/
theorem memberNames_enumE :
    ∃ decl' : Declaration,
      tokens (elements (fun _ => true) "enum E \x7b A = 1, Tsconfig = 2 \x7d".toList) =
        decl'.tokens ∧
      enumE.Follows "Root".toList "Tsconfig".toList decl' ∧
      (decl'.names = enumE.names ↔ "Root".toList ∉ enumE.names ∨ "Root" = "Tsconfig") := by
  have hrename : (⟨[.typeAlias ⟨[], [], "Root", .keyword .string⟩,
        .verbatim ⟨[], "enum E \x7b A = 1, Root = 2 \x7d"⟩], []⟩ : SourceFile).renameRoot
          "Tsconfig" none =
      .ok ⟨[.typeAlias ⟨[], [], "Tsconfig", .keyword .string⟩,
        .verbatim ⟨[], "enum E \x7b A = 1, Tsconfig = 2 \x7d"⟩], []⟩ := by decide +kernel
  have hfile := memberNames_of_renameRoot rfl hrename (by decide +kernel)
  cases hfile with
  | cons _ hrest =>
    cases hrest with
    | cons hmembers _ =>
      exact hmembers (fun _ => true) enumE (by decide +kernel) (by decide +kernel)
        (by decide +kernel) (by decide +kernel) ⟨by decide, by decide⟩

/-- The member of an enum that has the root's name loses it when the root is renamed, and the
property of an interface does not. -/
theorem exists_member_renamed :
    ∃ (file result : SourceFile) (v w : Declutter.Verbatim) (decl decl' : Interface)
        (before after : Declaration),
      ofText "type Root = string;\nenum E \x7b Root = 1 \x7d\ninterface I \x7b Root: string \x7d" =
        .ok file ∧
      file.renameRoot "Tsconfig" none = .ok result ∧
      file.statements.drop 1 = [.verbatim v, .interface decl] ∧
      result.statements.drop 1 = [.verbatim w, .interface decl'] ∧
      (∀ divides, tokens (elements divides v.text.toList) = before.tokens) ∧
      (∀ divides, tokens (elements divides w.text.toList) = after.tokens) ∧
      before.names = ["Root".toList] ∧ after.names = ["Tsconfig".toList] ∧
      decl.members.map (·.propertyName?) = [some "Root"] ∧
      decl'.members.map (·.propertyName?) = [some "Root"] := by
  let head : List Element := [⟨.word, "enum".toList⟩, ⟨.word, ['E']⟩, ⟨.sign, ['\x7b']⟩]
  let value : List Element := [⟨.sign, ['=']⟩, ⟨.number, ['1']⟩, ⟨.sign, ['\x7d']⟩]
  let decl : Interface :=
    ⟨[], [], "I", [], [.property ⟨[], false, "Root", false, .keyword .string⟩]⟩
  refine ⟨⟨[.typeAlias ⟨[], [], "Root", .keyword .string⟩,
      .verbatim ⟨[], "enum E \x7b Root = 1 \x7d"⟩, .interface decl], []⟩,
    ⟨[.typeAlias ⟨[], [], "Tsconfig", .keyword .string⟩,
      .verbatim ⟨[], "enum E \x7b Tsconfig = 1 \x7d"⟩, .interface decl], []⟩,
    ⟨[], "enum E \x7b Root = 1 \x7d"⟩, ⟨[], "enum E \x7b Tsconfig = 1 \x7d"⟩, decl, decl,
    ⟨head, [⟨"Root".toList, value⟩]⟩, ⟨head, [⟨"Tsconfig".toList, value⟩]⟩,
    by decide +kernel, by decide +kernel, rfl, rfl, ?_, ?_, rfl, rfl, rfl, rfl⟩
  · intro divides
    rfl
  · intro divides
    rfl

end Declutter.SourceFile
