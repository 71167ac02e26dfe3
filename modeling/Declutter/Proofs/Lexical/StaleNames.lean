import Declutter.Proofs.Lexical.Renaming
import Declutter.Proofs.Renaming
import Declutter.Reading
import Declutter.Tree.Equality
import Mathlib.Data.List.Induction

/-!
# Names that stay behind

When the root gets another name, its old name goes from the plain elements of verbatim text, but for
names of members behind a point (`accesses_of_renameRoot`).
-/

namespace Declutter.Lexical

open Syntax (startsWord continuesWord isLineEnd isGapBlank)
open Verbatim (Lexeme endsInAccess rename replaceWord)

variable {divides : Nat → Bool}

/-! ## Member accesses -/

/-- A point that stands for itself. -/
def point : Element := ⟨.sign, ['.']⟩

/-- Whether a name behind these elements, given back to front, is that of a member: a point stands
before it, blanks apart, and is not the end of `...`. -/
def accesses (before : List Element) : Bool :=
  match before.dropWhile (·.kind = .blank) with
  | first :: second :: third :: _ => first = point && !(second = point && third = point)
  | first :: _ => first = point
  | [] => false

/-- Whether an element is no point, but the scanner sees one at its end, blanks apart. Only a line
comment and a number can be so. -/
def Element.isDotted (element : Element) : Bool :=
  element.kind ≠ .sign && (element.text.reverse.dropWhile Text.isBlank).head? = some '.'

/-- Behind something that ends in no point nothing is a member. -/
theorem endsInAccess_append {text : List Char} {c : Char}
    (h : (text.dropWhile Text.isBlank).head? = some c) (hc : c ≠ '.') (before : List Char) :
    endsInAccess (text ++ before) = false := by
  obtain ⟨rest, hrest⟩ := List.head?_eq_some_iff.mp h
  rw [endsInAccess, List.dropWhile_append, if_neg (by simp [hrest]), hrest, List.cons_append]
  split
  · rename_i heq
    exact absurd (List.cons.inj heq).1 hc
  · rename_i heq
    exact absurd (List.cons.inj heq).1 hc
  · rfl

theorem isBlank_of_isDigit {c : Char} (h : c.isDigit = true) : Text.isBlank c = false :=
  Syntax.forall_isAscii (P := fun c => c.isDigit = true → Text.isBlank c = false) (by decide)
    (Syntax.isAscii_of_isDigit h) h

/-- No other element begins with a blank. -/
theorem isBlank_of_spelled {kind : Kind} {c : Char} {body rest : List Char}
    (hspelled : Spelled kind c body rest)
    (hplain : Element.isPlain ⟨kind, c :: body⟩ rest = true) (hkind : kind ≠ .blank) :
    Text.isBlank c = false := by
  cases hspelled with
  | blank => exact absurd rfl hkind
  | string hquote => obtain rfl | rfl := hquote <;> decide
  | template =>
    simp only [Element.isPlain, Bool.and_eq_true, decide_eq_true_eq] at hplain
    obtain rfl : c = '\x60' := Option.some.inj hplain.1.1
    decide
  | number hc =>
    obtain hdigit | rfl := hc
    · exact isBlank_of_isDigit hdigit
    · decide
  | word hc =>
    have hgap := isBlank_of_startsWord hc
    simp only [isGapBlank, Bool.or_eq_false_iff, Bool.and_eq_false_imp, Bool.not_eq_true'] at hgap
    exact (hgap.2 hgap.1).1
  | sign hc =>
    have hall : signs.all (!Text.isBlank ·) = true := by decide
    simpa using List.all_eq_true.mp hall c hc
  | _ => decide

/-- What the scanner sees of an element when it looks for a member access. -/
structure Element.IsSeen (element : Element) : Prop where
  isDotted : element.isDotted = false
  text : ∃ c body, element.text = c :: body ∧
    (element.kind ≠ .blank → Text.isBlank c = false) ∧
    (element.kind = .blank ∨ element.kind = .sign → body = [])

theorem isSeen_of_mem {state : State} {es : List Element} (hread : Reads divides state es)
    (hplain : Plain es = true) (hdotted : ∀ e ∈ es, e.isDotted = false) :
    ∀ e ∈ es, e.IsSeen := by
  induction hread with
  | nil => simp
  | @cons state kind c body es hspelled hscan hrest ih =>
    obtain ⟨hfirst, hplain⟩ := Bool.and_eq_true_iff.mp hplain
    intro e he
    have hdot := hdotted e he
    obtain rfl | he := List.mem_cons.mp he
    · refine ⟨hdot, c, body, rfl, isBlank_of_spelled hspelled hfirst, fun hkind => ?_⟩
      cases hspelled with
      | blank | slash | sign => rfl
      | _ => simp at hkind
    · exact ih hplain (fun e he => hdotted e (List.mem_cons_of_mem _ he)) e he

/-- A point is a member access unless two more stand before it. -/
theorem accesses_cons_point {es : List Element}
    (h : endsInAccess (point.text.reverse ++ (es.flatMap Element.text).reverse) = true) :
    accesses (point :: es.reverse) = true := by
  unfold accesses
  rw [List.dropWhile_cons_of_neg (by decide)]
  split
  · rename_i first second third rest hes
    obtain ⟨rfl, hbefore⟩ := List.cons.inj hes
    rw [decide_eq_true rfl, Bool.true_and, Bool.not_eq_true']
    by_contra hpoints
    simp only [Bool.not_eq_false, Bool.and_eq_true, decide_eq_true_eq] at hpoints
    obtain ⟨rfl, rfl⟩ := hpoints
    -- with three points at the end the scanner sees no access
    have hes' : es = rest.reverse ++ [point, point] := by
      rw [← List.reverse_reverse es, hbefore]
      simp
    rw [hes', List.flatMap_append, List.reverse_append] at h
    cases h
  · rename_i first rest _ hes
    rw [← (List.cons.inj hes).1]
    rfl
  · rename_i hes
    cases hes

/-- What the scanner takes for a member access is one. -/
theorem accesses_of_endsInAccess {es : List Element} (hseen : ∀ e ∈ es, e.IsSeen)
    (h : endsInAccess (es.flatMap Element.text).reverse = true) : accesses es.reverse = true := by
  -- the scanner looks back from the end of the text, so the elements are taken off there
  induction es using List.reverseRecOn with
  | nil => cases h
  | append_singleton es e ih =>
    obtain ⟨hdot, c, body, hc, hblank, hbody⟩ := hseen e (by simp)
    rw [List.flatMap_append, List.flatMap_singleton, List.reverse_append] at h
    rw [List.reverse_append, List.reverse_singleton, List.singleton_append]
    cases hend : (e.text.reverse.dropWhile Text.isBlank).head? with
    | none =>
      -- the element is blank: the scanner and `accesses` both pass it by
      rw [List.head?_eq_none_iff] at hend
      have hkind : e.kind = .blank := by
        by_contra hkind
        have hall := List.dropWhile_eq_nil_iff.mp hend c (by simp [hc])
        rw [hblank hkind] at hall
        cases hall
      have hskip : accesses (e :: es.reverse) = accesses es.reverse := by
        rw [accesses, List.dropWhile_cons_of_pos (by simp [hkind]), accesses]
      rw [endsInAccess, List.dropWhile_append, if_pos (by simp [hend])] at h
      rw [hskip]
      exact ih (fun e he => hseen e (by simp [he])) h
    | some d =>
      by_cases hd : d = '.'
      · -- the point that the scanner sees is an element, since none is dotted
        obtain rfl := hd
        have hkind : e.kind = .sign := by
          by_contra hkind
          simp [Element.isDotted, hkind, hend] at hdot
        have he : e = point := by
          obtain ⟨kind, text⟩ := e
          obtain rfl : kind = .sign := hkind
          obtain rfl : text = c :: body := hc
          obtain rfl := hbody (.inr rfl)
          rw [List.reverse_singleton, List.dropWhile_cons_of_neg (by simp [hblank])] at hend
          rw [Option.some.inj hend, point]
        rw [he] at h ⊢
        exact accesses_cons_point h
      · rw [endsInAccess_append hend hd] at h
        cases h

/-! ## Names that are replaced -/

/-- Every name among plain elements is a word of the text. -/
theorem mem_spelled {state : State} {front : List Element} {e : Element} {back : List Element}
    (hread : Reads divides state (front ++ e :: back)) (hplain : Plain (front ++ e :: back) = true)
    (hname : e.kind = .word) (before : List Char) :
    (e.text, !endsInAccess ((front.flatMap Element.text).reverse ++ before)) ∈
      spelled before ((front ++ e :: back).flatMap Element.text) := by
  -- the elements in front are spelled by themselves, one after the other
  induction front generalizing state before with
  | nil =>
    rw [List.nil_append] at hread hplain
    rw [List.nil_append, List.flatMap_cons, spelled_append hread hplain]
    apply List.mem_append_left
    cases hread with
    | @cons _ kind c body _ hspelled =>
      obtain rfl : kind = .word := hname
      rw [spelled_name (Bool.and_eq_true_iff.mp hplain).1]
      exact List.mem_singleton.mpr rfl
  | cons first front ih =>
    rw [List.cons_append] at hread hplain
    rw [List.cons_append, List.flatMap_cons, spelled_append hread hplain, List.flatMap_cons,
      List.reverse_append, List.append_assoc]
    cases hread with
    | cons _ _ hread =>
      exact List.mem_append_right _ (ih hread (Bool.and_eq_true_iff.mp hplain).2 _)

/-- Of a word that has been replaced by another, none is left that names a type. -/
theorem ne_of_mem_spelled_rename {text old new : String} (hnew : isIdentifier new = true)
    (hne : old ≠ new) {word : List Char}
    (h : (word, true) ∈ spelled [] (rename text old new).toList) : word ≠ old.toList := by
  obtain ⟨piece, hpiece, hspelled⟩ := List.mem_flatMap.mp h
  have hmarked : piece ∈ Verbatim.marked (rename text old new).toList := hpiece
  have hspell : piece = (.word word, true) := by
    obtain ⟨lexeme, names⟩ := piece
    cases lexeme with
    | word v =>
      obtain ⟨rfl, rfl⟩ := Prod.mk.inj (List.mem_singleton.mp hspelled)
      rfl
    | inert v => simp [spell] at hspelled
    | other c => simp [spell] at hspelled
  rw [Verbatim.marked_rename text old hnew, List.mem_map, hspell] at hmarked
  obtain ⟨source, _, hsource⟩ := hmarked
  rintro rfl
  unfold replaceWord at hsource
  split at hsource
  · obtain ⟨hword, _⟩ := Prod.mk.inj hsource
    exact hne (String.toList_inj.mp (Lexeme.word.inj hword).symm)
  · rename_i hother
    rw [hsource] at hother
    exact hother (by simp [Lexeme.text])

end Declutter.Lexical

namespace Declutter.SourceFile

open Lexical

/-- Every statement of a renamed file is that of the file, renamed, but for the root itself. -/
theorem forall₂_followed {file result : SourceFile} {old new : String} {wanted : Option String}
    (hold : file.rootName wanted = .ok old) (h : file.renameRoot new wanted = .ok result) :
    List.Forall₂ (fun before after => after = before.followed old new ∨
      before.aliasName? = some old ∧ after.aliasName? = some new)
      file.statements result.statements := by
  obtain ⟨_, _, hname, rfl⟩ := renameRoot_eq_ok_iff.mp h
  obtain ⟨before, root, after, hroot, rfl⟩ := exists_isRoot hold
  obtain rfl := Except.ok.inj (hold.symm.trans hname)
  have hfollowed : ∀ statements : List Statement, List.Forall₂ (fun before after =>
      after = before.followed root.name new ∨
        before.aliasName? = some root.name ∧ after.aliasName? = some new)
      statements (statements.map (·.followed root.name new)) := by
    intro statements
    rw [List.forall₂_map_right_iff, List.forall₂_same]
    exact fun _ _ => .inl rfl
  rw [hroot.statements_renameFrom new, hroot.statements_eq]
  exact List.rel_append (hfollowed before) (.cons (.inr ⟨rfl, rfl⟩) (hfollowed after))

/-- Verbatim text of a renamed file is text of the file with the root's name replaced. -/
theorem exists_text_eq_rename {file result : SourceFile} {old new : String}
    {wanted : Option String} (hold : file.rootName wanted = .ok old)
    (h : file.renameRoot new wanted = .ok result) {v : Declutter.Verbatim}
    (hv : .verbatim v ∈ result.statements) :
    ∃ w : Declutter.Verbatim, .verbatim w ∈ file.statements ∧
      v.text = Verbatim.rename w.text old new := by
  have hfollowed := forall₂_followed hold h
  obtain ⟨⟨i, hi⟩, hget⟩ := List.mem_iff_get.mp hv
  have hi' : i < file.statements.length := by rwa [hfollowed.length_eq]
  have hat := hfollowed.get hi' hi
  have hmem := List.get_mem file.statements ⟨i, hi'⟩
  rw [hget] at hat
  generalize file.statements.get ⟨i, hi'⟩ = statement at hat hmem
  obtain heq | ⟨_, hname⟩ := hat
  · cases statement with
    | verbatim w => exact ⟨w, hmem, by rw [Statement.verbatim.inj heq]⟩
    | _ => cases heq
  · cases hname

/-- Where the root has been renamed, a plain text has its old name as that of a member only. -/
theorem accesses_of_renameRoot {file result : SourceFile} {old new : String}
    {wanted : Option String} (hold : file.rootName wanted = .ok old)
    (h : file.renameRoot new wanted = .ok result) (hne : old ≠ new)
    {v : Declutter.Verbatim} (hv : .verbatim v ∈ result.statements) {divides : Nat → Bool}
    (hplain : Plain (elements divides v.text.toList) = true)
    (hdotted : ∀ e ∈ elements divides v.text.toList, e.isDotted = false)
    {front back : List Element}
    (helements : elements divides v.text.toList = front ++ ⟨.word, old.toList⟩ :: back) :
    accesses front.reverse = true := by
  have hread := reads_elements hplain
  have htext := text_elements divides v.text.toList
  rw [helements] at hread hplain hdotted htext
  have hmem := mem_spelled hread hplain rfl []
  rw [htext, List.append_nil] at hmem
  obtain ⟨w, _, hrename⟩ := exists_text_eq_rename hold h hv
  rw [hrename] at hmem
  apply accesses_of_endsInAccess
  · exact fun e he => isSeen_of_mem hread hplain hdotted e (List.mem_append_left _ he)
  · -- otherwise the word would have been replaced
    by_contra hplace
    rw [Bool.not_eq_true] at hplace
    rw [hplace] at hmem
    exact ne_of_mem_spelled_rename (renameRoot_eq_ok_iff.mp h).1 hne hmem rfl

/-- In `const s: Root = a . Root;` the second `Root` stays, since it is a member of `a`. -/
theorem accesses_member :
    (⟨[.typeAlias ⟨[], [], "Root", .keyword .string⟩,
        .verbatim ⟨[], "const s: Root = a . Root;"⟩], []⟩ : SourceFile).renameRoot "Tsconfig" none =
      .ok ⟨[.typeAlias ⟨[], [], "Tsconfig", .keyword .string⟩,
        .verbatim ⟨[], "const s: Tsconfig = a . Root;"⟩], []⟩ ∧
    elements (fun _ => true) "const s: Tsconfig = a . Root;".toList =
      elements (fun _ => true) "const s: Tsconfig = a . ".toList ++
        ⟨.word, "Root".toList⟩ :: [⟨.sign, [';']⟩] ∧
    accesses (elements (fun _ => true) "const s: Tsconfig = a . ".toList).reverse = true := by
  have hrename : (⟨[.typeAlias ⟨[], [], "Root", .keyword .string⟩,
        .verbatim ⟨[], "const s: Root = a . Root;"⟩], []⟩ : SourceFile).renameRoot "Tsconfig" none =
      .ok ⟨[.typeAlias ⟨[], [], "Tsconfig", .keyword .string⟩,
        .verbatim ⟨[], "const s: Tsconfig = a . Root;"⟩], []⟩ := by decide +kernel
  have hplain : Plain (elements (fun _ => true) "const s: Tsconfig = a . Root;".toList) = true := by
    decide +kernel
  have hdotted : ∀ e ∈ elements (fun _ => true) "const s: Tsconfig = a . Root;".toList,
      e.isDotted = false := by decide +kernel
  have helements : elements (fun _ => true) "const s: Tsconfig = a . Root;".toList =
      elements (fun _ => true) "const s: Tsconfig = a . ".toList ++
        ⟨.word, "Root".toList⟩ :: [⟨.sign, [';']⟩] := by decide +kernel
  have hmem : .verbatim ⟨[], "const s: Tsconfig = a . Root;"⟩ ∈
      [.typeAlias ⟨[], [], "Tsconfig", .keyword .string⟩,
        Statement.verbatim ⟨[], "const s: Tsconfig = a . Root;"⟩] := by simp
  exact ⟨hrename, helements,
    accesses_of_renameRoot rfl hrename (by decide) hmem hplain hdotted helements⟩

/-- A declaration whose type stands on the line behind a comment. -/
def documented : Declutter.Verbatim := ⟨[], "export declare const x: // see the docs.\nRoot;"⟩

/-- What stands before the type. -/
def documentedFront : List Element :=
  [⟨.word, "export".toList⟩, ⟨.blank, [' ']⟩, ⟨.word, "declare".toList⟩, ⟨.blank, [' ']⟩,
    ⟨.word, "const".toList⟩, ⟨.blank, [' ']⟩, ⟨.word, ['x']⟩, ⟨.sign, [':']⟩, ⟨.blank, [' ']⟩,
    ⟨.lineComment, "// see the docs.".toList⟩, ⟨.blank, ['\n']⟩]

theorem elements_documented (divides : Nat → Bool) :
    elements divides documented.text.toList =
      documentedFront ++ ⟨.word, "Root".toList⟩ :: [⟨.sign, [';']⟩] := by
  rfl

/-- A comment that ends in a full stop hides the name on the next line from the scanner, which takes
it for a member. -/
theorem exists_stale_name :
    ∃ (file result : SourceFile) (v : Declutter.Verbatim) (front back : List Element),
      ofText "type Root = string;\nexport declare const x: // see the docs.\nRoot;" = .ok file ∧
        file.rootName none = .ok "Root" ∧ file.renameRoot "Tsconfig" none = .ok result ∧
        .verbatim v ∈ result.statements ∧
        (∀ divides, elements divides v.text.toList = front ++ ⟨.word, "Root".toList⟩ :: back) ∧
        accesses front.reverse = false := by
  refine ⟨⟨[.typeAlias ⟨[], [], "Root", .keyword .string⟩, .verbatim documented], []⟩,
    ⟨[.typeAlias ⟨[], [], "Tsconfig", .keyword .string⟩, .verbatim documented], []⟩, documented,
    documentedFront, [⟨.sign, [';']⟩], by decide +kernel, rfl, by decide +kernel, by simp, ?_,
    by decide⟩
  exact fun divides => elements_documented divides

end Declutter.SourceFile
