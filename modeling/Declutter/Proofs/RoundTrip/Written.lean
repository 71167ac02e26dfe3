import Declutter.Proofs.RoundTrip.Comments
import Declutter.Proofs.RoundTrip.Tokens
import Declutter.Proofs.Parentheses

/-!
# Texts of types

`Writes phrase text ends` says that a text, wherever it stands in a source in front of one of the
characters `ends`, consists of lexemes and comments that spell a phrase. There is one rule for each
form of type that the printer writes.
-/

namespace Declutter.Syntax

open Printer

variable {source behind : List Char} {later : List Comment} {rest : List Lexeme}

/-! ## Single lexemes -/

namespace StandsBefore

variable {stops more : List Char}

theorem char {c : Char} (h : c ∈ stops) (cs : List Char) : StandsBefore stops (c :: cs) :=
  ⟨c, h, cs, rfl⟩

theorem mono (h : StandsBefore stops behind) (hsubset : stops ⊆ more) :
    StandsBefore more behind := by
  obtain ⟨c, hc, cs, rfl⟩ := h
  exact char (hsubset hc) cs

theorem word (h : StandsBefore typeStops behind) : StandsBefore wordStops behind :=
  h.mono (by decide)

end StandsBefore

namespace Lexes

theorem mark {c : Char} (hrest : Lexes source behind later rest) (h : c ∈ marks) :
    Lexes source (c :: behind) later
      (.ofSign (String.singleton c) (.within source (c :: behind) behind) :: rest) :=
  .token (.mark h behind) hrest

/-- An operator is read as itself in front of a blank and of what ends a type. -/
theorem operator {c : Char} (hrest : Lexes source behind later rest) (h : c ∈ operators)
    (hbehind : StandsBefore [' ', ':', ',', ']'] behind) :
    Lexes source (c :: behind) later
      (.ofSign (String.singleton c) (.within source (c :: behind) behind) :: rest) := by
  obtain ⟨next, hnext, more, rfl⟩ := hbehind
  have hdistinct : ∀ next ∈ [' ', ':', ',', ']'], next ∉ operators ∧ next ≠ '>' ∧
      next.isDigit = false := forall_mem_of_all (by decide)
  obtain ⟨hoperator, hgreater, hdigit⟩ := hdistinct next hnext
  have hne {other : Char} (hother : other ∈ operators) : next ≠ other := by
    rintro rfl
    exact hoperator hother
  exact .token (.operator h (hne h) (hne (by decide)) hgreater (fun _ => hdigit) more) hrest

theorem word {word : String} (h : isPlainWord word = true) (hrest : Lexes source behind later rest)
    (hbehind : StandsBefore wordStops behind) :
    Lexes source (word.toList ++ behind) later
      (⟨wordToken word, .within source (word.toList ++ behind) behind, false⟩ :: rest) := by
  rw [← String.ofList_toList (s := word)] at h ⊢
  rw [String.toList_ofList]
  cases htext : word.toList with
  | nil =>
    rw [htext] at h
    exact absurd h (by decide)
  | cons c text =>
    rw [htext] at h
    exact .token (.word h hbehind) hrest

end Lexes

/-! ## Written phrases -/

/-- A text that, in front of certain characters, consists of lexemes that spell a phrase, with comments
that are handed out to what is in it. -/
def Writes (phrase : Phrase) (text : String) (ends : List Char) : Prop :=
  ∀ source behind later rest, text.toList ++ behind <:+ source → StandsBefore ends behind →
    Lexes source behind later rest →
    ∃ front lexemes, Spells source phrase front later lexemes ∧
      Lexes source (text.toList ++ behind) front (lexemes ++ rest)

/-- What is spelled like one phrase is written like it. -/
theorem Writes.mono {phrase other : Phrase} {text : String} {ends more : List Char}
    (h : Writes phrase text ends)
    (himp : ∀ {source front later lexemes}, Spells source phrase front later lexemes →
      Spells source other front later lexemes)
    (hends : more ⊆ ends) : Writes other text more := by
  intro source behind later rest hsuffix hbehind hrest
  obtain ⟨front, lexemes, hspells, hlexes⟩ :=
    h source behind later rest hsuffix (hbehind.mono hends) hrest
  exact ⟨front, lexemes, himp hspells, hlexes⟩

theorem suffix_of_append {front cs : List Char} (h : front ++ cs <:+ source) : cs <:+ source :=
  (List.suffix_append front cs).trans h

/-! ## Words and literals -/

theorem isPlainWord_keyword (word : Keyword) : isPlainWord word.text = true := by
  cases word <;> decide

theorem Writes.keyword (word : Keyword) :
    Writes (.type (.keyword word)) word.text typeStops := by
  intro source behind later rest _ hbehind hrest
  exact ⟨_, _, .keyword, hrest.word (isPlainWord_keyword word) hbehind.word⟩

theorem Writes.boolean (value : Bool) :
    Writes (.type (.literal (.boolean value))) (Printer.literal (.boolean value)) typeStops := by
  intro source behind later rest _ hbehind hrest
  have hplain : isPlainWord (Printer.literal (.boolean value)) = true := by
    cases value <;> decide
  have htoken : wordToken (Printer.literal (.boolean value)) =
      .keyword (if value then "true" else "false") := by
    cases value <;> rfl
  have hlexes := hrest.word hplain hbehind.word
  rw [htoken] at hlexes
  exact ⟨_, _, .boolean, hlexes⟩

theorem Writes.string (value : String) (ends : List Char) :
    Writes (.type (.literal (.string value))) (Text.quote value) ends := by
  intro source behind later rest _ _ hrest
  have hlexes := Lexes.token (.quoted value behind) hrest
  have htext : (Text.quote value).toList = '"' :: (value.toList.flatMap Text.escapeChar ++ ['"']) :=
    String.toList_ofList
  rw [htext]
  exact ⟨_, _, .string, hlexes⟩

/-- A decimal integer, with or without a sign. -/
def isNumberText : List Char → Bool
  | '-' :: cs => isNumeral cs
  | cs => isNumeral cs

/-- A numeral has the text that it is written with. -/
theorem textOf_within {text : List Char} (h : text ++ behind <:+ source) :
    (Span.within source (text ++ behind) behind).start ≤
        (Span.within source (text ++ behind) behind).stop ∧
      Reading.textOf source (Span.within source (text ++ behind) behind) = String.ofList text := by
  refine ⟨?_, congrArg String.ofList (slice_within h)⟩
  simp only [Span.within, Text.byteLength_append]
  omega

theorem Writes.number {text : String} (h : isNumberText text.toList = true) :
    Writes (.type (.literal (.number text))) text typeStops := by
  intro source behind later rest hsuffix hbehind hrest
  have hplaced := textOf_within hsuffix
  rw [String.ofList_toList] at hplaced
  obtain ⟨hle, htext⟩ := hplaced
  unfold isNumberText at h
  split at h
  · rename_i digits heq
    rw [heq] at hsuffix hle htext ⊢
    cases digits with
    | nil => cases h
    | cons c digits =>
      obtain ⟨value, hscans⟩ := Scans.numeral h hbehind
      have hnumber := Lexes.token hscans hrest
      have hdigit : c.isDigit = true := by
        simp only [isNumeral, Bool.and_eq_true] at h
        exact h.1.1
      have hne {other : Char} (hother : other.isDigit = false) : c ≠ other := by
        rintro rfl
        rw [hother] at hdigit
        cases hdigit
      have hsign := Lexes.token (.operator (c := '-') (by decide) (hne rfl) (hne rfl) (hne rfl)
        (by rintro ⟨⟩) (digits ++ behind)) hnumber
      exact ⟨_, [.ofSign "-" (.within source ('-' :: c :: (digits ++ behind)) (c :: (digits ++ behind))),
        ⟨.number value _, .within source (c :: (digits ++ behind)) behind, false⟩],
        .negative hle htext, hsign⟩
  · cases hdigits : text.toList with
    | nil =>
      rw [hdigits] at h
      cases h
    | cons c digits =>
      rw [hdigits] at h hle htext
      obtain ⟨value, hscans⟩ := Scans.numeral h hbehind
      exact ⟨_, _, .number hle htext, .token hscans hrest⟩

/-! ## Names -/

theorem wordToken_of_isReferenceWord {word : String} (h : isReferenceWord word = true) :
    wordToken word = .name word := by
  simp only [isReferenceWord, Bool.and_eq_true, Bool.not_eq_true'] at h
  exact if_neg (Bool.eq_false_iff.mp h.1.2)

/-- A word can stand behind a point. -/
theorem Lexes.point {word : String} (h : isPlainWord word = true)
    (hrest : Lexes source (word.toList ++ behind) later rest) :
    Lexes source ('.' :: (word.toList ++ behind)) later
      (.ofSign "." (.within source ('.' :: (word.toList ++ behind)) (word.toList ++ behind)) ::
        rest) := by
  obtain ⟨hascii, hword⟩ := Bool.and_eq_true_iff.mp h
  unfold isIdentifier at hword
  cases htext : word.toList with
  | nil =>
    rw [htext] at hword
    cases hword
  | cons c text =>
    rw [htext] at hascii hword hrest
    have hc : isAscii c = true := List.all_eq_true.mp hascii c List.mem_cons_self
    obtain ⟨hpoint, hequals, hgreater, hdigit⟩ := forall_isAscii (P := fun c =>
      isWordStart c = true → c ≠ '.' ∧ c ≠ '=' ∧ c ≠ '>' ∧ c.isDigit = false) (by decide) hc
      (Bool.and_eq_true_iff.mp hword).1
    exact .token (.operator (c := '.') (by decide) hpoint hequals hgreater (fun _ => hdigit)
      (text ++ behind)) hrest

/-- Words with a point in front of each. -/
def pointed (words : List String) : List Char := words.flatMap fun word => '.' :: word.toList

theorem toList_intercalate_cons (word : String) (words : List String) :
    (".".intercalate (word :: words)).toList = word.toList ++ pointed words := by
  induction words generalizing word with
  | nil => simp [pointed]
  | cons next words ih =>
    rw [String.intercalate_cons_cons, String.toList_append, String.toList_append, ih, pointed, pointed,
      List.flatMap_cons, List.append_assoc]
    rfl

theorem exists_spellsWords {words : List String} (h : ∀ word ∈ words, isPlainWord word = true)
    (hbehind : StandsBefore wordStops behind) (hrest : Lexes source behind later rest) :
    ∃ lexemes, SpellsWords words lexemes ∧
      Lexes source (pointed words ++ behind) later (lexemes ++ rest) ∧
      StandsBefore wordStops (pointed words ++ behind) := by
  induction words with
  | nil => exact ⟨[], .nil, hrest, hbehind⟩
  | cons word words ih =>
    obtain ⟨hword, hwords⟩ := List.forall_mem_cons.mp h
    obtain ⟨lexemes, hspells, hlexes, hstands⟩ := ih hwords
    rw [pointed, List.flatMap_cons, List.cons_append, List.cons_append, List.append_assoc]
    exact ⟨_, .cons hspells, (hlexes.word hword hstands).point hword, .char (by decide) _⟩

/-- Words of ASCII, the first of which can begin a reference. -/
def isWrittenName : List String → Bool
  | [] => false
  | word :: words => isReferenceWord word && (word :: words).all isPlainWord

theorem exists_spellsName {words : List String} (h : isWrittenName words = true)
    (hbehind : StandsBefore wordStops behind) (hrest : Lexes source behind later rest) :
    ∃ lexemes, SpellsName words lexemes ∧
      Lexes source ((".".intercalate words).toList ++ behind) later (lexemes ++ rest) := by
  cases words with
  | nil => cases h
  | cons word words =>
    simp only [isWrittenName, List.all_cons, Bool.and_eq_true, List.all_eq_true] at h
    obtain ⟨hword, hplain, hwords⟩ := h
    obtain ⟨lexemes, hspells, hlexes, hstands⟩ := exists_spellsWords hwords hbehind hrest
    have hname := hlexes.word hplain hstands
    rw [wordToken_of_isReferenceWord hword] at hname
    rw [toList_intercalate_cons, List.append_assoc]
    exact ⟨_, .mk hword hspells, hname⟩

/-! ## References -/

/-- A text between two phrases that is read as a sign. -/
structure Separates (separator sign : String) : Prop where
  stands : ∀ behind, StandsBefore typeStops (separator.toList ++ behind)
  lexes : ∀ source behind later rest, Lexes source behind later rest →
    ∃ span, Lexes source (separator.toList ++ behind) later (.ofSign sign span :: rest)

namespace Separates

theorem comma : Separates ", " "," where
  stands behind := .char (by decide) _
  lexes source behind later rest hrest := ⟨_, hrest.blank.mark (c := ',') (by decide)⟩

theorem bar : Separates " | " "|" where
  stands behind := .char (by decide) _
  lexes source behind later rest hrest :=
    ⟨_, (hrest.blank.operator (c := '|') (by decide) (.char (by decide) _)).blank⟩

theorem ampersand : Separates " & " "&" where
  stands behind := .char (by decide) _
  lexes source behind later rest hrest :=
    ⟨_, (hrest.blank.operator (c := '&') (by decide) (.char (by decide) _)).blank⟩

end Separates

namespace Writes

theorem reference {words : List String} (h : isWrittenName words = true) :
    Writes (.type (.reference (".".intercalate words) [])) (".".intercalate words) typeStops := by
  intro source behind later rest _ hbehind hrest
  obtain ⟨lexemes, hspells, hlexes⟩ := exists_spellsName h hbehind.word hrest
  exact ⟨_, lexemes, .reference hspells, hlexes⟩

theorem applied {words : List String} {arguments : List TypeNode} {text : String}
    {ends : List Char} (h : isWrittenName words = true)
    (harguments : Writes (.types "," arguments) text typeStops) :
    Writes (.type (.reference (".".intercalate words) arguments))
      (".".intercalate words ++ "<" ++ text ++ ">") ends := by
  intro source behind later rest hsuffix _ hrest
  simp only [String.toList_append, String.reduceToList, List.append_assoc] at hsuffix ⊢
  have hright := hrest.mark (c := '>') (by decide)
  obtain ⟨_, inner, hinner, hlexes⟩ := harguments source _ _ _
    (suffix_of_append (suffix_of_append hsuffix)) (.char (by decide) _) hright
  have hleft := hlexes.mark (c := '<') (by decide)
  obtain ⟨name, hname, hlexes⟩ := exists_spellsName h (.char (by decide) _) hleft
  exact ⟨_, _, .applied hname hinner, by simpa using hlexes⟩

/-! ## Arrays, tuples and parentheses -/

theorem array {element : TypeNode} {text : String} {ends : List Char}
    (hnode : element.isCompound = false) (h : Writes (.type element) text typeStops) :
    Writes (.type (.array element)) (text ++ "[]") ends := by
  intro source behind later rest hsuffix _ hrest
  simp only [String.toList_append, String.reduceToList, List.append_assoc] at hsuffix ⊢
  have hright := hrest.mark (c := ']') (by decide)
  have hleft := hright.mark (c := '[') (by decide)
  obtain ⟨_, lexemes, hspells, hlexes⟩ := h source _ _ _ hsuffix (.char (by decide) _) hleft
  exact ⟨_, _, .array hnode hspells, by simpa using hlexes⟩

theorem emptyTuple (ends : List Char) : Writes (.type (.tuple [])) "[]" ends := by
  intro source behind later rest _ _ hrest
  have hright := hrest.mark (c := ']') (by decide)
  have hleft := hright.mark (c := '[') (by decide)
  exact ⟨_, _, .emptyTuple, hleft⟩

theorem tuple {elements : List TupleElement} {text : String} {ends : List Char}
    (hoptional : requiredAfterOptional elements = false)
    (h : Writes (.elements elements) text [',', ']']) :
    Writes (.type (.tuple elements)) ("[" ++ text ++ "]") ends := by
  intro source behind later rest hsuffix _ hrest
  simp only [String.toList_append, String.reduceToList, List.append_assoc] at hsuffix ⊢
  have hright := hrest.mark (c := ']') (by decide)
  obtain ⟨_, lexemes, hspells, hlexes⟩ :=
    h source _ _ _ (suffix_of_append hsuffix) (.char (by decide) _) hright
  have hleft := hlexes.mark (c := '[') (by decide)
  exact ⟨_, _, .tuple hoptional hspells, by simpa using hleft⟩

theorem parenthesized {inner : TypeNode} {text : String} {ends : List Char}
    (h : Writes (.type inner) text typeStops) :
    Writes (.type (.parenthesized inner)) ("(" ++ text ++ ")") ends := by
  intro source behind later rest hsuffix _ hrest
  simp only [String.toList_append, String.reduceToList, List.append_assoc] at hsuffix ⊢
  have hright := hrest.mark (c := ')') (by decide)
  obtain ⟨_, lexemes, hspells, hlexes⟩ :=
    h source _ _ _ (suffix_of_append hsuffix) (.char (by decide) _) hright
  have hleft := hlexes.mark (c := '(') (by decide)
  exact ⟨_, _, .parenthesized hspells, by simpa using hleft⟩

theorem guarded {node : TypeNode} {text : String} (position : Position)
    (h : Writes (.type node) text typeStops) :
    Writes (.type (node.guarded position)) (nested node position text) typeStops := by
  unfold TypeNode.guarded nested
  split
  · exact h.parenthesized
  · exact h

/-! ## Unions and intersections -/

theorem single {sign : String} {node : TypeNode} {text : String} {ends : List Char}
    (h : Writes (.type node) text ends) : Writes (.types sign [node]) text ends :=
  h.mono .single (List.Subset.refl _)

theorem append {separator sign : String} {nodes more : List TypeNode} {text later : String}
    {ends : List Char} (hseparates : Separates separator sign)
    (h : Writes (.types sign nodes) text typeStops) (hmore : Writes (.types sign more) later ends) :
    Writes (.types sign (nodes ++ more)) (text ++ separator ++ later) ends := by
  intro source behind later rest hsuffix hbehind hrest
  simp only [String.toList_append, List.append_assoc] at hsuffix ⊢
  obtain ⟨_, _, hspellsMore, hlexes⟩ :=
    hmore source _ _ _ (suffix_of_append (suffix_of_append hsuffix)) hbehind hrest
  obtain ⟨span, hlexes⟩ := hseparates.lexes _ _ _ _ hlexes
  obtain ⟨_, _, hspells, hlexes⟩ := h source _ _ _ hsuffix (hseparates.stands _) hlexes
  exact ⟨_, _, hspells.append hspellsMore, by simpa using hlexes⟩

theorem union {members : List TypeNode} {text : String} (hlength : 2 ≤ members.length)
    (hplain : ∀ member ∈ members, ∀ inner, member ≠ .union inner)
    (h : Writes (.types "|" members) text typeStops) :
    Writes (.type (.union members)) text typeStops :=
  h.mono (.union hlength hplain) (List.Subset.refl _)

theorem intersection {members : List TypeNode} {text : String} (hlength : 2 ≤ members.length)
    (hplain : ∀ member ∈ members, member.isCompound = false)
    (h : Writes (.types "&" members) text typeStops) :
    Writes (.type (.intersection members)) text typeStops :=
  h.mono (.intersection hlength hplain) (List.Subset.refl _)

/-- An intersection is written like its members. -/
theorem of_intersection {members : List TypeNode} {text : String}
    (h : Writes (.type (.intersection members)) text typeStops) :
    Writes (.types "&" members) text typeStops := by
  refine h.mono (fun hspells => ?_) (List.Subset.refl _)
  cases hspells with
  | intersection _ _ hmembers => exact hmembers

/-! ## Elements -/

theorem plainElement {type : TypeNode} {text : String} (h : Writes (.type type) text typeStops) :
    Writes (.element ⟨type, false, false⟩) text [',', ']'] :=
  h.mono .plainElement (by decide)

theorem optionalElement {type : TypeNode} {text : String} (hnode : type.isCompound = false)
    (h : Writes (.type type) text typeStops) :
    Writes (.element ⟨type, true, false⟩) (text ++ "?") [',', ']'] := by
  intro source behind later rest hsuffix hbehind hrest
  simp only [String.toList_append, String.reduceToList, List.append_assoc] at hsuffix ⊢
  have hmark := hrest.operator (c := '?') (by decide) (hbehind.mono (by decide))
  obtain ⟨_, lexemes, hspells, hlexes⟩ := h source _ _ _ hsuffix (.char (by decide) _) hmark
  exact ⟨_, _, .optionalElement hnode hspells, by simpa using hlexes⟩

theorem restElement {type : TypeNode} {text : String} (h : Writes (.type type) text typeStops) :
    Writes (.element ⟨type, false, true⟩) ("..." ++ text) [',', ']'] := by
  intro source behind later rest hsuffix hbehind hrest
  simp only [String.toList_append, String.reduceToList, List.append_assoc] at hsuffix ⊢
  obtain ⟨_, lexemes, hspells, hlexes⟩ :=
    h source _ _ _ (suffix_of_append hsuffix) (hbehind.mono (by decide)) hrest
  exact ⟨_, _, .restElement hspells, .token (.dots _) hlexes⟩

theorem singleElement {element : TupleElement} {text : String} {ends : List Char}
    (h : Writes (.element element) text ends) : Writes (.elements [element]) text ends :=
  h.mono .singleElement (List.Subset.refl _)

theorem consElement {element : TupleElement} {elements : List TupleElement} {text later : String}
    {ends : List Char} (h : Writes (.element element) text [',', ']'])
    (hmore : Writes (.elements elements) later ends) :
    Writes (.elements (element :: elements)) (text ++ ", " ++ later) ends := by
  intro source behind later rest hsuffix hbehind hrest
  simp only [String.toList_append, String.reduceToList, List.append_assoc] at hsuffix ⊢
  obtain ⟨_, _, hspellsMore, hlexes⟩ :=
    hmore source _ _ _ (suffix_of_append (suffix_of_append hsuffix)) hbehind hrest
  have hcomma := hlexes.blank.mark (c := ',') (by decide)
  obtain ⟨_, _, hspells, hlexes⟩ := h source _ _ _ hsuffix (.char (by decide) _) hcomma
  exact ⟨_, _, .consElement hspells hspellsMore, by simpa using hlexes⟩

end Writes

/-! ## Members -/

/-- The word `readonly` in front of the first token of a member. -/
theorem exists_spellsReadonly {token : Token} {stop : List Char} (readonly : Bool)
    (h : Lexes source behind later (⟨token, .within source behind stop, false⟩ :: rest)) :
    ∃ head, head ≠ [] ∧
      SpellsHead token readonly
        (Cursor.within source ((if readonly then "readonly " else "").toList ++ behind)).offset
        (broken head) ∧
      Lexes source ((if readonly then "readonly " else "").toList ++ behind) later
        (head ++ rest) := by
  cases readonly with
  | false =>
    have hspells : SpellsHead token false (Span.within source behind stop).start
        [⟨token, .within source behind stop, true⟩] := .plain
    exact ⟨[⟨token, .within source behind stop, false⟩], by simp, hspells, h⟩
  | true =>
    let word : Span := .within source ("readonly".toList ++ ' ' :: behind) (' ' :: behind)
    have hspells : SpellsHead token true word.start
        [⟨.name "readonly", word, true⟩, ⟨token, .within source behind stop, false⟩] := .readonly
    have hplain : isPlainWord "readonly" = true := by decide
    have hlexes := h.blank.word hplain (.char (by decide) _)
    exact ⟨[⟨.name "readonly", word, false⟩, ⟨token, .within source behind stop, false⟩], by simp,
      hspells, hlexes⟩

/-- A member begins with comments on lines of their own, which it gets, and the word `readonly`. -/
theorem exists_spellsHead {token : Token} {texts : List String} {stop : List Char}
    {inner : List Comment} {insides more : List Lexeme} (depth : Nat) (readonly : Bool)
    (opening closing : List Char) (htexts : ∀ text ∈ texts, IsCommentText text.toList) (hopening : opening ≠ [])
    (hsuffix : (comments depth texts).toList ++ ((pad depth).toList ++
      ((if readonly then "readonly " else "").toList ++ (opening ++ (closing ++ behind)))) <:+ source)
    (hfirst : Lexes source (opening ++ (closing ++ behind)) inner
      (⟨token, .within source (opening ++ (closing ++ behind)) stop, false⟩ :: rest))
    (hinner : Lexes source (closing ++ behind) inner insides)
    (hbehind : Lexes source behind later more) :
    ∃ front start head, SpellsHead token readonly start head ∧
      Commented source texts front inner later start (Cursor.within source behind).offset ∧
      Lexes source ('\n' :: ((comments depth texts).toList ++ ((pad depth).toList ++
        ((if readonly then "readonly " else "").toList ++ (opening ++ (closing ++ behind))))))
        front (head ++ rest) := by
  have hpad : (pad depth).toList = List.replicate (2 * depth) ' ' := String.toList_ofList
  have hblanks := suffix_of_append hsuffix
  have hline := suffix_of_append hblanks
  have hopened := suffix_of_append hline
  have hclosed := suffix_of_append hopened
  obtain ⟨head, hne, hspells, hlexes⟩ := exists_spellsReadonly readonly hfirst
  obtain ⟨taken, marked, hmarked, hlexes, htaken, hstops⟩ :=
    Lexes.comments_ahead htexts depth hsuffix (hpad ▸ hlexes.blanks (2 * depth))
  have hstart := Cursor.offset_within_append hblanks
  have hword := Cursor.offset_within_append hline
  have hinside := Cursor.offset_within_append hopened
  have hstop := Cursor.offset_within_append hclosed
  have hlength := Text.byteLength_pos hopening
  refine ⟨taken ++ inner, _, broken head, hspells, ?_, ?_⟩
  · exact .of_lexes htaken (fun comment hmem => Nat.le_trans (hstops comment hmem) (by omega)) hinner
      hclosed (by omega) hbehind (suffix_of_append hclosed) (by omega)
  · rw [← broken_append hne, ← hmarked]
    exact hlexes.line

theorem exists_spellsKey {name : String}
    (h : isIdentifier name = true → name.toList.all isAscii = true)
    (hbehind : StandsBefore wordStops behind) (hrest : Lexes source behind later rest) :
    ∃ token, SpellsKey name token ∧ Lexes source ((propertyName name).toList ++ behind) later
      (⟨token, .within source ((propertyName name).toList ++ behind) behind, false⟩ :: rest) := by
  unfold propertyName
  split
  · rename_i hidentifier
    have hplain : isPlainWord name = true :=
      Bool.and_eq_true_iff.mpr ⟨h hidentifier, hidentifier⟩
    exact ⟨_, .word hidentifier, hrest.word hplain hbehind⟩
  · have hlexes := Lexes.token (.quoted name behind) hrest
    have htext : (Text.quote name).toList = '"' :: (name.toList.flatMap Text.escapeChar ++ ['"']) :=
      String.toList_ofList
    rw [htext]
    exact ⟨_, .string, hlexes⟩

theorem exists_spellsOptional (optional : Bool) (hbehind : StandsBefore [':'] behind)
    (hrest : Lexes source behind later rest) :
    ∃ mark, SpellsOptional optional mark ∧
      Lexes source ((if optional then "?" else "").toList ++ behind) later (mark ++ rest) ∧
      StandsBefore wordStops ((if optional then "?" else "").toList ++ behind) := by
  cases optional with
  | false => exact ⟨[], .required, hrest, hbehind.mono (by decide)⟩
  | true =>
    have hmark := hrest.operator (c := '?') (by decide) (hbehind.mono (by decide))
    exact ⟨_, .optional, hmark, .char (by decide) _⟩

namespace Writes

/-! ## Members of a shape, each with the line end in front of it -/

theorem noMembers (ends : List Char) : Writes (.members []) "" ends :=
  fun _ _ _ _ _ _ hrest => ⟨_, [], .noMembers, hrest⟩

theorem property {name text lines : String} {texts : List String} {type : TypeNode}
    {members : List TypeMember} {ends : List Char} (depth : Nat) (readonly optional : Bool)
    (htexts : ∀ text ∈ texts, IsCommentText text.toList)
    (hname : isIdentifier name = true → name.toList.all isAscii = true)
    (htype : Writes (.type type) text typeStops) (hmembers : Writes (.members members) lines ends) :
    Writes (.members (.property ⟨texts, readonly, name, optional, type⟩ :: members))
      ("\n" ++ comments depth texts ++ pad depth ++ (if readonly then "readonly " else "") ++
        propertyName name ++ (if optional then "?" else "") ++ ": " ++ text ++ ";" ++ lines) ends := by
  intro source behind later rest hsuffix hbehind hrest
  simp only [String.toList_append, List.append_assoc] at hsuffix ⊢
  -- each token is read in front of those behind it, so the line is gone through from its end
  have hbegin := suffix_of_append hsuffix
  have htail := suffix_of_append (suffix_of_append (suffix_of_append (suffix_of_append
    (suffix_of_append (suffix_of_append hbegin)))))
  obtain ⟨_, _, hspellsMore, hbelow⟩ :=
    hmembers source _ _ _ (suffix_of_append (suffix_of_append htail)) hbehind hrest
  have hlexes := hbelow.mark (c := ';') (by decide)
  obtain ⟨_, _, hspells, hinner⟩ := htype source _ _ _ htail (.char (by decide) _) hlexes
  replace hlexes := hinner.blank.mark (c := ':') (by decide)
  obtain ⟨_, hmark, hlexes, hstands⟩ :=
    exists_spellsOptional optional (.char (by decide) _) hlexes
  obtain ⟨_, hkey, hlexes⟩ := exists_spellsKey hname hstands hlexes
  obtain ⟨_, _, _, hhead, hcommented, hlexes⟩ := exists_spellsHead depth readonly
    ((propertyName name).toList ++ ((if optional then "?" else "").toList ++ ": ".toList))
    (text.toList ++ ";".toList) htexts (by simp) (by simpa using hbegin) (by simpa using hlexes)
    (by simpa using hinner) hbelow
  exact ⟨_, _, .property hkey hhead hmark hcommented hspells hspellsMore, by simpa using hlexes⟩

theorem index {parameter keyText text lines : String} {texts : List String} {key value : TypeNode}
    {members : List TypeMember} {ends : List Char} (depth : Nat) (readonly : Bool)
    (htexts : ∀ text ∈ texts, IsCommentText text.toList)
    (hparameter : isPlainWord parameter = true)
    (hbindable : (wordToken parameter).isBindable = true)
    (hkey : Writes (.type key) keyText typeStops) (hvalue : Writes (.type value) text typeStops)
    (hmembers : Writes (.members members) lines ends) :
    Writes (.members (.index ⟨texts, readonly, parameter, key, value⟩ :: members))
      ("\n" ++ comments depth texts ++ pad depth ++ (if readonly then "readonly " else "") ++ "[" ++
        parameter ++ ": " ++ keyText ++ "]: " ++ text ++ ";" ++ lines) ends := by
  intro source behind later rest hsuffix hbehind hrest
  simp only [String.toList_append, List.append_assoc] at hsuffix ⊢
  have hbegin := suffix_of_append hsuffix
  have hkeyTail := suffix_of_append (suffix_of_append (suffix_of_append (suffix_of_append
    (suffix_of_append (suffix_of_append hbegin)))))
  have htail := suffix_of_append (suffix_of_append hkeyTail)
  obtain ⟨_, _, hspellsMore, hbelow⟩ :=
    hmembers source _ _ _ (suffix_of_append (suffix_of_append htail)) hbehind hrest
  have hlexes := hbelow.mark (c := ';') (by decide)
  obtain ⟨_, _, hspells, hlexes⟩ := hvalue source _ _ _ htail (.char (by decide) _) hlexes
  replace hlexes := (hlexes.blank.mark (c := ':') (by decide)).mark (c := ']') (by decide)
  obtain ⟨_, _, hspellsKey, hinner⟩ := hkey source _ _ _ hkeyTail (.char (by decide) _) hlexes
  replace hlexes := (hinner.blank.mark (c := ':') (by decide)).word hparameter (.char (by decide) _)
  replace hlexes := hlexes.mark (c := '[') (by decide)
  obtain ⟨_, _, _, hhead, hcommented, hlexes⟩ := exists_spellsHead depth readonly
    ("[".toList ++ (parameter.toList ++ ": ".toList))
    (keyText.toList ++ ("]: ".toList ++ (text.toList ++ ";".toList))) htexts (by simp)
    (by simpa using hbegin) (by simpa [Lexeme.ofSign] using hlexes) (by simpa using hinner) hbelow
  have hfree : IsFreeName parameter := ⟨(Bool.and_eq_true_iff.mp hparameter).2, hbindable⟩
  exact ⟨_, _, .index hfree hhead hcommented hspellsKey hspells hspellsMore,
    by simpa [Lexeme.ofSign] using hlexes⟩

end Writes

/-- A text of members between braces, the second of which ends it. -/
def WritesBraced (members : List TypeMember) (text : String) : Prop :=
  ∀ source behind later rest, text.toList ++ behind <:+ source → Lexes source behind later rest →
    ∃ front left lexemes afterBreak, Spells source (.members members) front later lexemes ∧
      Lexes source (text.toList ++ behind) front (.ofSign leftBrace left :: (lexemes ++
        ⟨.sign rightBrace, .within source ('\x7d' :: behind) behind, afterBreak⟩ :: rest))

namespace WritesBraced

variable {members : List TypeMember} {text : String}

theorem shape (h : WritesBraced members text) (ends : List Char) :
    Writes (.type (.typeLiteral members)) text ends := by
  intro source behind later rest hsuffix _ hrest
  obtain ⟨_, _, _, _, hspells, hlexes⟩ := h source behind later rest hsuffix hrest
  exact ⟨_, _, .shape hspells, by simpa using hlexes⟩

/-- Braces around members, given the text of each. -/
theorem braced {texts : List String} {lines : String} (depth : Nat)
    (hempty : texts = [] → members = []) (hlines : "\n" ++ String.join texts = lines ++ "\n")
    (h : Writes (.members members) lines ['\n']) :
    WritesBraced members (Printer.braced depth texts) := by
  intro source behind later rest hsuffix hrest
  have hright := hrest.mark (c := '\x7d') (by decide)
  unfold Printer.braced at hsuffix ⊢
  split at hsuffix
  · rename_i hnone
    rw [if_pos hnone, hempty (List.isEmpty_iff.mp hnone)]
    exact ⟨_, _, [], _, .noMembers, hright.mark (c := '\x7b') (by decide)⟩
  · rename_i hsome
    rw [if_neg hsome]
    have htext : "\x7b\n" ++ String.join texts ++ pad depth ++ "\x7d" =
        "\x7b" ++ lines ++ "\n" ++ pad depth ++ "\x7d" :=
      calc "\x7b\n" ++ String.join texts ++ pad depth ++ "\x7d"
        _ = "\x7b" ++ ("\n" ++ String.join texts) ++ pad depth ++ "\x7d" := by
          rw [← String.append_assoc]
          rfl
        _ = _ := by rw [hlines, ← String.append_assoc]
    rw [htext] at hsuffix ⊢
    have hpad : (pad depth).toList = List.replicate (2 * depth) ' ' := String.toList_ofList
    simp only [String.toList_append, String.reduceToList, hpad, List.append_assoc] at hsuffix ⊢
    obtain ⟨_, _, hspells, hlexes⟩ := h source _ _ _ (suffix_of_append hsuffix) (.char (by decide) _)
      (hright.blanks (2 * depth)).line
    exact ⟨_, _, _, _, hspells, hlexes.mark (c := '\x7b') (by decide)⟩

end WritesBraced

end Declutter.Syntax
