import Declutter.Proofs.RoundTrip.Settled
import Declutter.Proofs.RoundTrip.Statements
import Declutter.Proofs.Trace

/-!
# Reading the text of a file

A file of aliases and interfaces whose types and comments can be written is read back from its text
with its types settled: `SourceFile.ofText_print`.
-/

namespace Declutter

open Printer Syntax

/-! ## Files that can be written -/

namespace Statement

/-- What stands in front of a name: comments that can be written, and no modifier but `export`. -/
def HasLegibleHead (leadingComments : List String) (modifiers : List Modifier) : Prop :=
  (∀ text ∈ leadingComments, IsCommentText text.toList) ∧ (modifiers = [] ∨ modifiers = [.exported])

/-- Whether a statement can be read back from its text: an alias, or an interface that extends
nothing, with a head that can be written, a word of ASCII for its name, and legible types. -/
def Legible : Statement → Prop
  | .typeAlias a => HasLegibleHead a.leadingComments a.modifiers ∧ isPlainWord a.name = true ∧
      a.type.Legible
  | .interface i => HasLegibleHead i.leadingComments i.modifiers ∧ i.heritage = [] ∧
      isPlainWord i.name = true ∧ Grammar.refusedInterfaceNames.contains i.name = false ∧
      (TypeNode.typeLiteral i.members).Legible
  | .verbatim _ => False

instance (leadingComments : List String) (modifiers : List Modifier) :
    Decidable (HasLegibleHead leadingComments modifiers) := inferInstanceAs (Decidable (_ ∧ _))

instance : (statement : Statement) → Decidable statement.Legible
  | .typeAlias _ | .interface _ => inferInstanceAs (Decidable (_ ∧ _))
  | .verbatim _ => inferInstanceAs (Decidable False)

/-- A statement with its types settled. -/
def settled : Statement → Statement
  | .typeAlias a => .typeAlias { a with type := a.type.settled }
  | .interface i => .interface { i with members := TypeNode.settledMembers i.members }
  | .verbatim v => .verbatim v

end Statement

namespace SourceFile

/-- Whether a file can be read back from its text. -/
def Legible (file : SourceFile) : Prop :=
  (∀ statement ∈ file.statements, statement.Legible) ∧
    ∀ text ∈ file.trailingComments, IsCommentText text.toList

instance (file : SourceFile) : Decidable file.Legible := inferInstanceAs (Decidable (_ ∧ _))

/-- A file with its types settled. -/
def settled (file : SourceFile) : SourceFile :=
  { file with statements := file.statements.map (·.settled) }

end SourceFile

/-! ## Texts of statements -/

namespace Syntax

variable {source behind : List Char} {later : List Comment} {rest : List Lexeme}

theorem isAngle_wordToken {name : String} (h : isIdentifier name = true) :
    (wordToken name).isAngle = false := by
  have hkey : SpellsKey name (wordToken name) := .word h
  rw [Token.isAngle, hkey.spells_eq_false (by decide), hkey.spells_eq_false (by decide)]
  rfl

theorem spellsWord_of_isPlainWord {name : String} (h : isPlainWord name = true) :
    SpellsWord (wordToken name) name :=
  ⟨wordToken_word? name, isAngle_wordToken (Bool.and_eq_true_iff.mp h).2⟩

namespace SpellsDeclaration

variable {word : String} {site : Site Statement} {stop : Nat} {lexemes : List Lexeme}

theorem isPlainWord (h : SpellsDeclaration source word site stop lexemes) :
    isPlainWord word = true := by
  obtain ⟨rfl | rfl, -⟩ := h.begins <;> decide

theorem wordToken (h : SpellsDeclaration source word site stop lexemes) :
    wordToken word = .name word := by
  obtain ⟨rfl | rfl, -⟩ := h.begins <;> rfl

end SpellsDeclaration

/-- A text that, behind its word, is that of a declaration. -/
def WritesDeclaration (word : String) (declaration : Statement) (text : String) : Prop :=
  ∀ source behind later rest, text.toList ++ behind <:+ source → Lexes source behind later rest →
    ∃ inner lexemes, SpellsDeclaration source word ⟨declaration, inner, later⟩
        (Cursor.within source behind).offset lexemes ∧
      Lexes source (text.toList ++ behind) inner (lexemes ++ rest)

/-- A text that, on a line of its own, is that of a statement. -/
def WritesStatement (statement : Statement) (text : String) : Prop :=
  ∀ source behind later rest, text.toList ++ behind <:+ source → Lexes source behind later rest →
    ∃ front lexemes marked, SpellsStatement source ⟨statement, front, later⟩ lexemes ∧
      broken marked = lexemes ++ rest ∧ Lexes source (text.toList ++ behind) front marked

/-- What begins a statement gets the comments on lines of their own in front of it. -/
theorem exists_commented {texts : List String} (opening : List Char) {closing : List Char}
    {inner : List Comment} {first insides : List Lexeme} (htexts : ∀ text ∈ texts, IsCommentText text.toList)
    (hopening : opening ≠ [])
    (hsuffix : (comments 0 texts).toList ++ (opening ++ (closing ++ behind)) <:+ source)
    (hfirst : Lexes source (opening ++ (closing ++ behind)) inner first)
    (hinner : Lexes source (closing ++ behind) inner insides)
    (hbehind : Lexes source behind later rest) :
    ∃ front marked, broken marked = broken first ∧
      Commented source texts front inner later
        (Cursor.within source (opening ++ (closing ++ behind))).offset
        (Cursor.within source behind).offset ∧
      Lexes source ((comments 0 texts).toList ++ (opening ++ (closing ++ behind))) front marked := by
  have hopened := suffix_of_append hsuffix
  have hclosed := suffix_of_append hopened
  obtain ⟨taken, marked, hmarked, hlexes, htaken, hstops⟩ :=
    Lexes.comments_ahead htexts 0 hsuffix hfirst
  have hinside := Cursor.offset_within_append hopened
  have hbelow := Cursor.offset_within_append hclosed
  have hlength := Text.byteLength_pos hopening
  exact ⟨taken ++ inner, marked, hmarked, .of_lexes htaken hstops hinner hclosed (by omega) hbehind
    (suffix_of_append hclosed) (by omega), hlexes⟩

namespace WritesDeclaration

variable {word text name : String} {declaration : Statement} {texts : List String}

theorem typeAlias {node : TypeNode} (hname : isPlainWord name = true)
    (h : Writes (.type node) text typeStops) :
    WritesDeclaration "type" (.typeAlias ⟨[], [], name, node⟩) (name ++ " = " ++ text ++ ";") := by
  intro source behind later rest hsuffix hrest
  simp only [String.toList_append, List.append_assoc] at hsuffix ⊢
  have htail := suffix_of_append (suffix_of_append hsuffix)
  have hlexes := hrest.mark (c := ';') (by decide)
  obtain ⟨_, lexemes, hspells, hlexes⟩ := h source _ _ _ htail (.char (by decide) _) hlexes
  replace hlexes := (hlexes.blank.operator (c := '=') (by decide) (.char (by decide) _)).blank
  replace hlexes := hlexes.word hname (.char (by decide) _)
  exact ⟨_, _, .typeAlias (spellsWord_of_isPlainWord hname) hspells rfl, by simpa using hlexes⟩

theorem interface {members : List TypeMember} (hname : isPlainWord name = true)
    (hallowed : Grammar.refusedInterfaceNames.contains name = false)
    (h : WritesBraced members text) :
    WritesDeclaration "interface" (.interface ⟨[], [], name, [], members⟩)
      (name ++ " " ++ text) := by
  intro source behind later rest hsuffix hrest
  simp only [String.toList_append, List.append_assoc] at hsuffix ⊢
  have htail := suffix_of_append (suffix_of_append hsuffix)
  obtain ⟨_, _, _, _, hmembers, hlexes⟩ := h source _ _ _ htail hrest
  replace hlexes := hlexes.blank.word hname (.char (by decide) _)
  exact ⟨_, _, .interface (spellsWord_of_isPlainWord hname) hallowed hmembers rfl,
    by simpa using hlexes⟩

theorem plain (h : WritesDeclaration word declaration text)
    (htexts : ∀ text ∈ texts, IsCommentText text.toList) :
    WritesStatement (declaration.commented texts) (comments 0 texts ++ (word ++ " " ++ text)) := by
  intro source behind later rest hsuffix hrest
  simp only [String.toList_append, List.append_assoc] at hsuffix ⊢
  obtain ⟨inner, lexemes, hspells, hlexes⟩ :=
    h source behind later rest (suffix_of_append (suffix_of_append (suffix_of_append hsuffix))) hrest
  have hword := hlexes.blank.word hspells.isPlainWord (.char (by decide) _)
  rw [hspells.wordToken] at hword
  obtain ⟨front, marked, hmarked, hcommented, hlexes⟩ :=
    exists_commented (word.toList ++ " ".toList) htexts (by simp) (by simpa using hsuffix)
      (by simpa using hword) hlexes hrest
  exact ⟨front, _, marked, .plain hspells hcommented (by simp [Span.within, Cursor.within]), hmarked,
    by simpa using hlexes⟩

theorem exported (h : WritesDeclaration word declaration text)
    (htexts : ∀ text ∈ texts, IsCommentText text.toList) :
    WritesStatement ((declaration.modified .exported).commented texts)
      (comments 0 texts ++ ("export " ++ (word ++ " " ++ text))) := by
  intro source behind later rest hsuffix hrest
  simp only [String.toList_append, List.append_assoc] at hsuffix ⊢
  obtain ⟨inner, lexemes, hspells, hlexes⟩ := h source behind later rest
    (suffix_of_append (suffix_of_append (suffix_of_append (suffix_of_append hsuffix)))) hrest
  have hplain : isPlainWord "export" = true := by decide
  have hword := hlexes.blank.word hspells.isPlainWord (.char (by decide) _)
  rw [hspells.wordToken] at hword
  replace hword := hword.blank.word hplain (.char (by decide) _)
  obtain ⟨front, marked, hmarked, hcommented, hlexes⟩ :=
    exists_commented ("export ".toList ++ (word.toList ++ " ".toList)) htexts (by simp)
      (by simpa using hsuffix) (by simpa using hword) hlexes hrest
  exact ⟨front, _, marked, .exported hspells hcommented (by simp [Span.within, Cursor.within]),
    hmarked, by simpa using hlexes⟩

end WritesDeclaration

end Syntax

namespace Statement

end Statement

/-! ## The round trip of files -/

/-- A text of lexemes does not begin with the mark of an encoding. -/
theorem withoutMark_of_lexes {source cs : List Char} {comments : List Comment}
    {lexemes : List Lexeme} (h : Lexes source cs comments lexemes) :
    Reading.withoutMark cs = cs := by
  unfold Reading.withoutMark
  split
  · exact absurd rfl (h.head_ne _ rfl).2
  · rfl

namespace SourceFile

/-- A text of statements that are spelled one behind the other is read as a file. -/
theorem ofText_eq_ok {text : String} {statements : List Statement} {front left : List Comment}
    {lexemes : List Lexeme}
    (h : SpellsStatements text.toList statements front left (broken lexemes))
    (hlexes : Lexes text.toList text.toList front lexemes) :
    ofText text = .ok ⟨statements, left.map (Reading.commentText text.toList)⟩ := by
  obtain ⟨items, hparse, hitems⟩ := Source.parse_statements h hlexes
  have hitems : (Reading.statements text.toList items).run front = .ok (statements, left) := hitems
  unfold ofText
  simp only [withoutMark_of_lexes hlexes, hparse]
  show (Except.mapError _ ((Reading.statements text.toList items).run front)).bind _ = _
  rw [hitems]
  rfl

end SourceFile

end Declutter
