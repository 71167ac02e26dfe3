import Declutter.Proofs.Clashes
import Declutter.Proofs.ParsedFiles

/-!
# Names that texts declare

Every alias and interface of a file that was read is called by a word of the text. Which characters
a word can have is said twice: by the grammar, for the texts that are read, and by `isIdentifier`,
for the names that a file may declare. The two agree on ASCII and on nearly all letters. Beyond
these the grammar takes combining marks, joiners and connectors inside of a word, and numbers that
are letters at its beginning, and a bare name has none of them. So a name is refused exactly if it
has such a character, as long as no escape brings in another one: `isIdentifier_eq_of_ofText`.
-/

namespace Declutter

namespace Syntax

/-! ## Characters of words -/

/-- A character that can begin a word of a text but no bare name. -/
def isForeignStart (c : Char) : Bool := startsWord c && !isWordStart c

/-- A character that a word of a text can have but no bare name. -/
def isForeignPart (c : Char) : Bool := continuesWord c && !isWordPart c

/-- Whether a word has a character, at its beginning or anywhere, that no bare name can have there. -/
def hasForeign (cs : List Char) : Bool := cs.head?.any isForeignStart || cs.any isForeignPart

/-- A text with a Unicode escape that stands for something else than what can begin a bare name. -/
def HidesStray (text : List Char) : Prop :=
  ∃ behind, '\\' :: 'u' :: behind <:+ text ∧ ∃ offset value length faults,
    Escape.ofUnicode offset behind = .chars value length faults ∧
      ∃ c ∈ value, isWordStart c = false

/-- A word as the grammar takes it: a start and then parts. An escape stands for a start. -/
def IsGrammarWord (cs : List Char) : Prop :=
  (∀ c ∈ cs.head?, startsWord c = true ∨ isWordStart c = true) ∧ cs ≠ [] ∧
    ∀ c ∈ cs, continuesWord c = true ∨ isWordStart c = true

theorem isForeignStart_eq {c : Char} (h : startsWord c = true ∨ isWordStart c = true) :
    isForeignStart c = !isWordStart c := by
  rw [isForeignStart]
  rcases h with h | h <;> rw [h]
  · rw [Bool.true_and]
  · rw [Bool.not_true, Bool.and_false]

theorem isForeignPart_eq {c : Char} (h : continuesWord c = true ∨ isWordStart c = true) :
    isForeignPart c = !isWordPart c := by
  rw [isForeignPart]
  rcases h with h | h
  · rw [h, Bool.true_and]
  · rw [isWordPart, h, Bool.true_or, Bool.not_true, Bool.and_false]

theorem any_isForeignPart {cs : List Char}
    (h : ∀ c ∈ cs, continuesWord c = true ∨ isWordStart c = true) :
    cs.any isForeignPart = !cs.all isWordPart := by
  induction cs with
  | nil => rfl
  | cons c cs ih =>
    obtain ⟨hc, hcs⟩ := List.forall_mem_cons.mp h
    rw [List.any_cons, List.all_cons, ih hcs, isForeignPart_eq hc, Bool.not_and]

/-- A word of the grammar is a bare name unless a character of it is foreign. -/
theorem IsGrammarWord.isWord_eq {cs : List Char} (h : IsGrammarWord cs) :
    isWord cs = !hasForeign cs := by
  obtain ⟨hstart, hne, hparts⟩ := h
  cases cs with
  | nil => exact absurd rfl hne
  | cons c cs =>
    obtain ⟨hc, hcs⟩ := List.forall_mem_cons.mp hparts
    rw [isWord, hasForeign, List.head?_cons, Option.any_some, List.any_cons, any_isForeignPart hcs,
      isForeignStart_eq (hstart c rfl), isForeignPart_eq hc, isWordPart]
    cases isWordStart c <;> cases Text.isNumber c <;> cases cs.all isWordPart <;> rfl

/-! ## Words that are read -/

theorem HidesStray.of_suffix {cs text : List Char} (h : HidesStray cs) (hsuffix : cs <:+ text) :
    HidesStray text := by
  obtain ⟨behind, hbehind, hstray⟩ := h
  exact ⟨behind, hbehind.trans hsuffix, hstray⟩

/-- All that is read of a word are parts of words, unless an escape stands for something else. -/
theorem Word.forall_mem_scan {skip offset : Nat} {cs : List Char} (hplain : ¬ HidesStray cs) :
    ∀ c ∈ (scan skip offset cs).value, continuesWord c = true ∨ isWordStart c = true := by
  fun_induction scan skip offset cs with
  | case1 => nofun
  | case2 skip offset c cs word ih => exact ih fun h => hplain (h.of_suffix (List.suffix_cons c cs))
  | case3 offset behind value length faults heq ih =>
    have hbehind := ih fun h => hplain (h.of_suffix (List.suffix_cons '\\' _))
    intro c hmem
    rcases List.mem_append.mp hmem with hmem | hmem
    · refine .inr (Bool.not_eq_false _ ▸ fun hstray => hplain ?_)
      exact ⟨behind, List.suffix_refl _, offset, value, length, faults, heq, c, hmem, hstray⟩
    · exact hbehind c hmem
  | case4 => nofun
  | case5 => nofun
  | case6 offset c cs hescape hcontinues word ih =>
    have hbehind := ih fun h => hplain (h.of_suffix (List.suffix_cons c cs))
    exact List.forall_mem_cons.mpr ⟨.inl hcontinues, hbehind⟩
  | case7 => nofun

/-- A word begins with a character that can start one, or with what an escape stands for. -/
theorem Word.exists_head_scan {offset : Nat} {c : Char} {cs : List Char}
    (hstart : startsWord c = true ∨ c = '\\') (hbad : (scan 0 offset (c :: cs)).bad = none)
    (hplain : ¬ HidesStray (c :: cs)) :
    ∃ d ds, (scan 0 offset (c :: cs)).value = d :: ds ∧
      (startsWord d = true ∨ isWordStart d = true) := by
  unfold scan at hbad ⊢
  by_cases hc : c = '\\'
  · subst c
    rw [if_pos rfl] at hbad ⊢
    split at hbad
    · rename_i behind
      dsimp only at hbad ⊢
      split at hbad
      · rename_i value length faults heq
        have hvalue : ∃ d ds, value = d :: ds := by
          obtain ⟨d, rfl⟩ | ⟨d, ds, rfl, -⟩ := Escape.value_of_ofUnicode heq
          · exact ⟨d, [], rfl⟩
          · exact ⟨d, ds, rfl⟩
        obtain ⟨d, ds, rfl⟩ := hvalue
        refine ⟨d, _, rfl, .inr (Bool.not_eq_false _ ▸ fun hstray => hplain ?_)⟩
        exact ⟨behind, List.suffix_refl _, offset, _, length, faults, heq, d,
          List.mem_cons_self, hstray⟩
      · cases hbad
    · cases hbad
  · have hstarts : startsWord c = true := hstart.resolve_right hc
    have hcontinues : continuesWord c = true := by simp [continuesWord, hstarts]
    rw [if_neg hc, if_pos hcontinues]
    exact ⟨c, _, rfl, .inl hstarts⟩

/-- The words of a text are words of the grammar, unless an escape stands for something else. -/
theorem Token.ReadFrom.isGrammarWord {text : List Char} {token : Token} (h : token.ReadFrom text)
    (hplain : ¬ HidesStray text) {word : String} (hword : token.word? = some word) :
    IsGrammarWord word.toList := by
  obtain ⟨offset, c, cs, hsuffix, hstart, rfl⟩ := h word hword
  have hplain : ¬ HidesStray (c :: cs) := fun h => hplain (h.of_suffix hsuffix)
  obtain ⟨hbad, hvalue⟩ := Word.scan_of_ofText hword
  obtain ⟨d, ds, hhead, hd⟩ := Word.exists_head_scan hstart hbad hplain
  have hparts : ∀ d ∈ (Word.scan 0 offset (c :: cs)).value,
      continuesWord d = true ∨ isWordStart d = true := Word.forall_mem_scan hplain
  rw [← hvalue]
  refine ⟨?_, by simp [hhead], hparts⟩
  rw [hhead]
  rintro _ ⟨⟩
  exact hd

end Syntax

/-! ## Names that are refused -/

theorem TypeNode.defect?_ne_invalidName (before now : List String) (node : TypeNode) :
    node.defect? before now ≠ some .invalidName := by
  intro h
  unfold defect? at h
  split at h
  · cases h
  · cases h
  · split at h
    · cases h
    · split at h <;> cases h
  · cases h

theorem Statement.fault?_ne_invalidName (before now : List String) (statement : Statement)
    (path : String) : statement.fault? before now ≠ some (.unsound path .invalidName) := by
  unfold fault?
  split
  · rw [Ne, Option.map_eq_some_iff]
    rintro ⟨_, -, herror⟩
    cases herror
  · rw [Ne, Option.map_eq_some_iff]
    rintro ⟨defect, hdefect, herror⟩
    obtain ⟨node, -, hnode⟩ := List.exists_of_findSome?_eq_some hdefect
    cases herror
    exact node.defect?_ne_invalidName before now hnode

theorem nameFault?_ne_invalidName {seen names : List String}
    (h : ∀ name ∈ names, isIdentifier name = true) (path : String) :
    nameFault? seen names ≠ some (.unsound path .invalidName) := by
  induction names generalizing seen with
  | nil => simp [nameFault?]
  | cons name names ih =>
    obtain ⟨hname, hnames⟩ := List.forall_mem_cons.mp h
    rw [nameFault?, hname]
    simp only [Bool.not_true, Bool.false_eq_true, if_false]
    split
    · simp
    · exact ih hnames

namespace SourceFile

/-- A file whose declared names are identifiers is not refused for a name. -/
theorem check_ne_invalidName {file : SourceFile}
    (h : ∀ name ∈ file.modelledNames, isIdentifier name = true) (before : List String)
    (path : String) : file.check before ≠ .error (.unsound path .invalidName) := by
  have hfault : file.fault? before ≠ some (.unsound path .invalidName) := by
    rw [fault?, Ne, Option.orElse_eq_orElse, Option.orElse_eq_or, Option.or_eq_some_iff]
    rintro (hnames | ⟨-, hstatements⟩)
    · exact nameFault?_ne_invalidName h path hnames
    · obtain ⟨statement, -, hstatement⟩ := List.exists_of_findSome?_eq_some hstatements
      exact statement.fault?_ne_invalidName before _ path hstatement
  unfold check
  split
  · rename_i error heq
    rintro ⟨⟩
    exact hfault heq
  · simp

/-- The names that a text declares are identifiers exactly if they have no foreign character, as
long as no escape stands for one. Then the check does not refuse the file for a name. -/
theorem isIdentifier_eq_of_ofText {text : String} {file : SourceFile} (h : ofText text = .ok file)
    (hplain : ¬ Syntax.HidesStray text.toList) :
    (∀ name ∈ file.modelledNames, isIdentifier name = !Syntax.hasForeign name.toList) ∧
      ((∀ name ∈ file.modelledNames, Syntax.hasForeign name.toList = false) →
        ∀ before path, file.check before ≠ .error (.unsound path .invalidName)) := by
  have hidentifier (name : String) (hmem : name ∈ file.modelledNames) :
      isIdentifier name = !Syntax.hasForeign name.toList := by
    obtain ⟨statement, hstatement, hname⟩ := List.mem_filterMap.mp hmem
    obtain ⟨token, ⟨state, hstate, lexeme, hlexeme, rfl⟩, hword⟩ :=
      (readStatement_of_ofText h statement hstatement).name name hname
    have hparsed : ¬ Syntax.HidesStray (Reading.withoutMark text.toList) := fun h =>
      hplain (h.of_suffix (Reading.withoutMark_suffix _))
    exact ((hstate.current lexeme hlexeme).isGrammarWord hparsed hword).isWord_eq
  refine ⟨hidentifier, fun hnames => check_ne_invalidName fun name hmem => ?_⟩
  rw [hidentifier name hmem, hnames name hmem, Bool.not_false]

/-- `type Straße = B; type á = B;`, the second name with a combining accent. -/
def accented : SourceFile :=
  ⟨[.typeAlias ⟨[], [], "Straße", .named "B"⟩, .typeAlias ⟨[], [], "a\u0301", .named "B"⟩], []⟩

theorem ofText_accented : ofText "type Straße = B; type a\u0301 = B;" = .ok accented := by
  decide +kernel

theorem isIdentifier_accented :
    ofText "type Straße = B; type a\u0301 = B;" = .ok accented ∧
      ¬ Syntax.HidesStray "type Straße = B; type a\u0301 = B;".toList ∧
        isIdentifier "Straße" = true ∧ isIdentifier "a\u0301" = false :=
  have hplain : ¬ Syntax.HidesStray "type Straße = B; type a\u0301 = B;".toList :=
    fun ⟨_, hsuffix, _⟩ => absurd (hsuffix.subset List.mem_cons_self) (by decide)
  have hnames := (isIdentifier_eq_of_ofText ofText_accented hplain).1
  have hforeign : Syntax.hasForeign "Straße".toList = false ∧
      Syntax.hasForeign "a\u0301".toList = true := by decide
  ⟨ofText_accented, hplain, (hnames "Straße" (by simp [modelledNames, accented, Statement.name?])).trans
      (by rw [hforeign.1]; rfl),
    (hnames "a\u0301" (by simp [modelledNames, accented, Statement.name?])).trans
      (by rw [hforeign.2]; rfl)⟩

/-- A text is read whose declared name is no identifier, and the check refuses the file for it. -/
theorem exists_invalidName_of_ofText :
    ∃ (text : String) (file : SourceFile) (name : String),
      ofText text = .ok file ∧ name ∈ file.modelledNames ∧ isIdentifier name = false ∧
        file.check file.declaredNames = .error (.unsound name .invalidName) :=
  ⟨_, accented, "a\u0301", ofText_accented, by simp [modelledNames, accented, Statement.name?],
    rfl, rfl⟩

end SourceFile

end Declutter
