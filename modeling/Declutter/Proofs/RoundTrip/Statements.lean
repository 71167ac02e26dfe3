import Declutter.Proofs.RoundTrip.Readings
import Declutter.Syntax.Source

/-!
# Reading statements

Aliases and interfaces that are spelled, with `export` in front or without, are read as themselves,
one behind the other up to the end of a text: `Source.parse_statements`. Nothing ends such a
statement but its own last sign, so that what stands behind it is of no account. Each of them gets
the comments in front of it, and those behind the last one are left.
-/

namespace Declutter

/-- An alias or interface with a word in front. -/
def Statement.modified (modifier : Modifier) : Statement → Statement
  | .typeAlias a => .typeAlias { a with modifiers := modifier :: a.modifiers }
  | .interface i => .interface { i with modifiers := modifier :: i.modifiers }
  | .verbatim v => .verbatim v

/-- A statement with comments in front of it. -/
def Statement.commented (texts : List String) : Statement → Statement
  | .typeAlias a => .typeAlias { a with leadingComments := texts }
  | .interface i => .interface { i with leadingComments := texts }
  | .verbatim v => .verbatim { v with leadingComments := texts }

namespace Syntax

open Declutter.Syntax.Parser

variable {source : List Char} {word name : String} {statement : Statement} {site : Site Statement}
  {front inner behind : List Comment} {lexemes rest : List Lexeme} {previous : Span}
  {bound origin stop : Nat} {frame : Frame}

/-! ## What is read -/

/-- An item as it was read stands for a declaration of the tree, but for the comments in front. -/
inductive LowersDeclaration (source : List Char) : ItemSyntax → Site Statement → Prop
  | typeAlias {span modifiers name type node front behind} :
      Lowers source type ⟨node, front, behind⟩ →
      LowersDeclaration source (.alias span modifiers name type)
        ⟨.typeAlias ⟨[], modifiers, name, node⟩, front, behind⟩
  | interface {span modifiers name items members front behind} :
      LowersMembers source items ⟨members, front, behind⟩ →
      LowersDeclaration source (.interface span modifiers name [] items)
        ⟨.interface ⟨[], modifiers, name, [], members⟩, front, behind⟩

/-- An item as it was read stands for a statement of the tree. -/
def LowersItem (source : List Char) (item : ItemSyntax) (site : Site Statement) : Prop :=
  (Reading.statement source item).run site.front = .ok (some site.item, site.behind)

/-- Items as they were read stand for statements of the tree. -/
def LowersItems (source : List Char) (items : List ItemSyntax) (site : Site (List Statement)) :
    Prop :=
  (Reading.statements source items).run site.front = .ok (site.item, site.behind)

theorem LowersItems.cons {item : ItemSyntax} {items : List ItemSyntax} {statements : List Statement}
    {next : List Comment} (h : LowersItem source item ⟨statement, front, next⟩)
    (hmore : LowersItems source items ⟨statements, next, behind⟩) :
    LowersItems source (item :: items) ⟨statement :: statements, front, behind⟩ := by
  rw [LowersItems, Reading.statements, run_bind_eq h, run_bind_eq hmore]
  rfl

namespace LowersDeclaration

variable {item : ItemSyntax}

theorem modified (h : LowersDeclaration source item site) (modifier : Modifier) (span : Span) :
    LowersDeclaration source (item.modified modifier span)
      ⟨site.item.modified modifier, site.front, site.behind⟩ := by
  cases h with
  | typeAlias htype => exact .typeAlias htype
  | interface hmembers => exact .interface hmembers

theorem span_modified (h : LowersDeclaration source item site) (modifier : Modifier) (span : Span) :
    (item.modified modifier span).span = span := by
  cases h <;> rfl

/-- A declaration gets the comments in front of it. -/
theorem commented {texts : List String} (h : LowersDeclaration source item site)
    (hcommented : Commented source texts front site.front site.behind item.span.start
      item.span.stop) : LowersItem source item ⟨site.item.commented texts, front, site.behind⟩ := by
  unfold LowersItem Reading.statement
  cases h with
  | typeAlias htype =>
    rw [run_bind_eq hcommented.takes]
    show (Reading.typeNode source _ >>= _).run _ = _
    rw [run_bind_eq htype, pure_bind, run_bind_eq hcommented.drops]
    rfl
  | interface hmembers =>
    rw [run_bind_eq hcommented.takes]
    show (Reading.heritage source [] >>= _).run _ = _
    have hnone (comments : List Comment) :
        (Reading.heritage source []).run comments = .ok (([] : List TypeNode), comments) := rfl
    rw [run_bind_eq (hnone _)]
    show (Reading.typeMembers source _ >>= _).run _ = _
    rw [run_bind_eq hmembers, pure_bind, run_bind_eq hcommented.drops]
    rfl

end LowersDeclaration

/-- A declaration has been read from one place to another, and what was left behind it still is. -/
def Declared (source : List Char) (site : Site Statement) (origin stop : Nat) (rest : List Lexeme)
    (frame : Frame) (item : ItemSyntax) (after : View) : Prop :=
  LowersDeclaration source item site ∧ item.span = ⟨min origin stop, max origin stop⟩ ∧
    ∃ last, last.stop = stop ∧ after = ⟨rest, last, frame⟩

/-! ## Declarations -/

/-- A token that is a word and no angle. -/
structure SpellsWord (token : Token) (word : String) : Prop where
  word : token.word? = some word
  isAngle : token.isAngle = false

/-- How an alias or an interface is written from its name on, behind a certain word, and where it
stops. -/
inductive SpellsDeclaration (source : List Char) :
    String → Site Statement → (stop : Nat) → List Lexeme → Prop
  | typeAlias {token name node front behind lexemes place sign last stop} : SpellsWord token name →
      Spells source (.type node) front behind lexemes → last.stop = stop →
      SpellsDeclaration source "type" ⟨.typeAlias ⟨[], [], name, node⟩, front, behind⟩ stop
        (⟨token, place, false⟩ :: .ofSign "=" sign :: (lexemes ++ [.ofSign ";" last]))
  | interface {token name members front behind lexemes place left last stop afterBreak} :
      SpellsWord token name → Grammar.refusedInterfaceNames.contains name = false →
      Spells source (.members members) front behind lexemes → last.stop = stop →
      SpellsDeclaration source "interface" ⟨.interface ⟨[], [], name, [], members⟩, front, behind⟩
        stop (⟨token, place, false⟩ :: .ofSign leftBrace left ::
          (lexemes ++ [⟨.sign rightBrace, last, afterBreak⟩]))

/-- A frame between the statements of a source. -/
structure Frame.Outer (frame : Frame) (source : List Char) : Prop where
  source : frame.source = source
  inDeclare : frame.context.inDeclare = false

theorem Frame.Outer.typed (h : frame.Outer source) : frame.ofType.Typed source :=
  typed_ofType h.source h.inDeclare

theorem Frame.Outer.trying (h : frame.Outer source) : frame.trying.Outer source :=
  ⟨h.source, h.inDeclare⟩

theorem Frame.Outer.awaitingNoColon (h : frame.Outer source) :
    frame.awaitingNoColon.Outer source := ⟨h.source, h.inDeclare⟩

/-- An alias is read from its name on, up to its semicolon. -/
theorem aliasDeclaration_runs {token : Token} {node : TypeNode} {place sign stop : Span}
    (hname : SpellsWord token name) (h : ReadAs source ⟨node, front, behind⟩ lexemes)
    (hframe : frame.Outer source)
    (hbound : (lexemes ++ .ofSign ";" stop :: rest).length ≤ bound) :
    Runs ((Grammar.ofFuel (bound + 8)).aliasDeclaration origin)
      ⟨⟨token, place, false⟩ :: .ofSign "=" sign :: (lexemes ++ .ofSign ";" stop :: rest),
        previous, frame⟩ False (Declared source ⟨.typeAlias ⟨[], [], name, node⟩, front, behind⟩
          origin stop.stop rest frame) := by
  let equals : View := ⟨.ofSign "=" sign :: (lexemes ++ .ofSign ";" stop :: rest), place, frame⟩
  have hgeneric : Reads ((Grammar.ofFuel (bound + 8)).typeParameters? true false) equals false
      equals := (notAt (.of_head rfl) (by rfl)).no .done
  refine (word_reads (.of_head hname.isAngle) hname.word).step ?_
  refine hgeneric.step <| .bind <| inType_runs ?_
  refine (eat_yes hframe.typed.clear (by rfl)).yes ?_
  have hread := h.whole bound (.ofSign ";" stop :: rest) sign frame.ofType hframe.typed
    (.sign (by decide) _ _) hbound
  refine hread.mono ?_
  rintro type after ⟨htype, last, rfl⟩
  refine (expectSemicolon_reads (.of_head rfl) (by rfl)).step ?_
  exact (spanFrom_reads _).step <| .pure ⟨.typeAlias htype, rfl, stop, rfl, rfl⟩

/-- An interface is read from its name on, up to its brace. -/
theorem interfaceDeclaration_runs {token : Token} {members : List TypeMember}
    {place left right : Span} {afterBreak : Bool} (hname : SpellsWord token name)
    (hallowed : Grammar.refusedInterfaceNames.contains name = false)
    (h : ReadsMembers source members front behind lexemes) (hframe : frame.Outer source)
    (hbound : (lexemes ++ ⟨.sign rightBrace, right, afterBreak⟩ :: rest).length ≤ bound) :
    Runs ((Grammar.ofFuel (bound + 8)).interfaceDeclaration origin)
      ⟨⟨token, place, false⟩ :: .ofSign leftBrace left ::
        (lexemes ++ ⟨.sign rightBrace, right, afterBreak⟩ :: rest), previous, frame⟩ False
      (Declared source ⟨.interface ⟨[], [], name, [], members⟩, front, behind⟩ origin right.stop rest
        frame) := by
  let brace : View := ⟨.ofSign leftBrace left ::
    (lexemes ++ ⟨.sign rightBrace, right, afterBreak⟩ :: rest), place, frame⟩
  have hclear : brace.Clear := .of_head rfl
  have hgeneric : Reads ((Grammar.ofFuel (bound + 8)).typeParameters? true false) brace false
      brace := (notAt hclear (by rfl)).no .done
  refine (word_reads (.of_head hname.isAngle) hname.word).step ?_
  rw [hallowed, if_neg (by decide)]
  refine hgeneric.step <| (eat_no hclear (by rfl)).no ?_
  refine .bind <| .pure <| (notAt hclear (by rfl)).no ?_
  refine .bind <| inType_runs <| (members_runs h hframe.typed hbound).mono ?_
  rintro items after ⟨hitems, rfl⟩
  exact (spanFrom_reads _).step <| .pure ⟨.interface hitems, rfl, right, rfl, rfl⟩

/-- A declaration is read behind its word. -/
theorem declarationNamed?_runs {place : Span} {afterBreak : Bool}
    (h : SpellsDeclaration source word site stop lexemes) (hframe : frame.Outer source)
    (hbound : (lexemes ++ rest).length ≤ bound) :
    Runs ((Grammar.ofFuel (bound + 8)).declarationNamed? origin word true)
      ⟨⟨.name word, place, afterBreak⟩ :: (lexemes ++ rest), previous, frame⟩ False
      fun item after => ∃ read, item = some read ∧
        Declared source site origin stop rest frame read after := by
  have hbegin {word : String} (hangle : (Token.name word).isAngle = false) (more : List Lexeme) :
      Reads (do bump; return true) ⟨⟨.name word, place, afterBreak⟩ :: more, previous, frame⟩ true
        ⟨more, place, frame⟩ := (bump_reads (.of_head hangle)).step .done
  cases h with
  | typeAlias hname hspells hstop =>
    subst hstop
    simp only [List.cons_append, List.append_assoc, List.nil_append, List.length_cons] at hbound ⊢
    refine (hbegin rfl _).yes <| .bind <|
      (aliasDeclaration_runs hname hspells.readAs hframe (by omega)).mono ?_
    rintro item _ hitem
    exact .pure ⟨item, rfl, hitem⟩
  | interface hname hallowed hspells hstop =>
    subst hstop
    simp only [List.cons_append, List.append_assoc, List.nil_append, List.length_cons] at hbound ⊢
    have hmembers : ReadsMembers source _ _ _ _ := hspells.readsPart
    refine (hbegin rfl _).yes <| .bind <|
      (interfaceDeclaration_runs hname hallowed hmembers hframe (by omega)).mono ?_
    rintro item _ hitem
    exact .pure ⟨item, rfl, hitem⟩

namespace SpellsDeclaration

/-- One of two words is followed by a name. -/
theorem begins (h : SpellsDeclaration source word site stop lexemes) :
    (word = "type" ∨ word = "interface") ∧ ∃ token name place more, SpellsWord token name ∧
      lexemes = ⟨token, place, false⟩ :: more := by
  cases h with
  | typeAlias hname _ _ => exact ⟨.inl rfl, _, _, _, _, hname, rfl⟩
  | interface hname _ _ _ => exact ⟨.inr rfl, _, _, _, _, hname, rfl⟩

theorem isAngle_eq_false (h : SpellsDeclaration source word site stop lexemes) :
    (Token.name word).isAngle = false := by
  obtain ⟨rfl | rfl, -⟩ := h.begins <;> rfl

end SpellsDeclaration

/-! ## Statements -/

/-- How a statement is written in lexemes. It begins in a line of its own, and gets the comments in
front of it. -/
inductive SpellsStatement (source : List Char) : Site Statement → List Lexeme → Prop
  | plain {word declaration texts front inner behind lexemes first start stop} :
      SpellsDeclaration source word ⟨declaration, inner, behind⟩ stop lexemes →
      Commented source texts front inner behind start stop → first.start = start →
      SpellsStatement source ⟨declaration.commented texts, front, behind⟩
        (⟨.name word, first, true⟩ :: lexemes)
  | exported {word declaration texts front inner behind lexemes first place start stop} :
      SpellsDeclaration source word ⟨declaration, inner, behind⟩ stop lexemes →
      Commented source texts front inner behind start stop → first.start = start →
      SpellsStatement source ⟨(declaration.modified .exported).commented texts, front, behind⟩
        (⟨.keyword "export", first, true⟩ :: ⟨.name word, place, false⟩ :: lexemes)

/-- The word of a declaration begins it if a name follows in the same line. -/
theorem keywordStatement?_runs {place : Span} {afterBreak : Bool}
    (h : SpellsDeclaration source word site stop lexemes) (hframe : frame.Outer source)
    (hbound : (lexemes ++ rest).length ≤ bound) :
    Runs ((Grammar.ofFuel (bound + 8)).keywordStatement? origin word true)
      ⟨⟨.name word, place, afterBreak⟩ :: (lexemes ++ rest), previous, frame⟩ False
      fun item after => ∃ read, item = some read ∧
        Declared source site origin stop rest frame read after := by
  have hdeclares : Runs ((Grammar.ofFuel (bound + 8)).declarationNamed? origin word true)
      ⟨⟨.name word, place, afterBreak⟩ :: (lexemes ++ rest), previous, frame⟩ False
      fun item after => ∃ read, item = some read ∧
        Declared source site origin stop rest frame read after :=
    declarationNamed?_runs h hframe hbound
  have hangle := h.isAngle_eq_false
  obtain ⟨hword, token, name, span, more, hname, rfl⟩ := h.begins
  rw [List.cons_append] at hdeclares ⊢
  let view : View :=
    ⟨⟨.name word, place, afterBreak⟩ :: ⟨token, span, false⟩ :: (more ++ rest), previous,
      frame⟩
  have hclear : view.Clear := .of_head hangle
  have hbehind : View.Clear ⟨⟨token, span, false⟩ :: (more ++ rest), previous, frame⟩ :=
    .of_head hname.isAngle
  have hahead : Reads (wordAhead <&&> do return !(← breakAhead)) view true view := by
    have hsome : token.word?.isSome = true := by rw [hname.word]; rfl
    have hwordAhead := wordAhead_reads hclear hbehind
    rw [hsome] at hwordAhead
    exact hwordAhead.and_yes ((breakAhead_reads hclear hbehind).step .done)
  obtain rfl | rfl := hword
  · exact hahead.yes hdeclares
  · exact hahead.yes hdeclares

theorem plainStatement_runs {place : Span} {afterBreak : Bool}
    (h : SpellsDeclaration source word site stop lexemes) (hframe : frame.Outer source)
    (hbound : (lexemes ++ rest).length ≤ bound) :
    Runs ((Grammar.ofFuel (bound + 8)).plainStatement true)
      ⟨⟨.name word, place, afterBreak⟩ :: (lexemes ++ rest), previous, frame⟩ False
      (Declared source site place.start stop rest frame) := by
  show Runs (awaitingNoColon _) _ _ _
  refine awaitingNoColon_runs ?_
  have hclear : View.Clear ⟨⟨.name word, place, afterBreak⟩ :: (lexemes ++ rest), previous,
      frame.awaitingNoColon⟩ := .of_head h.isAngle_eq_false
  have hnot : (Token.name word).spells "const" = false := by
    obtain ⟨rfl | rfl, -⟩ := h.begins <;> rfl
  refine (position_reads hclear).step ?_
  refine (notAt hclear (by exact hnot)).and_no.no ?_
  refine (needToken_reads hclear).step ?_
  refine .bind <| (keywordStatement?_runs h hframe.awaitingNoColon hbound).mono ?_
  rintro _ _ ⟨item, rfl, hitem, hspan, last, hstop, rfl⟩
  exact .pure ⟨hitem, hspan, last, hstop, rfl⟩

/-- Behind `export` a declaration is tried first. -/
theorem exportItem_runs {first place : Span} {afterBreak : Bool}
    (h : SpellsDeclaration source word site stop lexemes) (hframe : frame.Outer source)
    (hbound : (lexemes ++ rest).length ≤ bound) :
    Runs (Grammar.ofFuel (bound + 8)).exportItem
      ⟨⟨.keyword "export", first, afterBreak⟩ :: ⟨.name word, place, false⟩ :: (lexemes ++ rest),
        previous, frame⟩ False
      (Declared source ⟨site.item.modified .exported, site.front, site.behind⟩ first.start stop rest
        frame) := by
  let behind : View := ⟨⟨.name word, place, false⟩ :: (lexemes ++ rest), first, frame⟩
  have hclear : behind.Clear := .of_head h.isAngle_eq_false
  have hnot : (Token.name word).spells "declare" = false := by
    obtain ⟨rfl | rfl, -⟩ := h.begins <;> rfl
  refine (position_reads (.of_head rfl)).step <| (bump_reads (.of_head rfl)).step ?_
  refine (position_reads hclear).step <| (needToken_reads hclear).step ?_
  refine (eat_no hclear (by exact hnot)).no <| (token_reads hclear).step ?_
  refine (position_reads hclear).step <| .bind <| attempt_runs
    ((declarationNamed?_runs h hframe.trying hbound).mono ?_) False.elim
  rintro _ _ ⟨item, rfl, hitem, -, last, rfl, rfl⟩
  refine ⟨fun hnone => (Option.some_ne_none _ hnone).elim, ?_⟩
  rintro _ ⟨⟩
  exact (spanFrom_reads _).step <|
    .pure ⟨hitem.modified _ _, hitem.span_modified _ _, last, rfl, rfl⟩

/-- A statement is read as itself, whatever stands behind it. -/
theorem item_runs (h : SpellsStatement source site lexemes) (hframe : frame.Outer source)
    (hbound : (lexemes ++ rest).length ≤ bound) :
    Runs (Grammar.ofFuel (bound + 9)).item ⟨lexemes ++ rest, previous, frame⟩ False
      fun item after => LowersItem source item site ∧ ∃ last, after = ⟨rest, last, frame⟩ := by
  have hlowers {declaration : Statement} {texts : List String} {front inner behind : List Comment}
      {origin stop : Nat} {item : ItemSyntax} {after : View}
      (hitem : Declared source ⟨declaration, inner, behind⟩ origin stop rest frame item after)
      (hcommented : Commented source texts front inner behind origin stop) :
      LowersItem source item ⟨declaration.commented texts, front, behind⟩ ∧
        ∃ last, after = ⟨rest, last, frame⟩ := by
    obtain ⟨hdeclaration, hspan, last, -, hafter⟩ := hitem
    exact ⟨hdeclaration.commented (by rw [hspan]; exact hcommented.spanned), last, hafter⟩
  show Runs (Grammar.ofFuel (bound + 8)).itemStep _ _ _
  cases h with
  | @plain word _ _ _ _ _ lexemes first _ _ h hcommented hstart =>
    subst hstart
    have hclear : View.Clear ⟨⟨.name word, first, true⟩ :: (lexemes ++ rest), previous, frame⟩ :=
      .of_head h.isAngle_eq_false
    have hnot {text : String} (htext : text = "import" ∨ text = "export") :
        (Token.name word).spells text = false := by
      obtain ⟨rfl | rfl, -⟩ := h.begins <;> obtain rfl | rfl := htext <;> rfl
    refine (notAt hclear (by exact hnot (.inl rfl))).no ?_
    refine (notAt hclear (by exact hnot (.inr rfl))).no ?_
    exact (plainStatement_runs h hframe (by simp at hbound ⊢; omega)).mono fun _ _ hitem =>
      hlowers hitem hcommented
  | exported h hcommented hstart =>
    subst hstart
    refine (notAt (.of_head rfl) (by rfl)).no <| (isAt (.of_head rfl) (by rfl)).yes ?_
    exact (exportItem_runs h hframe (by simp at hbound ⊢; omega)).mono fun _ _ hitem =>
      hlowers hitem hcommented

/-! ## Texts of statements -/

/-- Statements one behind the other. -/
inductive SpellsStatements (source : List Char) :
    List Statement → List Comment → List Comment → List Lexeme → Prop
  | nil {comments} : SpellsStatements source [] comments comments []
  | cons {statement statements front next behind lexemes more} :
      SpellsStatement source ⟨statement, front, next⟩ lexemes →
      SpellsStatements source statements next behind more →
      SpellsStatements source (statement :: statements) front behind (lexemes ++ more)

theorem SpellsStatement.single (h : SpellsStatement source ⟨statement, front, behind⟩ lexemes) :
    SpellsStatements source [statement] front behind lexemes := by
  simpa using SpellsStatements.cons h .nil

theorem SpellsStatement.begins (h : SpellsStatement source site lexemes) :
    ∃ word first more, lexemes = ⟨first, word, true⟩ :: more ∧ first.isAngle = false ∧
      first ≠ .shebang := by
  cases h with
  | plain h _ _ => exact ⟨_, _, _, rfl, h.isAngle_eq_false, by simp⟩
  | exported h _ _ => exact ⟨_, _, _, rfl, rfl, by simp⟩

/-- An item of what `readItems` collects. -/
def Grammar.nextItem (g : Grammar) : Parser (Option ItemSyntax) := do
  if (← Parser.token).isNone then return none
  return some (← g.item)

/-- The journal at the end of a text, where its comments are put down. -/
def Frame.journalAtEnd (frame : Frame) : Journal :=
  { frame.journal with comments := frame.journal.comments ++ frame.comments }

/-- Statements that are spelled one behind the other are collected up to the end of the text. -/
theorem collectItems_ends {statements : List Statement}
    (h : SpellsStatements source statements front behind lexemes) (hframe : frame.Outer source)
    (hbound : lexemes.length ≤ bound) :
    Ends (collect (Grammar.ofFuel (bound + 9)).nextItem) ⟨lexemes, previous, frame⟩
      frame.journalAtEnd fun items => LowersItems source items ⟨statements, front, behind⟩ := by
  -- along the statements: each has a lexeme at least, so the loop has turns enough
  have hloop : ∀ previous limit read, lexemes.length < limit →
      Ends (iterateUpTo (collectStep (Grammar.ofFuel (bound + 9)).nextItem) limit read)
        ⟨lexemes, previous, frame⟩ frame.journalAtEnd fun result => ∃ items,
          LowersItems source items ⟨statements, front, behind⟩ ∧ result = items.reverse ++ read := by
    induction h with
    | nil =>
      intro previous limit read hlimit
      have hnone : Ends (Grammar.ofFuel (bound + 9)).nextItem ⟨[], previous, frame⟩
          frame.journalAtEnd (· = none) :=
        token_ends.bind_pure (by rintro _ rfl; exact ⟨none, rfl, rfl⟩)
      refine .iterateUpTo_stop (by omega) (hnone.bind_pure ?_) ⟨[], rfl, rfl⟩
      rintro _ rfl
      exact ⟨none, rfl, rfl⟩
    | @cons statement statements front next _ lexemes more hfirst hmore ih =>
      intro previous limit read hlimit
      have hitem : Runs (Grammar.ofFuel (bound + 9)).item ⟨lexemes ++ more, previous, frame⟩ False
          fun item after => LowersItem source item ⟨statement, front, next⟩ ∧
            ∃ last, after = ⟨more, last, frame⟩ := item_runs hfirst hframe hbound
      obtain ⟨word, first, later, rfl, hangle, -⟩ := hfirst.begins
      rw [List.cons_append] at hitem hbound hlimit ⊢
      refine .iterateUpTo_next (by omega) <| .bind <| (token_reads (.of_head hangle)).step ?_
      refine .bind <| hitem.mono ?_
      rintro item _ ⟨hitem, last, rfl⟩
      refine .pure <| .pure ⟨item :: read, rfl, ?_⟩
      simp only [List.length_cons, List.length_append] at hbound hlimit
      refine (ih (by omega) last (limit - 1) (item :: read) (by omega)).mono ?_
      rintro result ⟨items, hitems, rfl⟩
      exact ⟨item :: items, .cons hitem hitems, by simp⟩
  rw [collect_eq]
  refine Ends.bind_pure (.iterate fun limit hlimit =>
    hloop previous limit [] (by simp at hlimit; omega)) ?_
  rintro _ ⟨items, hitems, rfl⟩
  exact ⟨items, by simp, hitems⟩

/-- No script's first line stands in front of the statements. -/
theorem readItems_ends {statements : List Statement} {first : Lexeme}
    (h : SpellsStatements source statements front behind (first :: rest))
    (hframe : frame.Outer source) (hbound : (first :: rest).length ≤ bound) :
    Ends (Source.readItems (Grammar.ofFuel (bound + 9))) ⟨first :: rest, previous, frame⟩
      frame.journalAtEnd fun items => LowersItems source items ⟨statements, front, behind⟩ := by
  have hitems : Ends (collect (Grammar.ofFuel (bound + 9)).nextItem)
      ⟨first :: rest, previous, frame⟩ frame.journalAtEnd
      fun items => LowersItems source items ⟨statements, front, behind⟩ :=
    collectItems_ends h hframe hbound
  have hfirst : first.token.isAngle = false ∧ first.token ≠ .shebang := by
    generalize hlexemes : first :: rest = lexemes at h
    cases h with
    | nil => cases hlexemes
    | cons hstatement _ =>
      obtain ⟨word, token, more, rfl, hsound⟩ := hstatement.begins
      rwa [(List.cons.inj hlexemes).1]
  refine .of_runs <| (token_reads (.of_head hfirst.1)).runs ?_
  split
  · rename_i hshebang
    exact absurd (Option.some.inj hshebang) hfirst.2
  · exact hitems

/-! ## The beginning of a text -/

/-- The frame of a text's items. -/
def Frame.ofText (source : List Char) (comments : List Comment) : Frame :=
  ⟨source, comments, .outermost, none, [], ⟨[], []⟩, source.length + 2⟩

namespace Source

variable {comments : List Comment}

theorem reaches_start (h : Lexes source source comments lexemes) :
    (start source).lexer.Reaches source comments lexemes := by
  refine ⟨⟨source, comments, List.suffix_refl source, ?_, h, rfl⟩,
    by simp [start, Lexer.ofText, Bracket.isPlain]⟩
  rw [Cursor.within, Nat.sub_self]
  rfl

/-- Once the first lexeme of a text has been read, the state shows the whole text. -/
theorem fetch_start {first : Lexeme} (h : Lexes source source comments (first :: rest))
    (hangle : first.token.isAngle = false) :
    ∃ state, (start source).fetch = (some { first with afterBreak := true }, state) ∧
      state.current = some { first with afterBreak := true } ∧
      state.Shows ⟨{ first with afterBreak := true } :: rest, ⟨0, 0⟩, .ofText source comments⟩ := by
  obtain ⟨lexer, hread, hfirst, hafter⟩ := State.read_cons (reaches_start h) (.inr hangle)
  have hstart : (start source).fetch =
      (some { first with afterBreak := true },
        { start source with lexer, current := some { first with afterBreak := true } }) :=
    State.fetch_of_read rfl rfl hread
  refine ⟨_, hstart, rfl, ⟨rest, rfl, hafter⟩, hfirst, rfl, rfl, rfl, rfl, rfl, rfl, ?_, ?_⟩
  · exact h.line.plain
  · have hlength := h.length_le
    show rest.length + 1 + 2 ≤ source.length + 2
    simpa using hlength

theorem readItems_start (g : Grammar) {state : State} {lexeme : Lexeme}
    (hfetch : (start source).fetch = (some lexeme, state))
    (hcurrent : state.current = some lexeme) :
    readItems g (start source) = readItems g state := by
  have hlexeme : Parser.lexeme (start source) = Parser.lexeme state := by
    have hstate : state.fetch = (some lexeme, state) := by
      rw [State.fetch, hcurrent]
    rw [Parser.lexeme, hfetch, Parser.lexeme, hstate]
  have htoken : Parser.token (start source) = Parser.token state := by
    simp only [Parser.token, bind, EStateM.bind, hlexeme]
  simp only [readItems, bind, EStateM.bind, htoken]

/-- A text without lexemes may have comments. They are put down when its end is found. -/
theorem readItems_of_nil {statements : List Statement}
    (h : SpellsStatements source statements front behind [])
    (hlexes : Lexes source source comments []) (bound : Nat) :
    ∃ items result, readItems (Grammar.ofFuel (bound + 9)) (start source) = .ok items result ∧
      result.journal = ⟨[], comments⟩ ∧ LowersItems source items ⟨statements, front, behind⟩ := by
  obtain ⟨lexer, hfirst, hreached, htoken⟩ := token_at_end rfl rfl (reaches_start hlexes)
  let frame : Frame := { Frame.ofText source [] with journal := ⟨[], comments⟩ }
  have hshows : State.Shows { start source with lexer, journal := ⟨[], comments⟩ }
      ⟨[], ⟨0, 0⟩, frame⟩ :=
    ⟨⟨[], rfl, hreached⟩, hfirst, rfl, rfl, rfl, rfl, rfl, rfl, by simp, by simp [frame, Frame.ofText]⟩
  obtain ⟨items, result, hresult, hjournal, hitems⟩ :=
    collectItems_ends h ⟨rfl, rfl⟩ (Nat.zero_le bound) _ hshows
  refine ⟨items, result, ?_, hjournal.trans ?_, hitems⟩
  · simp only [readItems, bind, EStateM.bind, htoken]
    exact hresult
  · simp [Frame.journalAtEnd, frame, Frame.ofText]

/-- A text of lexemes is read once the first of them has been. -/
theorem readItems_of_cons {statements : List Statement} {first : Lexeme}
    (h : SpellsStatements source statements front behind (broken (first :: rest)))
    (hlexes : Lexes source source comments (first :: rest))
    (hbound : (first :: rest).length ≤ bound) :
    ∃ items result, readItems (Grammar.ofFuel (bound + 9)) (start source) = .ok items result ∧
      result.journal = ⟨[], comments⟩ ∧ LowersItems source items ⟨statements, front, behind⟩ := by
  have hangle : first.token.isAngle = false := by
    generalize hfirst : broken (first :: rest) = lexemes at h
    cases h with
    | nil => cases hfirst
    | cons hstatement _ =>
      obtain ⟨word, token, more, rfl, hangle, -⟩ := hstatement.begins
      exact congrArg Lexeme.token (List.cons.inj hfirst).1 ▸ hangle
  obtain ⟨state, hfetch, hcurrent, hshows⟩ := fetch_start hlexes hangle
  rw [readItems_start _ hfetch hcurrent]
  exact readItems_ends h ⟨rfl, rfl⟩ hbound state hshows

/-- A text of statements that are spelled one behind the other. A line is taken to end in front of the
first one, as it does in front of all others. -/
theorem parse_statements {statements : List Statement}
    (h : SpellsStatements source statements comments behind (broken lexemes))
    (hlexes : Lexes source source comments lexemes) :
    ∃ items, parse source = .ok ⟨items, comments⟩ ∧
      LowersItems source items ⟨statements, comments, behind⟩ := by
  have hlength := hlexes.length_le
  -- a text of so many characters gives more fuel than its lexemes need
  obtain ⟨bound, hfuel, hbound⟩ : ∃ bound, 8 * (source.length + 8) = bound + 9 ∧
      lexemes.length ≤ bound := ⟨8 * (source.length + 8) - 9, by omega, by omega⟩
  obtain ⟨items, result, hresult, hjournal, hitems⟩ : ∃ items result,
      readItems (Grammar.ofFuel (bound + 9)) (start source) = .ok items result ∧
        result.journal = ⟨[], comments⟩ ∧
        LowersItems source items ⟨statements, comments, behind⟩ := by
    cases lexemes with
    | nil => exact readItems_of_nil h hlexes bound
    | cons first rest => exact readItems_of_cons h hlexes hbound
  have hsorted : comments.Pairwise fun comment later =>
      decide (comment.span.start ≤ later.span.start) = true :=
    (hlexes.pairwise_start (List.suffix_refl source)).imp decide_eq_true
  refine ⟨items, ?_, hitems⟩
  simp only [parse, hfuel, hresult, hjournal, List.getLast?_nil, List.mergeSort_of_pairwise hsorted]

end Source

end Syntax

end Declutter
