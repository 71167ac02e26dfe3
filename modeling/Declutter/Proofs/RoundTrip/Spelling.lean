import Declutter.Proofs.RoundTrip.Lexemes
import Declutter.Identifier
import Declutter.Reading

/-!
# Spellings of types

`Spells source phrase front behind lexemes` says how a type, or a part of one, is written in lexemes.
Where a type stands inside of another it is spelled only if it needs no parentheses there: no member
of a union is a union, no member of an intersection is a compound, and neither is what stands in
front of brackets or of a question mark. So a spelling belongs to one type at most, and the parser
has to find just that.

Of the comments `front` that are to be handed out where the phrase begins, `behind` are left where it
ends. The members of the shapes in it get the others.
-/

namespace Declutter.Syntax

/-- The token of a word. -/
def wordToken (word : String) : Token :=
  if keywords.contains word then .keyword word else .name word

theorem wordToken_cases (word : String) :
    wordToken word = .keyword word ∨ wordToken word = .name word := by
  unfold wordToken
  split
  · exact .inl rfl
  · exact .inr rfl

theorem wordToken_word? (word : String) : (wordToken word).word? = some word := by
  obtain h | h := wordToken_cases word <;> rw [h] <;> rfl

/-- The words that begin something else where a type is asked for. -/
def typeWords : List String :=
  ["keyof", "unique", "readonly", "public", "protected", "private", "infer", "abstract", "asserts",
    "intrinsic"] ++ Keyword.all.map (·.text)

/-- Whether a word can begin a reference. -/
def isReferenceWord (word : String) : Bool :=
  !typeWords.contains word && !keywords.contains word && isIdentifier word

/-- A word that can be a name of its own. -/
structure IsFreeName (word : String) : Prop where
  identifier : isIdentifier word = true
  bindable : (wordToken word).isBindable = true

/-- A part of a type. -/
inductive Phrase where
  | type (node : TypeNode)
  /-- Types with a sign between them. -/
  | types (sign : String) (nodes : List TypeNode)
  | element (element : TupleElement)
  /-- Elements of a tuple with commas between them. -/
  | elements (elements : List TupleElement)
  | members (members : List TypeMember)

/-- A sign that stands in a line with what is in front of it. -/
def Lexeme.ofSign (text : String) (span : Span) : Lexeme := ⟨.sign text, span, false⟩

/-- Words with a point in front of each. -/
inductive SpellsWords : List String → List Lexeme → Prop
  | nil : SpellsWords [] []
  | cons {word words point span lexemes} : SpellsWords words lexemes →
      SpellsWords (word :: words) (.ofSign "." point :: ⟨wordToken word, span, false⟩ :: lexemes)

/-- The words of a qualified name, with points between them. -/
inductive SpellsName : List String → List Lexeme → Prop
  | mk {word words span lexemes} : isReferenceWord word → SpellsWords words lexemes →
      SpellsName (word :: words) (⟨.name word, span, false⟩ :: lexemes)

/-- The first lexeme of a member, with the word `readonly` in front of it if it is read-only, and where
the member begins. -/
inductive SpellsHead (token : Token) : (readonly : Bool) → (start : Nat) → List Lexeme → Prop
  | plain {span afterBreak} : SpellsHead token false span.start [⟨token, span, afterBreak⟩]
  | readonly {word span afterBreak} :
      SpellsHead token true word.start
        [⟨.name "readonly", word, afterBreak⟩, ⟨token, span, false⟩]

/-- The name of a property: a word or a string. -/
inductive SpellsKey (name : String) : Token → Prop
  | word : isIdentifier name → SpellsKey name (wordToken name)
  | string {raw} : SpellsKey name (.string name raw)

/-- The question mark of an optional element or property. -/
inductive SpellsOptional : (optional : Bool) → List Lexeme → Prop
  | required : SpellsOptional false []
  | optional {span} : SpellsOptional true [.ofSign "?" span]

/-- Whether an element must be there though one before it may be missing. -/
def requiredAfterOptional : List TupleElement → Bool
  | [] => false
  | element :: elements =>
    if element.optional then elements.any fun later => !later.optional && !later.rest
    else requiredAfterOptional elements

/-- What begins and stops at two places gets the comments in front of it: of those at hand, `front`, the
comments `inner` are left where it begins. None of those that are left where it ends, `behind`, lies
inside of it. -/
structure Commented (source : List Char) (texts : List String) (front inner behind : List Comment)
    (start stop : Nat) : Prop where
  takes : (Reading.takeComments source start).run front = .ok (texts, inner)
  drops : (Reading.dropComments stop).run behind = .ok ((), behind)
  ordered : start ≤ stop

/-- The places are those of the stretch between them. -/
theorem Commented.spanned {source : List Char} {texts : List String}
    {front inner behind : List Comment} {start stop : Nat}
    (h : Commented source texts front inner behind start stop) :
    Commented source texts front inner behind (min start stop) (max start stop) := by
  rwa [Nat.min_eq_left h.ordered, Nat.max_eq_right h.ordered]

/-- How a part of a type is written in lexemes. -/
inductive Spells (source : List Char) : Phrase → List Comment → List Comment → List Lexeme → Prop
  | keyword {word span comments} :
      Spells source (.type (.keyword word)) comments comments [⟨wordToken word.text, span, false⟩]
  | string {value raw span comments} :
      Spells source (.type (.literal (.string value))) comments comments
        [⟨.string value raw, span, false⟩]
  | number {text value raw span comments} :
      span.start ≤ span.stop → Reading.textOf source span = text →
      Spells source (.type (.literal (.number text))) comments comments
        [⟨.number value raw, span, false⟩]
  | negative {text value raw sign span comments} :
      sign.start ≤ span.stop → Reading.textOf source ⟨sign.start, span.stop⟩ = text →
      Spells source (.type (.literal (.number text))) comments comments
        [.ofSign "-" sign, ⟨.number value raw, span, false⟩]
  | boolean {value span comments} :
      Spells source (.type (.literal (.boolean value))) comments comments
        [⟨.keyword (if value then "true" else "false"), span, false⟩]
  | reference {words lexemes comments} : SpellsName words lexemes →
      Spells source (.type (.reference (".".intercalate words) [])) comments comments lexemes
  | applied {words lexemes arguments front behind inner left right} : SpellsName words lexemes →
      Spells source (.types "," arguments) front behind inner →
      Spells source (.type (.reference (".".intercalate words) arguments)) front behind
        (lexemes ++ .ofSign "<" left :: (inner ++ [.ofSign ">" right]))
  | array {element front behind lexemes left right} : element.isCompound = false →
      Spells source (.type element) front behind lexemes →
      Spells source (.type (.array element)) front behind
        (lexemes ++ [.ofSign "[" left, .ofSign "]" right])
  | emptyTuple {comments left right} :
      Spells source (.type (.tuple [])) comments comments [.ofSign "[" left, .ofSign "]" right]
  | tuple {elements front behind lexemes left right} : requiredAfterOptional elements = false →
      Spells source (.elements elements) front behind lexemes →
      Spells source (.type (.tuple elements)) front behind
        (.ofSign "[" left :: (lexemes ++ [.ofSign "]" right]))
  | union {members front behind lexemes} : 2 ≤ members.length →
      (∀ member ∈ members, ∀ inner, member ≠ .union inner) →
      Spells source (.types "|" members) front behind lexemes →
      Spells source (.type (.union members)) front behind lexemes
  | intersection {members front behind lexemes} : 2 ≤ members.length →
      (∀ member ∈ members, member.isCompound = false) →
      Spells source (.types "&" members) front behind lexemes →
      Spells source (.type (.intersection members)) front behind lexemes
  | parenthesized {inner front behind lexemes left right} :
      Spells source (.type inner) front behind lexemes →
      Spells source (.type (.parenthesized inner)) front behind
        (.ofSign "(" left :: (lexemes ++ [.ofSign ")" right]))
  | shape {members front behind lexemes left right afterBreak} :
      Spells source (.members members) front behind lexemes →
      Spells source (.type (.typeLiteral members)) front behind
        (.ofSign leftBrace left :: (lexemes ++ [⟨.sign rightBrace, right, afterBreak⟩]))
  | single {sign node front behind lexemes} : Spells source (.type node) front behind lexemes →
      Spells source (.types sign [node]) front behind lexemes
  | cons {sign node nodes front next behind lexemes span more} :
      Spells source (.type node) front next lexemes →
      Spells source (.types sign nodes) next behind more →
      Spells source (.types sign (node :: nodes)) front behind
        (lexemes ++ .ofSign sign span :: more)
  | plainElement {type front behind lexemes} : Spells source (.type type) front behind lexemes →
      Spells source (.element ⟨type, false, false⟩) front behind lexemes
  | optionalElement {type front behind lexemes mark} : type.isCompound = false →
      Spells source (.type type) front behind lexemes →
      Spells source (.element ⟨type, true, false⟩) front behind (lexemes ++ [.ofSign "?" mark])
  | restElement {type front behind lexemes dots} : Spells source (.type type) front behind lexemes →
      Spells source (.element ⟨type, false, true⟩) front behind (.ofSign "..." dots :: lexemes)
  | singleElement {element front behind lexemes} :
      Spells source (.element element) front behind lexemes →
      Spells source (.elements [element]) front behind lexemes
  | consElement {element elements front next behind lexemes comma more} :
      Spells source (.element element) front next lexemes →
      Spells source (.elements elements) next behind more →
      Spells source (.elements (element :: elements)) front behind
        (lexemes ++ .ofSign "," comma :: more)
  | noMembers {comments} : Spells source (.members []) comments comments []
  | property {texts name token readonly start optional type members front inner next behind head mark
        colon lexemes stop more} :
      SpellsKey name token → SpellsHead token readonly start head → SpellsOptional optional mark →
      Commented source texts front inner next start stop.stop →
      Spells source (.type type) inner next lexemes →
      Spells source (.members members) next behind more →
      Spells source (.members (.property ⟨texts, readonly, name, optional, type⟩ :: members)) front
        behind (head ++ (mark ++ .ofSign ":" colon :: (lexemes ++ .ofSign ";" stop :: more)))
  | index {texts parameter readonly start key value members front inner between next behind head place
        colon keys right sign values stop more} :
      IsFreeName parameter → SpellsHead (.sign "[") readonly start head →
      Commented source texts front inner next start stop.stop →
      Spells source (.type key) inner between keys → Spells source (.type value) between next values →
      Spells source (.members members) next behind more →
      Spells source (.members (.index ⟨texts, readonly, parameter, key, value⟩ :: members)) front
        behind (head ++ ⟨wordToken parameter, place, false⟩ :: .ofSign ":" colon ::
          (keys ++ .ofSign "]" right :: .ofSign ":" sign :: (values ++ .ofSign ";" stop :: more)))

/-- Two spelled sequences with a sign between them are one. -/
theorem Spells.append {source : List Char} {sign : String} {nodes more : List TypeNode}
    {front next behind : List Comment} {lexemes later : List Lexeme} {span : Span}
    (h : Spells source (.types sign nodes) front next lexemes)
    (hmore : Spells source (.types sign more) next behind later) :
    Spells source (.types sign (nodes ++ more)) front behind
      (lexemes ++ .ofSign sign span :: later) := by
  generalize hphrase : Phrase.types sign nodes = phrase at h
  induction h generalizing nodes with
  | single h =>
    obtain ⟨rfl, rfl⟩ := Phrase.types.inj hphrase
    exact .cons h hmore
  | cons h hrest _ ih =>
    obtain ⟨rfl, rfl⟩ := Phrase.types.inj hphrase
    rw [List.append_assoc, List.cons_append]
    exact .cons h (ih hmore rfl)
  | _ => cases hphrase

end Declutter.Syntax
