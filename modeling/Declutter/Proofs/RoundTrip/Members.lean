import Declutter.Proofs.RoundTrip.Operands

/-!
# Reading members

A shape is read member by member. What a member may be taken for is ruled out first: a call or
construct signature, an accessor, a method. Each of these goes on behind the name with something
else than a colon or a question mark.
-/

namespace Declutter.Syntax

open Declutter.Syntax.Parser

variable {source : List Char} {bound start : Nat} {g : Grammar} {frame : Frame}
  {texts : List String} {front inner behind : List Comment}

/-! ## How members begin -/

/-- What stands in front of the type of a member, behind its modifier. -/
inductive StartsMember : Token → List Lexeme → Prop
  | key {name token tail} : SpellsKey name token → EndsKey tail → StartsMember token tail
  | bracket {parameter place colon more} : IsFreeName parameter →
      StartsMember (.sign "[") (⟨wordToken parameter, place, false⟩ :: .ofSign ":" colon :: more)

namespace StartsMember

variable {token : Token} {tail : List Lexeme} {previous : Span}

/-- A member begins with no sign but an opening bracket. -/
theorem spells_eq_false (h : StartsMember token tail) {text : String}
    (htext : (!isIdentifier text && !(["["].contains text)) = true) :
    token.spells text = false := by
  simp only [Bool.and_eq_true, Bool.not_eq_true'] at htext
  cases h with
  | key hkey _ => exact hkey.spells_eq_false htext.1
  | bracket _ =>
    refine decide_eq_false ?_
    rintro rfl
    simp at htext

/-- Behind a word that begins a member stands nothing that a modifier is followed by. -/
theorem modifier_reads (h : StartsMember token tail) (hframe : frame.Typed source) {span : Span}
    {afterBreak : Bool} :
    Reads (modifier? ["readonly"] false) ⟨⟨token, span, afterBreak⟩ :: tail, previous, frame⟩ none
      ⟨⟨token, span, afterBreak⟩ :: tail, previous, frame⟩ := by
  refine (needToken_reads hframe.clear).step ?_
  cases h with
  | bracket _ => exact .done
  | @key name _ _ hkey hends =>
    cases hkey with
    | string => exact .done
    | word =>
      simp only [wordToken_word? name]
      refine .ite (fun _ => .done) fun _ => (ahead?_reads hframe.clear hends.clear).step ?_
      rw [Bool.false_and, Bool.false_and, if_neg (by decide)]
      refine attempt_none <| (bump_reads hframe.trying.clear).step ?_
      have hfollows : Reads canFollowModifier ⟨tail, span, frame.trying⟩ false
          ⟨tail, span, frame.trying⟩ := by
        refine hends.afterBreak_reads.no <| (token_reads hends.clear).step ?_
        cases hends <;> exact .done
      exact hfollows.step <| .pure rfl

end StartsMember

/-- The modifier of a member is read, if it has one. -/
theorem modifier_reads {token : Token} {readonly : Bool} {head tail : List Lexeme} (previous : Span)
    (hhead : SpellsHead token readonly start head) (h : StartsMember token tail)
    (hframe : frame.Typed source) : ∃ span afterBreak last,
    Runs (modifier? ["readonly"] false) ⟨head ++ tail, previous, frame⟩ False fun modifier after =>
      modifier.isSome = readonly ∧ after = ⟨⟨token, span, afterBreak⟩ :: tail, last, frame⟩ := by
  cases hhead with
  | @plain span afterBreak =>
    exact ⟨span, afterBreak, previous, (h.modifier_reads hframe).mono (by
      rintro _ _ ⟨rfl, rfl⟩; exact ⟨rfl, rfl⟩)⟩
  | @readonly word span afterBreak =>
    refine ⟨span, false, word, (needToken_reads hframe.clear).step ?_⟩
    refine .ite (fun hno => absurd hno (by decide)) fun _ => ?_
    refine (ahead?_reads hframe.clear hframe.clear).step ?_
    rw [Bool.false_and, Bool.false_and, if_neg (by decide)]
    have hfollows : Reads canFollowModifier ⟨⟨token, span, false⟩ :: tail, word, frame.trying⟩ true
        ⟨⟨token, span, false⟩ :: tail, word, frame.trying⟩ := by
      refine (afterBreak_reads hframe.trying.clear).no ?_
      refine (token_reads hframe.trying.clear).step ?_
      cases h with
      | bracket _ => exact .done
      | @key name _ _ hkey _ =>
        cases hkey with
        | string => exact .done
        | word =>
          obtain heq | heq := wordToken_cases name
          all_goals
            rw [heq]
            exact .done
    have htrial : Reads (do
        bump
        return if ← canFollowModifier then some "readonly" else none)
        (View.trying ⟨⟨.name "readonly", word, afterBreak⟩ :: ⟨token, span, false⟩ :: tail, previous,
          frame⟩) (some "readonly") ⟨⟨token, span, false⟩ :: tail, word, frame.trying⟩ :=
      (bump_reads hframe.trying.clear).step <| hfollows.step .done
    exact (attempt_some htrial).runs ⟨rfl, rfl⟩

/-- Where a member begins, the braces hold no mapped type. -/
theorem startsMapped_runs {token : Token} {readonly : Bool} {head tail : List Lexeme}
    {left previous : Span} (hhead : SpellsHead token readonly start head) (h : StartsMember token tail)
    (hframe : frame.Typed source) :
    Runs Grammar.startsMapped ⟨.ofSign leftBrace left :: (head ++ tail), previous, frame⟩ False
      fun holds _ => holds = false := by
  -- behind the word `readonly`, or without it
  have hbehind {span last : Span} {afterBreak : Bool} : Runs (do
      unless ← eat "[" do return false
      unless ← atName do return false
      bump
      at? "in") ⟨⟨token, span, afterBreak⟩ :: tail, last, frame⟩ False
      fun holds _ => holds = false := by
    cases h with
    | key hkey _ =>
      exact (eat_no hframe.clear (by exact hkey.spells_eq_false (by rfl))).no <| .pure rfl
    | bracket hparameter =>
      refine (eat_yes hframe.clear (by rfl)).yes <| (atName_reads hframe.clear).step ?_
      refine .ite (fun _ => (bump_reads hframe.clear).step ?_) fun _ => .pure rfl
      exact (notAt hframe.clear (by rfl)).runs rfl
  refine (bump_reads hframe.clear).step ?_
  cases hhead with
  | readonly =>
    refine (eat_no hframe.clear (by rfl)).step <| (eat_no hframe.clear (by rfl)).step ?_
    refine .ite (fun hyes => absurd hyes (by decide)) fun _ => ?_
    exact (eat_yes hframe.clear (by rfl)).step hbehind
  | @plain span afterBreak =>
    refine (eat_no hframe.clear (by exact h.spells_eq_false (by rfl))).step ?_
    refine (eat_no hframe.clear (by exact h.spells_eq_false (by rfl))).step ?_
    refine .ite (fun hyes => absurd hyes (by decide)) fun _ => ?_
    cases hreadonly : token.spells "readonly" with
    | false => exact (eat_no hframe.clear (by exact hreadonly)).step hbehind
    | true =>
      refine (eat_yes hframe.clear (by exact hreadonly)).step ?_
      cases h with
      | key _ hends => exact (hends.eat_no (by decide)).no <| .pure rfl
      | bracket _ => cases hreadonly

/-! ## Names of members -/

/-- The name of a member is read as it is spelled. -/
theorem memberKey_runs {name : String} {token : Token} {tail : List Lexeme} {span previous : Span}
    {afterBreak : Bool} {fuel : Nat} (hkey : SpellsKey name token) (hends : EndsKey tail)
    (hframe : frame.Typed source) :
    Runs (Grammar.ofFuel (fuel + 1)).memberKey ⟨⟨token, span, afterBreak⟩ :: tail, previous, frame⟩
      False fun key after => (key = .word name ∨ key = .string name) ∧
        after = ⟨tail, span, frame⟩ := by
  refine (eat_no hframe.clear (by exact hkey.spells_eq_false (by rfl))).no ?_
  refine (needToken_reads hframe.clear).step ?_
  cases hkey with
  | @string raw =>
    refine .bind <| (Grammar.memberStep_string hends name raw span afterBreak).mono ?_
    rintro _ _ ⟨rfl, rfl⟩
    exact .pure ⟨.inr rfl, rfl⟩
  | word hname =>
    obtain heq | heq := wordToken_cases name
    all_goals
      rw [heq]
      have hno : (Token.name name).spells "#" = false := by
        refine decide_eq_false ?_
        rintro rfl
        cases hname
      refine (position_reads hframe.clear).step <| (notAt hframe.clear (by exact hno)).no ?_
      exact (word_reads hframe.clear rfl).step <| .pure ⟨.inl rfl, rfl⟩

/-- Where a name ends there is none. -/
theorem memberKey_fails {tail : List Lexeme} {previous : Span} {post : MemberKey → View → Prop}
    (hends : EndsKey tail) (hframe : frame.Typed source) :
    Runs g.memberKey ⟨tail, previous, frame⟩ True post := by
  refine (hends.eat_no (by decide)).no ?_
  cases hends
  all_goals
    refine (needToken_reads hframe.clear).step <| (position_reads hframe.clear).step ?_
    exact (notAt hframe.clear (by rfl)).no <| .bind (word_fails hframe.clear rfl)

/-- No name is taken for the beginning of an accessor. -/
theorem accessorMember_reads {name : String} {token : Token} {tail : List Lexeme}
    {span previous : Span} {afterBreak : Bool} (hkey : SpellsKey name token) (hends : EndsKey tail)
    (hframe : frame.Typed source) :
    Reads g.accessorMember? ⟨⟨token, span, afterBreak⟩ :: tail, previous, frame⟩ none
      ⟨⟨token, span, afterBreak⟩ :: tail, previous, frame⟩ := by
  refine attempt_none ?_
  refine (position_reads hframe.trying.clear).step ?_
  refine ((StartsMember.key hkey hends).modifier_reads hframe.trying).step ?_
  -- `get` and `set` are names themselves where no name is behind them
  cases hget : token.spells "get" with
  | true =>
    refine (eat_yes hframe.trying.clear (by exact hget)).step ?_
    exact .bind (memberKey_fails hends hframe.trying)
  | false =>
    refine (eat_no hframe.trying.clear (by exact hget)).step ?_
    refine .ite (fun hyes => absurd hyes (by decide)) fun _ => ?_
    cases hset : token.spells "set" with
    | true =>
      refine (expect_reads hframe.trying.clear (by exact hset)).step ?_
      exact .bind (memberKey_fails hends hframe.trying)
    | false => exact .bind (expect_fails hframe.trying.clear (by exact hset))

/-! ## Members -/

/-- A member as it was read stands for a member of the tree, with the comments in front of it. -/
def LowersMember (source : List Char) (read : MemberSyntax) (site : Site TypeMember) : Prop :=
  ∃ texts inner,
    Commented source texts site.front inner site.behind read.span.start read.span.stop ∧
      (Reading.typeMember source texts read).run inner = .ok (site.item, site.behind)

/-- Members as they were read stand for members of the tree. -/
def LowersMembers (source : List Char) (items : List MemberSyntax) (site : Site (List TypeMember)) :
    Prop :=
  (Reading.typeMembers source items).run site.front = .ok (site.item, site.behind)

theorem LowersMembers.cons {item : MemberSyntax} {items : List MemberSyntax} {member : TypeMember}
    {members : List TypeMember} {next : List Comment}
    (h : LowersMember source item ⟨member, front, next⟩)
    (hmore : LowersMembers source items ⟨members, next, behind⟩) :
    LowersMembers source (item :: items) ⟨member :: members, front, behind⟩ := by
  obtain ⟨texts, inner, hcommented, hmember⟩ := h
  rw [LowersMembers, Reading.typeMembers, run_bind_eq hcommented.takes, run_bind_eq hmember,
    run_bind_eq hcommented.drops, run_bind_eq hmore]
  rfl

/-- What is left of a member behind its modifier. -/
def Grammar.memberRest (g : Grammar) (start : Nat) (readonly : Bool) : Parser MemberSyntax := do
  if let some index ← g.indexMember? start readonly then return index
  if let some accessor ← g.accessorMember? then return accessor
  g.namedMember start readonly

theorem annotation_runs {type rest : List Lexeme} {node : TypeNode} {colon stop previous : Span}
    (h : ReadAs source ⟨node, front, behind⟩ type) (hframe : frame.Typed source)
    (hbound : (type ++ .ofSign ";" stop :: rest).length ≤ bound) :
    Runs (Grammar.ofFuel (bound + 8)).annotation?
      ⟨.ofSign ":" colon :: (type ++ .ofSign ";" stop :: rest), previous, frame⟩ False
      fun read after => (∃ type, read = some type ∧ Lowers source type ⟨node, front, behind⟩) ∧
        ∃ last, after = ⟨.ofSign ";" stop :: rest, last, frame⟩ := by
  have hinner : frame.ofType.Typed source := hframe.ofType
  refine (isAt hframe.clear (by rfl)).yes <| .bind <| inType_runs ?_
  refine (expect_reads hinner.clear (by rfl)).step ?_
  refine (h.whole bound _ colon frame.ofType hinner (.sign (by decide) _ _) hbound).mono ?_
  rintro type _ ⟨htype, last, rfl⟩
  exact .pure ⟨⟨type, rfl, htype⟩, last, rfl⟩

theorem expectMemberEnd_reads {stop previous : Span} {rest : List Lexeme}
    (hframe : frame.Typed source) :
    Reads Grammar.expectMemberEnd ⟨.ofSign ";" stop :: rest, previous, frame⟩ ()
      ⟨rest, stop, frame⟩ :=
  (eat_no hframe.clear (by rfl)).no <| expectSemicolon_reads hframe.clear (by rfl)

/-- A property is read behind its modifier. -/
theorem memberRest_property {name : String} {token : Token} {readonly optional : Bool}
    {node : TypeNode} {span colon stop previous : Span} {afterBreak : Bool}
    {mark type rest : List Lexeme} (hkey : SpellsKey name token)
    (hmark : SpellsOptional optional mark)
    (hcommented : Commented source texts front inner behind start stop.stop)
    (h : ReadAs source ⟨node, inner, behind⟩ type)
    (hframe : frame.Typed source) (hbound : (type ++ .ofSign ";" stop :: rest).length ≤ bound) :
    Runs ((Grammar.ofFuel (bound + 8)).memberRest start readonly)
      ⟨⟨token, span, afterBreak⟩ ::
        (mark ++ .ofSign ":" colon :: (type ++ .ofSign ";" stop :: rest)), previous, frame⟩ False
      fun read after =>
        LowersMember source read ⟨.property ⟨texts, readonly, name, optional, node⟩, front, behind⟩ ∧
          ∃ last, after = ⟨rest, last, frame⟩ := by
  have hends : EndsKey (mark ++ .ofSign ":" colon :: (type ++ .ofSign ";" stop :: rest)) := by
    cases hmark with
    | required => exact .colon
    | optional => exact .mark
  have hindex : Reads ((Grammar.ofFuel (bound + 8)).indexMember? start readonly)
      ⟨⟨token, span, afterBreak⟩ ::
        (mark ++ .ofSign ":" colon :: (type ++ .ofSign ";" stop :: rest)), previous, frame⟩ none
      ⟨⟨token, span, afterBreak⟩ ::
        (mark ++ .ofSign ":" colon :: (type ++ .ofSign ";" stop :: rest)), previous, frame⟩ :=
    (notAt hframe.clear (by exact hkey.spells_eq_false (by rfl))).and_no.no .done
  refine hindex.step <| (accessorMember_reads hkey hends hframe).step ?_
  refine .bind <| (memberKey_runs hkey hends hframe).mono ?_
  rintro key _ ⟨hread, rfl⟩
  have hname (place : Span) :
      (Reading.propertyName source place key).run inner = .ok (name, inner) := by
    obtain rfl | rfl := hread <;> rfl
  have hoptional : ∃ last, Reads (eat "?")
      ⟨mark ++ .ofSign ":" colon :: (type ++ .ofSign ";" stop :: rest), span, frame⟩ optional
      ⟨.ofSign ":" colon :: (type ++ .ofSign ";" stop :: rest), last, frame⟩ := by
    cases hmark with
    | required => exact ⟨span, eat_no hframe.clear (by rfl)⟩
    | optional => exact ⟨_, eat_yes hframe.clear (by rfl)⟩
  obtain ⟨last, hoptional⟩ := hoptional
  refine hoptional.step ?_
  -- only a property that is not read-only may go on as a method
  have hmethod : Reads ((return !readonly) <&&> atAny ["(", "<"])
      ⟨.ofSign ":" colon :: (type ++ .ofSign ";" stop :: rest), last, frame⟩ false
      ⟨.ofSign ":" colon :: (type ++ .ofSign ";" stop :: rest), last, frame⟩ := by
    cases readonly with
    | true => exact Reads.and_no Runs.done
    | false => exact Reads.and_yes Runs.done (notAtAny hframe.clear (by rfl))
  refine hmethod.no <| .bind <| (annotation_runs h hframe hbound).mono ?_
  rintro _ _ ⟨⟨read, rfl, hlowers⟩, last, rfl⟩
  refine (expectMemberEnd_reads hframe).step <| (spanFrom_reads start).step <| .pure ?_
  refine ⟨⟨texts, inner, hcommented.spanned, ?_⟩, _, rfl⟩
  rw [Reading.typeMember, run_bind_eq (hname _)]
  simp only
  rw [run_bind_eq hlowers]
  rfl

/-- An index signature is read behind its modifier. -/
theorem memberRest_index {parameter : String} {readonly : Bool} {key value : TypeNode}
    {left place colon right sign stop previous : Span} {afterBreak : Bool}
    {keys values rest : List Lexeme} {between : List Comment} (hparameter : IsFreeName parameter)
    (hcommented : Commented source texts front inner behind start stop.stop)
    (hkey : ReadAs source ⟨key, inner, between⟩ keys)
    (hvalue : ReadAs source ⟨value, between, behind⟩ values)
    (hframe : frame.Typed source)
    (hbound : (keys ++ .ofSign "]" right :: .ofSign ":" sign ::
      (values ++ .ofSign ";" stop :: rest)).length ≤ bound) :
    Runs ((Grammar.ofFuel (bound + 8)).memberRest start readonly)
      ⟨⟨.sign "[", left, afterBreak⟩ :: ⟨wordToken parameter, place, false⟩ ::
        .ofSign ":" colon :: (keys ++ .ofSign "]" right :: .ofSign ":" sign ::
          (values ++ .ofSign ";" stop :: rest)), previous, frame⟩ False
      fun read after =>
        LowersMember source read ⟨.index ⟨texts, readonly, parameter, key, value⟩, front, behind⟩ ∧
          ∃ last, after = ⟨rest, last, frame⟩ := by
  rw [hparameter.wordToken_eq]
  have hbindable : (Token.name parameter).isBindable = true :=
    hparameter.wordToken_eq ▸ hparameter.bindable
  have hstarts {more : List Lexeme} : Reads (lookAhead Grammar.startsIndex)
      ⟨⟨.sign "[", left, afterBreak⟩ :: ⟨.name parameter, place, false⟩ ::
        .ofSign ":" colon :: more, previous, frame⟩ true
      ⟨⟨.sign "[", left, afterBreak⟩ :: ⟨.name parameter, place, false⟩ ::
        .ofSign ":" colon :: more, previous, frame⟩ := by
    refine lookAhead_runs ?_
    refine (bump_reads hframe.trying.clear).step <| (atName_reads hframe.trying.clear).step ?_
    refine .ite (fun _ => (bump_reads hframe.trying.clear).step ?_) fun hno => absurd hbindable hno
    exact (isAtAny hframe.trying.clear (by rfl)).runs ⟨rfl, rfl⟩
  have hvalues : (values ++ .ofSign ";" stop :: rest).length ≤ bound := by
    simp at hbound ⊢
    omega
  refine .bind <| ((isAt hframe.clear (by rfl)).and_yes hstarts).yes ?_
  refine (expect_reads hframe.clear (by rfl)).step <| (position_reads hframe.clear).step ?_
  refine (word_reads hframe.clear rfl).step <| (eat_no hframe.clear (by rfl)).no ?_
  refine (expect_reads hframe.clear (by rfl)).step <| .bind <| inType_runs ?_
  refine (hkey.whole bound _ colon frame.ofType hframe.ofType (.sign (by decide) _ _)
    hbound).mono ?_
  rintro keyRead _ ⟨hkeyRead, last, rfl⟩
  refine (expect_reads hframe.clear (by rfl)).step ?_
  refine .bind <| (annotation_runs hvalue hframe hvalues).mono ?_
  rintro _ _ ⟨⟨valueRead, rfl, hvalueRead⟩, last, rfl⟩
  refine (expectMemberEnd_reads hframe).step <| (spanFrom_reads start).step <| .pure <| .pure ?_
  refine ⟨⟨texts, inner, hcommented.spanned, ?_⟩, stop, rfl⟩
  rw [Reading.typeMember, run_bind_eq hkeyRead, run_bind_eq hvalueRead]
  rfl

/-- A member with its modifier is no signature. -/
theorem member_runs {token : Token} {readonly : Bool} {head tail : List Lexeme} {previous : Span}
    {post : MemberSyntax → View → Prop} (hhead : SpellsHead token readonly start head)
    (h : StartsMember token tail) (hframe : frame.Typed source)
    (hrest : ∀ span afterBreak last, Runs (g.memberRest start readonly)
      ⟨⟨token, span, afterBreak⟩ :: tail, last, frame⟩ False post) :
    Runs g.member ⟨head ++ tail, previous, frame⟩ False post := by
  obtain ⟨span, afterBreak, last, hmodifier⟩ := modifier_reads previous hhead h hframe
  have hbehind : Runs (do
      let readonly := (← modifier? ["readonly"] false).isSome
      g.memberRest start readonly) ⟨head ++ tail, previous, frame⟩ False post := by
    refine .bind <| hmodifier.mono ?_
    rintro modifier _ ⟨rfl, rfl⟩
    exact hrest span afterBreak last
  cases hhead with
  | readonly =>
    refine (position_reads hframe.clear).step <| (notAtAny hframe.clear (by rfl)).no ?_
    exact (notAt hframe.clear (by rfl)).and_no.no hbehind
  | @plain place broken =>
    refine (position_reads hframe.clear).step ?_
    have hsigns : ["(", "<"].any token.spells = false := by
      simp only [List.any_cons, List.any_nil, Bool.or_false, Bool.or_eq_false_iff]
      exact ⟨h.spells_eq_false (by rfl), h.spells_eq_false (by rfl)⟩
    refine (notAtAny hframe.clear (by exact hsigns)).no ?_
    -- `new` is a name here, with no parameters behind it
    have hconstruct : Reads (at? "new" <&&> lookAhead (do
        bump
        atAny ["(", "<"])) ⟨⟨token, place, broken⟩ :: tail, previous, frame⟩ false
        ⟨⟨token, place, broken⟩ :: tail, previous, frame⟩ := by
      cases hnew : token.spells "new" with
      | false => exact (notAt hframe.clear (by exact hnew)).and_no
      | true =>
        refine (isAt hframe.clear (by exact hnew)).and_yes <| lookAhead_runs ?_
        refine (bump_reads hframe.trying.clear).step ?_
        cases h with
        | key _ hends => exact (hends.notAtAny (by decide)).runs ⟨rfl, rfl⟩
        | bracket _ => cases hnew
    exact hconstruct.no hbehind

/-- A member that is read as itself. -/
structure ReadsMember (source : List Char) (site : Site TypeMember) (lexemes : List Lexeme) :
    Prop where
  begins : BeginsOutside [rightBrace] lexemes
  runs : ∀ bound rest previous (frame : Frame), frame.Typed source →
    (lexemes ++ rest).length ≤ bound →
      Runs (Grammar.ofFuel (bound + 8)).member ⟨lexemes ++ rest, previous, frame⟩ False
        fun read after => LowersMember source read site ∧ ∃ last, after = ⟨rest, last, frame⟩
  unmapped : ∀ left rest previous (frame : Frame), frame.Typed source →
    Runs Grammar.startsMapped ⟨.ofSign leftBrace left :: (lexemes ++ rest), previous, frame⟩ False
      fun holds _ => holds = false

namespace ReadsMember

theorem begins_of_head {token : Token} {readonly : Bool} {head tail : List Lexeme}
    (hhead : SpellsHead token readonly start head) (h : StartsMember token tail) :
    BeginsOutside [rightBrace] (head ++ tail) := by
  cases hhead with
  | readonly => exact ⟨_, _, rfl, by simp [Token.spells, rightBrace]⟩
  | plain => exact ⟨_, _, rfl, by simpa using h.spells_eq_false (by rfl)⟩

theorem property {name : String} {token : Token} {readonly optional : Bool} {node : TypeNode}
    {colon stop : Span} {head mark type : List Lexeme} (hkey : SpellsKey name token)
    (hhead : SpellsHead token readonly start head) (hmark : SpellsOptional optional mark)
    (hcommented : Commented source texts front inner behind start stop.stop)
    (h : ReadAs source ⟨node, inner, behind⟩ type) :
    ReadsMember source ⟨.property ⟨texts, readonly, name, optional, node⟩, front, behind⟩
      (head ++ (mark ++ .ofSign ":" colon :: (type ++ [.ofSign ";" stop]))) := by
  have hstarts (more : List Lexeme) : StartsMember token (mark ++ .ofSign ":" colon :: more) := by
    refine .key hkey ?_
    cases hmark with
    | required => exact .colon
    | optional => exact .mark
  have hassoc (rest : List Lexeme) :
      head ++ (mark ++ .ofSign ":" colon :: (type ++ [.ofSign ";" stop])) ++ rest =
        head ++ (mark ++ .ofSign ":" colon :: (type ++ .ofSign ";" stop :: rest)) := by simp
  refine ⟨begins_of_head hhead (hstarts _), fun bound rest previous frame hframe hbound => ?_,
    fun left rest previous frame hframe => ?_⟩
  · rw [hassoc] at hbound ⊢
    refine member_runs hhead (hstarts _) hframe fun span afterBreak last => ?_
    exact memberRest_property hkey hmark hcommented h hframe (by simp at hbound ⊢; omega)
  · rw [hassoc]
    exact startsMapped_runs hhead (hstarts _) hframe

theorem index {parameter : String} {readonly : Bool} {key value : TypeNode}
    {place colon right sign stop : Span} {head keys values : List Lexeme} {between : List Comment}
    (hparameter : IsFreeName parameter) (hhead : SpellsHead (.sign "[") readonly start head)
    (hcommented : Commented source texts front inner behind start stop.stop)
    (hkey : ReadAs source ⟨key, inner, between⟩ keys)
    (hvalue : ReadAs source ⟨value, between, behind⟩ values) :
    ReadsMember source ⟨.index ⟨texts, readonly, parameter, key, value⟩, front, behind⟩
      (head ++ ⟨wordToken parameter, place, false⟩ :: .ofSign ":" colon ::
        (keys ++ .ofSign "]" right :: .ofSign ":" sign :: (values ++ [.ofSign ";" stop]))) := by
  have hassoc (rest : List Lexeme) :
      head ++ ⟨wordToken parameter, place, false⟩ :: .ofSign ":" colon ::
          (keys ++ .ofSign "]" right :: .ofSign ":" sign :: (values ++ [.ofSign ";" stop])) ++ rest =
        head ++ ⟨wordToken parameter, place, false⟩ :: .ofSign ":" colon ::
          (keys ++ .ofSign "]" right :: .ofSign ":" sign :: (values ++ .ofSign ";" stop :: rest)) := by
    simp
  have hstarts (more : List Lexeme) : StartsMember (.sign "[")
      (⟨wordToken parameter, place, false⟩ :: .ofSign ":" colon :: more) := .bracket hparameter
  refine ⟨begins_of_head hhead (hstarts _), fun bound rest previous frame hframe hbound => ?_,
    fun left rest previous frame hframe => ?_⟩
  · rw [hassoc] at hbound ⊢
    refine member_runs hhead (hstarts _) hframe fun span afterBreak last => ?_
    exact memberRest_index hparameter hcommented hkey hvalue hframe (by simp at hbound ⊢; omega)
  · rw [hassoc]
    exact startsMapped_runs hhead (hstarts _) hframe

end ReadsMember

/-! ## Shapes -/

/-- Members that are read as themselves, one behind the other. -/
inductive ReadsMembers (source : List Char) :
    List TypeMember → List Comment → List Comment → List Lexeme → Prop
  | nil {comments} : ReadsMembers source [] comments comments []
  | cons {member members front next behind lexemes more} :
      ReadsMember source ⟨member, front, next⟩ lexemes →
      ReadsMembers source members next behind more →
      ReadsMembers source (member :: members) front behind (lexemes ++ more)

namespace ReadsMembers

theorem property {name : String} {token : Token} {readonly optional : Bool} {node : TypeNode}
    {members : List TypeMember} {next : List Comment} {colon stop : Span}
    {head mark type more : List Lexeme} (hkey : SpellsKey name token)
    (hhead : SpellsHead token readonly start head) (hmark : SpellsOptional optional mark)
    (hcommented : Commented source texts front inner next start stop.stop)
    (h : ReadAs source ⟨node, inner, next⟩ type)
    (hmore : ReadsMembers source members next behind more) :
    ReadsMembers source (.property ⟨texts, readonly, name, optional, node⟩ :: members) front behind
      (head ++ (mark ++ .ofSign ":" colon :: (type ++ .ofSign ";" stop :: more))) := by
  have heq : head ++ (mark ++ .ofSign ":" colon :: (type ++ .ofSign ";" stop :: more)) =
      head ++ (mark ++ .ofSign ":" colon :: (type ++ [.ofSign ";" stop])) ++ more := by simp
  rw [heq]
  exact .cons (.property hkey hhead hmark hcommented h) hmore

theorem index {parameter : String} {readonly : Bool} {key value : TypeNode}
    {members : List TypeMember} {place colon right sign stop : Span}
    {head keys values more : List Lexeme} {between next : List Comment}
    (hparameter : IsFreeName parameter) (hhead : SpellsHead (.sign "[") readonly start head)
    (hcommented : Commented source texts front inner next start stop.stop)
    (hkey : ReadAs source ⟨key, inner, between⟩ keys)
    (hvalue : ReadAs source ⟨value, between, next⟩ values)
    (hmore : ReadsMembers source members next behind more) :
    ReadsMembers source (.index ⟨texts, readonly, parameter, key, value⟩ :: members) front behind
      (head ++ ⟨wordToken parameter, place, false⟩ :: .ofSign ":" colon ::
        (keys ++ .ofSign "]" right :: .ofSign ":" sign ::
          (values ++ .ofSign ";" stop :: more))) := by
  have heq : head ++ ⟨wordToken parameter, place, false⟩ :: .ofSign ":" colon ::
      (keys ++ .ofSign "]" right :: .ofSign ":" sign :: (values ++ .ofSign ";" stop :: more)) =
      head ++ ⟨wordToken parameter, place, false⟩ :: .ofSign ":" colon ::
        (keys ++ .ofSign "]" right :: .ofSign ":" sign ::
          (values ++ [.ofSign ";" stop])) ++ more := by simp
  rw [heq]
  exact .cons (.index hparameter hhead hcommented hkey hvalue) hmore

end ReadsMembers

/-- An item of what `members` collects. -/
def Grammar.memberItem (g : Grammar) : Parser (Option MemberSyntax) := do
  if ← at? rightBrace then return none
  return some (← g.member)

theorem Grammar.members_eq (g : Grammar) :
    g.members = (do
      expect leftBrace
      let members ← collect g.memberItem
      expect rightBrace
      return members) := rfl

theorem members_runs {members : List TypeMember} {lexemes rest : List Lexeme}
    {left right previous : Span} {afterBreak : Bool}
    (h : ReadsMembers source members front behind lexemes) (hframe : frame.Typed source)
    (hbound : (lexemes ++ ⟨.sign rightBrace, right, afterBreak⟩ :: rest).length ≤ bound) :
    Runs (Grammar.ofFuel (bound + 8)).members ⟨.ofSign leftBrace left ::
        (lexemes ++ ⟨.sign rightBrace, right, afterBreak⟩ :: rest), previous, frame⟩ False
      fun items after => LowersMembers source items ⟨members, front, behind⟩ ∧
        after = ⟨rest, right, frame⟩ := by
  -- along the members: none of them begins with the brace that ends the loop
  have hloop : ∀ previous limit read,
      (lexemes ++ ⟨.sign rightBrace, right, afterBreak⟩ :: rest).length < limit →
      Runs (iterateUpTo (collectStep (Grammar.ofFuel (bound + 8)).memberItem) limit read)
        ⟨lexemes ++ ⟨.sign rightBrace, right, afterBreak⟩ :: rest, previous, frame⟩ False
        fun result after => ∃ items, LowersMembers source items ⟨members, front, behind⟩ ∧
          result = items.reverse ++ read ∧
          ∃ last, after = ⟨⟨.sign rightBrace, right, afterBreak⟩ :: rest, last, frame⟩ := by
    clear left previous
    induction h with
    | nil =>
      intro previous limit read hlimit
      refine iterateUpTo_collect (by omega) <| (isAt hframe.clear (by rfl)).yes <| .pure ?_
      exact ⟨fun _ => ⟨[], rfl, rfl, previous, rfl⟩,
        fun _ hsome => (Option.some_ne_none _ hsome.symm).elim⟩
    | @cons member members _ _ _ lexemes more hmember _ ih =>
      intro previous limit read hlimit
      rw [List.append_assoc] at hbound hlimit ⊢
      refine iterateUpTo_collect (by omega) ?_
      refine (notAt hframe.clear (hmember.begins.spells_eq_false (by simp) _ _ _)).no ?_
      refine .bind <| (hmember.runs bound _ previous frame hframe hbound).mono ?_
      rintro item _ ⟨hitem, last, rfl⟩
      refine .pure ⟨fun hnone => (Option.some_ne_none _ hnone).elim, ?_⟩
      rintro _ ⟨⟩
      obtain ⟨first, later, rfl, -⟩ := hmember.begins
      simp only [List.length_append, List.length_cons] at hbound hlimit
      refine (ih (by simp; omega) last (limit - 1) (item :: read) (by simp; omega)).mono ?_
      rintro result after ⟨items, hitems, hresult, hafter⟩
      exact ⟨item :: items, .cons hitem hitems, by simp [hresult], hafter⟩
  rw [Grammar.members_eq]
  refine (expect_reads hframe.clear (by rfl)).step ?_
  rw [collect_eq]
  refine .bind <| .bind <| iterate_runs fun limit hlimit => ?_
  refine (hloop left limit [] (by simp at hlimit ⊢; omega)).mono ?_
  rintro result _ ⟨items, hitems, rfl, last, rfl⟩
  refine .pure <| (expect_reads hframe.clear (by rfl)).step <| .pure ⟨?_, rfl⟩
  simpa using hitems

/-- A shape is read as itself. -/
theorem primaryType_shape {members : List TypeMember} {lexemes : List Lexeme} {left right : Span}
    {afterBreak : Bool} (h : ReadsMembers source members front behind lexemes) :
    Gives source (Grammar.ofFuel (bound + 7)).primaryType primaryEnds bound (Lowers source)
      ⟨.typeLiteral members, front, behind⟩
      (.ofSign leftBrace left :: (lexemes ++ [⟨.sign rightBrace, right, afterBreak⟩])) := by
  intro rest previous frame hframe hrest hbound
  rw [List.cons_append, List.append_assoc, List.singleton_append] at hbound ⊢
  obtain ⟨n, rfl, hinner⟩ := exists_fuel hbound
  have hmapped : Runs Grammar.startsMapped ⟨.ofSign leftBrace left ::
      (lexemes ++ ⟨.sign rightBrace, right, afterBreak⟩ :: rest), previous, frame.trying⟩ False
      fun holds _ => holds = false := by
    cases h with
    | nil =>
      refine (bump_reads hframe.trying.clear).step ?_
      refine (eat_no hframe.trying.clear (by rfl)).step ?_
      refine (eat_no hframe.trying.clear (by rfl)).step ?_
      refine .ite (fun hyes => absurd hyes (by decide)) fun _ => ?_
      refine (eat_no hframe.trying.clear (by rfl)).step ?_
      exact (eat_no hframe.trying.clear (by rfl)).no <| .pure rfl
    | cons hmember _ =>
      rw [List.append_assoc]
      exact hmember.unmapped left _ previous frame.trying hframe.trying
  refine primaryType_of_bracket hframe (by decide) ?_
  refine (isAt hframe.clear (by rfl)).yes ?_
  have hlookAhead : Reads (lookAhead Grammar.startsMapped) ⟨.ofSign leftBrace left ::
      (lexemes ++ ⟨.sign rightBrace, right, afterBreak⟩ :: rest), previous, frame⟩ false
      ⟨.ofSign leftBrace left ::
        (lexemes ++ ⟨.sign rightBrace, right, afterBreak⟩ :: rest), previous, frame⟩ :=
    lookAhead_runs <| hmapped.mono fun _ _ hholds => ⟨hholds, rfl⟩
  refine hlookAhead.no <| .bind <| (members_runs h hframe hinner).mono ?_
  rintro items _ ⟨hitems, rfl⟩
  refine (spanFrom_reads _).step <| .pure ⟨?_, right, rfl⟩
  rw [Lowers, Reading.typeNode, run_bind_eq hitems]
  rfl

end Declutter.Syntax
