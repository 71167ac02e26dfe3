import Declutter.Syntax.Parser

/-!
# What parsers keep

An invariant of a reading holds in every state that the reading goes through: no lexeme that is
read or passed by, no fault noted down and no trial given up breaks it. `Invariant` says this of
the few ways in which a parser can change a state at all. `Yields inv post parser` says that from
where an invariant holds a parser ends where it holds, also if it fails, and that what it gives has
a property; `Keeps` is the same with nothing said about what it gives.

That a parser keeps invariants follows from its parts, so `Keeps` is a class: the rules for
sequences, cases, trials and repetitions are its instances, and each production of the grammar is
one more. Where a production tells cases of a value apart, the cases are split by hand.
-/

namespace Declutter.Syntax

/-- A property of states that nothing a parser does by itself can break. -/
class Invariant (inv : State → Prop) : Prop where
  fetch {state : State} : inv state → inv state.fetch.2
  fetchAhead {state : State} : inv state → inv state.fetchAhead.2
  /-- The current lexeme is passed by. -/
  pass {state : State} {lexeme : Lexeme} : inv state → state.current = some lexeme →
    inv { state with current := none, previous := lexeme.span }
  /-- Of a shift operator the second sign is left. -/
  cut {state : State} {lexeme : Lexeme} : inv state → state.current = some lexeme →
    lexeme.token.spells "<<" = true → inv
      { state with
        current := some
          { lexeme with
            token := .sign "<"
            span := { lexeme.span with start := lexeme.span.start + 1 } } }
  /-- A comma is put in where the last lexeme was passed by. -/
  comma {state : State} : inv state → state.current = none →
    inv { state with current := some ⟨.sign ",", state.previous, false⟩ }
  /-- A slash that has been read is read again. -/
  reread {state : State} {lexeme : Lexeme} : inv state → state.current = some lexeme →
    ["/", "/="].any lexeme.token.spells = true → inv
      { state.lexer.rereadAsRegex.faults.foldl State.note
          { state with lexer := state.lexer.rereadAsRegex.lexer } with
        current := state.lexer.rereadAsRegex.lexeme
        ahead := none }
  /-- How the lexer takes what comes next. -/
  lexer {state : State} (operandAllowed : Bool) (brackets : List Bracket) :
    inv state → inv { state with lexer := { state.lexer with operandAllowed, brackets } }
  note {state : State} (fault : Fault) : inv state → inv (state.note fault)
  /-- What concerns no lexeme. -/
  frame {state : State} (context : Context) (arrowStart : Option Nat) (labels : List String) :
    inv state → inv { state with context, arrowStart, labels }
  /-- A trial is given up. -/
  restore {state after : State} :
    inv state → inv after → inv { state with journal := after.journal }

/-- From where an invariant holds, a parser ends where it holds, and what it gives has a
property. -/
def Yields {α : Type} (inv : State → Prop) (post : α → Prop) (parser : Parser α) : Prop :=
  ∀ state, inv state → match parser state with
    | .ok value after => post value ∧ inv after
    | .error _ after => inv after

/-- The same from one state, of which more may be known. -/
def YieldsFrom {α : Type} (inv : State → Prop) (state : State) (post : α → Prop)
    (parser : Parser α) : Prop :=
  match parser state with
  | .ok value after => post value ∧ inv after
  | .error _ after => inv after

/-- A parser keeps an invariant. -/
class Keeps {α : Type} (inv : State → Prop) (parser : Parser α) : Prop where
  yields : Yields inv (fun _ => True) parser

section Rules

variable {α β : Type} {inv : State → Prop} {P : α → Prop} {Q : β → Prop}
  {p : Parser α} {f : α → Parser β}

/-! ## Values with a property -/

namespace Yields

theorem mono {R : α → Prop} (h : Yields inv P p) (himp : ∀ a, P a → R a) : Yields inv R p := by
  intro state hstate
  have hrun := h state hstate
  cases heq : p state with
  | ok value after =>
    rw [heq] at hrun
    exact ⟨himp value hrun.1, hrun.2⟩
  | error fault after =>
    rw [heq] at hrun
    exact hrun

protected theorem pure {a : α} (h : P a) : Yields inv P (pure a : Parser α) :=
  fun _ hstate => ⟨h, hstate⟩

protected theorem bind (hp : Yields inv P p) (hf : ∀ a, P a → Yields inv Q (f a)) :
    Yields inv Q (p >>= f) := by
  intro state hstate
  have hrun := hp state hstate
  simp only [Bind.bind, EStateM.bind]
  cases heq : p state with
  | ok value after =>
    rw [heq] at hrun
    exact hf value hrun.1 after hrun.2
  | error fault after =>
    rw [heq] at hrun
    exact hrun

/-- Nothing need be known of the value of a first step. -/
theorem skip [hp : Keeps inv p] (hf : ∀ a, Yields inv Q (f a)) : Yields inv Q (p >>= f) :=
  hp.yields.bind fun a _ => hf a

protected theorem throw {fault : Fault} : Yields inv P (throw fault : Parser α) :=
  fun _ hstate => hstate

/-- Behind what gives nothing, nothing is read. -/
theorem never (hp : Yields inv (fun _ => False) p) : Yields inv Q (p >>= f) :=
  hp.bind fun _ h => h.elim

protected theorem ite {c : Prop} [Decidable c] {p q : Parser α} (hp : c → Yields inv P p)
    (hq : ¬ c → Yields inv P q) : Yields inv P (if c then p else q) := by
  by_cases h : c
  · rw [if_pos h]; exact hp h
  · rw [if_neg h]; exact hq h

protected theorem some (h : Yields inv P p) :
    Yields inv (fun r => ∀ a ∈ r, P a) (do return some (← p)) := by
  refine h.bind fun a ha => .pure ?_
  rintro _ ⟨⟩
  exact ha

/-- Where nothing is given, all that is given has any property. -/
protected theorem none : Yields inv (fun r => ∀ a ∈ r, P a) (pure none : Parser (Option α)) := by
  refine .pure fun a hmem => ?_
  cases hmem

/-- Reading goes on in one way behind what is given, and in another where nothing is. -/
theorem given {q : Parser (Option α)} {f : Option α → Parser β}
    (hq : Yields inv (fun r => ∀ a ∈ r, P a) q) (hsome : ∀ a, P a → Yields inv Q (f (some a)))
    (hnone : Yields inv Q (f none)) : Yields inv Q (q >>= f) := by
  refine hq.bind fun result hresult => ?_
  cases result with
  | some a => exact hsome a (hresult a rfl)
  | none => exact hnone

theorem keeps (h : Yields inv P p) : Keeps inv p := ⟨h.mono fun _ _ => trivial⟩

end Yields

/-! ## Sequences and cases -/

instance keeps_pure {a : α} : Keeps inv (pure a : Parser α) := ⟨.pure trivial⟩

instance keeps_bind [hp : Keeps inv p] [hf : ∀ a, Keeps inv (f a)] : Keeps inv (p >>= f) :=
  ⟨hp.yields.bind fun a _ => (hf a).yields⟩

/-- A sequence whose parts are not found by themselves. -/
theorem Keeps.seq (hp : Keeps inv p) (hf : ∀ a, Keeps inv (f a)) : Keeps inv (p >>= f) := keeps_bind

instance keeps_ite {c : Prop} [Decidable c] {p q : Parser α} [hp : Keeps inv p]
    [hq : Keeps inv q] : Keeps inv (if c then p else q) :=
  ⟨.ite (fun _ => hp.yields) fun _ => hq.yields⟩

instance keeps_throw {fault : Fault} : Keeps inv (throw fault : Parser α) := ⟨.throw⟩

instance keeps_tryCatch {handle : Fault → Parser α} [hp : Keeps inv p]
    [hhandle : ∀ fault, Keeps inv (handle fault)] : Keeps inv (tryCatch p handle) := by
  constructor
  intro state hstate
  have hrun := hp.yields state hstate
  simp only [tryCatch, tryCatchThe, MonadExceptOf.tryCatch]
  delta EStateM.tryCatch
  cases heq : p state with
  | ok value after =>
    rw [heq] at hrun
    exact hrun
  | error fault after =>
    rw [heq] at hrun
    exact (hhandle fault).yields after hrun

instance keeps_get : Keeps inv (get : Parser State) := ⟨fun _ hstate => ⟨trivial, hstate⟩⟩

theorem run_modify (f : State → State) (state : State) :
    (modify f : Parser PUnit) state = .ok () (f state) := rfl

theorem keeps_modify {f : State → State} (h : ∀ state, inv state → inv (f state)) :
    Keeps inv (modify f : Parser PUnit) :=
  ⟨fun state hstate => ⟨trivial, h state hstate⟩⟩

instance keeps_andM {p q : Parser Bool} [hp : Keeps inv p] [hq : Keeps inv q] :
    Keeps inv (p <&&> q) := by
  constructor
  refine .skip fun holds => ?_
  cases holds with
  | true => exact hq.yields
  | false => exact .pure trivial

instance keeps_orM {p q : Parser Bool} [hp : Keeps inv p] [hq : Keeps inv q] :
    Keeps inv (p <||> q) := by
  constructor
  refine .skip fun holds => ?_
  cases holds with
  | true => exact .pure trivial
  | false => exact hq.yields

instance keeps_forIn {as : List α} {start : β} {step : α → β → Parser (ForInStep β)}
    [hstep : ∀ a b, Keeps inv (step a b)] : Keeps inv (forIn as start step) := by
  induction as generalizing start with
  | nil => exact keeps_pure
  | cons a as ih =>
    rw [List.forIn_cons]
    refine ⟨.skip fun next => ?_⟩
    cases next with
    | done value => exact .pure trivial
    | yield value => exact ih.yields

/-- A loop over a list whose step is not found by itself. -/
theorem Keeps.over {as : List α} {start : β} {step : α → β → Parser (ForInStep β)}
    (hstep : ∀ a b, Keeps inv (step a b)) : Keeps inv (forIn as start step) := keeps_forIn

end Rules

namespace Parser

variable {α : Type} {inv : State → Prop} [hinv : Invariant inv] {P : α → Prop} {p : Parser α}

/-! ## Contexts and trials -/

omit hinv in
theorem yields_of_run {q : Parser α} {enter : State → State} {leave : State → State → State}
    (henter : ∀ state, inv state → inv (enter state))
    (hleave : ∀ state after, inv state → inv after → inv (leave state after))
    (hrun : ∀ state, q state = match p (enter state) with
      | .ok value after => .ok value (leave state after)
      | .error fault after => .error fault (leave state after))
    (h : Yields inv P p) : Yields inv P q := by
  intro state hstate
  have hinner := h (enter state) (henter state hstate)
  rw [hrun]
  cases heq : p (enter state) with
  | ok value after =>
    rw [heq] at hinner
    exact ⟨hinner.1, hleave state after hstate hinner.2⟩
  | error fault after =>
    rw [heq] at hinner
    exact hleave state after hstate hinner

theorem yields_within {change : Context → Context} (h : Yields inv P p) :
    Yields inv P (within change p) :=
  yields_of_run (fun state => hinv.frame _ state.arrowStart state.labels)
    (fun _ after _ => hinv.frame _ after.arrowStart after.labels) (fun _ => rfl) h

theorem yields_inType (h : Yields inv P p) : Yields inv P (inType p) := yields_within h

theorem yields_forgettingBrackets (h : Yields inv P p) :
    Yields inv P (forgettingBrackets p) :=
  yields_of_run (fun state => hinv.lexer state.lexer.operandAllowed _)
    (fun _ after _ => hinv.lexer after.lexer.operandAllowed _) (fun _ => rfl) h

theorem yields_lookAhead (h : Yields inv P p) : Yields inv P (lookAhead p) :=
  yields_of_run (fun state => hinv.frame _ state.arrowStart state.labels)
    (fun _ _ => hinv.restore) (fun _ => rfl) h

/-- What a trial gives has a property, if it gives anything. -/
theorem yields_attempt {p : Parser (Option α)} (h : Yields inv (fun r => ∀ a ∈ r, P a) p) :
    Yields inv (fun r => ∀ a ∈ r, P a) (attempt p) := by
  intro state hstate
  have hinner := h _ (hinv.frame { state.context with silent := true } state.arrowStart
    state.labels hstate)
  unfold attempt
  cases heq : p { state with context := { state.context with silent := true } } with
  | ok value after =>
    rw [heq] at hinner
    cases value with
    | some value =>
      exact ⟨hinner.1, hinv.frame _ after.arrowStart after.labels hinner.2⟩
    | none => exact ⟨nofun, hinv.restore hstate hinner.2⟩
  | error fault after =>
    rw [heq] at hinner
    exact ⟨nofun, hinv.restore hstate hinner⟩

instance keeps_within {change : Context → Context} [hp : Keeps inv p] :
    Keeps inv (within change p) := ⟨yields_within hp.yields⟩

instance keeps_inType [Keeps inv p] : Keeps inv (inType p) := keeps_within

instance keeps_awaitingNoColon [Keeps inv p] : Keeps inv (awaitingNoColon p) := keeps_within

instance keeps_allowingIn [Keeps inv p] : Keeps inv (allowingIn p) := keeps_within

instance keeps_forgettingBrackets [hp : Keeps inv p] : Keeps inv (forgettingBrackets p) :=
  ⟨yields_forgettingBrackets hp.yields⟩

instance keeps_lookAhead [hp : Keeps inv p] : Keeps inv (lookAhead p) :=
  ⟨yields_lookAhead hp.yields⟩

instance keeps_attempt {p : Parser (Option α)} [hp : Keeps inv p] : Keeps inv (attempt p) :=
  (yields_attempt (P := fun _ => True) (hp.yields.mono fun _ _ _ _ => trivial)).keeps

/-! ## Lexemes -/

theorem keeps_modify_note (fault : Fault) :
    Keeps inv (modify (·.note fault) : Parser PUnit) := keeps_modify fun _ => hinv.note fault

instance keeps_lexeme : Keeps inv lexeme := ⟨fun _ hstate => ⟨trivial, hinv.fetch hstate⟩⟩

instance keeps_lexemeAhead : Keeps inv lexemeAhead :=
  ⟨fun _ hstate => ⟨trivial, hinv.fetchAhead hstate⟩⟩

instance keeps_token : Keeps inv token := by unfold token; infer_instance

instance keeps_tokenAhead : Keeps inv tokenAhead := by unfold tokenAhead; infer_instance

instance keeps_previousStop : Keeps inv previousStop := by unfold previousStop; infer_instance

instance keeps_here : Keeps inv here := by
  unfold here
  refine ⟨.skip fun lexeme => ?_⟩
  cases lexeme <;> exact Keeps.yields

instance keeps_position : Keeps inv position := by
  unfold position
  refine ⟨.skip fun lexeme => ?_⟩
  cases lexeme <;> exact Keeps.yields

instance keeps_spanFrom {start : Nat} : Keeps inv (spanFrom start) := by
  unfold spanFrom; infer_instance

theorem current_fetch (state : State) : state.fetch.2.current = state.fetch.1 := by
  unfold State.fetch
  split <;> first | rfl | assumption

/-- Behind a lexeme that is passed by no other has been read as the current one. -/
theorem yields_bump {β : Type} {Q : β → Prop} {f : Unit → Parser β}
    (hf : ∀ state, inv state → state.current = none → YieldsFrom inv state Q (f ())) :
    Yields inv Q (bump >>= f) := by
  intro state hstate
  have hfetch := hinv.fetch hstate
  have hcurrent := current_fetch state
  show YieldsFrom inv state Q (bump >>= f)
  cases hlexeme : state.fetch.1 with
  | none =>
    have hrun : (bump >>= f) state = f () state.fetch.2 := by
      simp [bump, lexeme, Bind.bind, EStateM.bind, hlexeme, Pure.pure, EStateM.pure]
    rw [YieldsFrom, hrun]
    exact hf _ hfetch (hcurrent.trans hlexeme)
  | some lexeme =>
    have hrun : (bump >>= f) state =
        f () { state.fetch.2 with current := none, previous := lexeme.span } := by
      simp [bump, Parser.lexeme, Bind.bind, EStateM.bind, hlexeme, run_modify]
    rw [YieldsFrom, hrun]
    exact hf _ (hinv.pass hfetch (hcurrent.trans hlexeme)) rfl

instance keeps_bump : Keeps inv bump := by
  constructor
  have hbump : Yields inv (fun _ => True) (bump >>= pure) :=
    yields_bump fun state hstate _ => ⟨trivial, hstate⟩
  rwa [bind_pure] at hbump

instance keeps_afterBreak : Keeps inv afterBreak := by unfold afterBreak; infer_instance

instance keeps_breakAhead : Keeps inv breakAhead := by unfold breakAhead; infer_instance

/-! ## Faults -/

instance keeps_noteAt {place : Nat} {cause : Cause} : Keeps inv (noteAt place cause) := by
  unfold noteAt
  have hnote : ∀ fault, Keeps inv (modify (·.note fault) : Parser PUnit) := keeps_modify_note
  refine ⟨.skip fun state => .ite (fun _ => .pure trivial) fun _ => .skip fun token => ?_⟩
  split <;> exact Keeps.yields

/-- Nothing is given where the reading ends. -/
theorem yields_failAt {place : Nat} {cause : Cause} :
    Yields inv P (failAt place cause : Parser α) := by
  unfold failAt
  have hnote : ∀ fault, Keeps inv (modify (·.note fault) : Parser PUnit) := keeps_modify_note
  refine .skip fun token => ?_
  split
  · exact .skip fun _ => .skip fun _ => .throw
  · exact .throw

theorem yields_failHere {cause : Cause} : Yields inv P (failHere cause : Parser α) := by
  unfold failHere
  exact .skip fun _ => yields_failAt

instance keeps_failAt {place : Nat} {cause : Cause} : Keeps inv (failAt place cause : Parser α) :=
  ⟨yields_failAt⟩

instance keeps_failHere {cause : Cause} : Keeps inv (failHere cause : Parser α) :=
  ⟨yields_failHere⟩

instance keeps_noteHere {cause : Cause} : Keeps inv (noteHere cause) := by
  unfold noteHere; infer_instance

instance keeps_checkToken : Keeps inv checkToken := by
  unfold checkToken
  refine ⟨.skip fun token => ?_⟩
  split <;> exact Keeps.yields

instance keeps_needToken : Keeps inv needToken := by
  unfold needToken
  refine ⟨.skip fun _ => .skip fun token => ?_⟩
  cases token <;> exact Keeps.yields

instance keeps_atEnd : Keeps inv atEnd := by unfold atEnd; infer_instance

instance keeps_shownToken : Keeps inv shownToken := by unfold shownToken; infer_instance

theorem yields_unexpected {options : String} : Yields inv P (unexpected options : Parser α) := by
  unfold unexpected
  exact .skip fun _ => yields_failHere

instance keeps_unexpected {options : String} : Keeps inv (unexpected options : Parser α) :=
  ⟨yields_unexpected⟩

/-! ## Tokens by their spelling -/

instance keeps_at? {text : String} : Keeps inv (at? text) := by unfold at?; infer_instance

instance keeps_atAny {texts : List String} : Keeps inv (atAny texts) := by
  unfold atAny; infer_instance

/-- A token that is looked for is the current one where it has been found. -/
theorem yields_found {β : Type} {Q : β → Prop} {f : Bool → Parser β} {test : Token → Bool}
    (hfound : ∀ state lexeme, inv state → state.current = some lexeme →
      test lexeme.token = true → YieldsFrom inv state Q (f true))
    (hother : Yields inv Q (f false)) :
    Yields inv Q ((do return (← token).any test) >>= f) := by
  intro state hstate
  have hfetch := hinv.fetch hstate
  have hcurrent := current_fetch state
  show YieldsFrom inv state.fetch.2 Q (f ((state.fetch.1.map (·.token)).any test))
  cases hlexeme : state.fetch.1 with
  | none => exact hother _ hfetch
  | some lexeme =>
    show YieldsFrom inv _ Q (f (test lexeme.token))
    by_cases htest : test lexeme.token = true
    · rw [htest]
      exact hfound _ lexeme hfetch (hcurrent.trans hlexeme) htest
    · rw [Bool.eq_false_iff.mpr htest]
      exact hother _ hfetch

instance keeps_ahead? {text : String} : Keeps inv (ahead? text) := by unfold ahead?; infer_instance

instance keeps_eat {text : String} : Keeps inv (eat text) := by unfold eat; infer_instance

instance keeps_expect {text : String} : Keeps inv (expect text) := by unfold expect; infer_instance

instance keeps_atWord : Keeps inv atWord := by unfold atWord; infer_instance

instance keeps_wordAhead : Keeps inv wordAhead := by unfold wordAhead; infer_instance

instance keeps_atName : Keeps inv atName := by unfold atName; infer_instance

instance keeps_nameAhead : Keeps inv nameAhead := by unfold nameAhead; infer_instance

instance keeps_atStatementEnd : Keeps inv atStatementEnd := by
  unfold atStatementEnd; infer_instance

instance keeps_eatSemicolon : Keeps inv eatSemicolon := by unfold eatSemicolon; infer_instance

instance keeps_expectSemicolon : Keeps inv expectSemicolon := by
  unfold expectSemicolon; infer_instance

/-! ## Words -/

/-- The tokens that are current somewhere where an invariant holds. -/
def Current (inv : State → Prop) (token : Token) : Prop :=
  ∃ state, inv state ∧ ∃ lexeme ∈ state.current, lexeme.token = token

/-- The words that are current somewhere where an invariant holds. -/
def Occurs (inv : State → Prop) (text : String) : Prop :=
  ∃ token, Current inv token ∧ token.word? = some text

theorem yields_token : Yields inv (fun token => ∀ t ∈ token, Current inv t) token := by
  intro state hstate
  refine ⟨fun t ht => ?_, hinv.fetch hstate⟩
  obtain ⟨lexeme, hlexeme, rfl⟩ := Option.map_eq_some_iff.mp ht
  exact ⟨_, hinv.fetch hstate, lexeme, (current_fetch state).trans hlexeme, rfl⟩

theorem yields_needToken : Yields inv (Current inv) needToken := by
  unfold needToken
  refine .skip fun _ => .bind yields_token fun token htoken => ?_
  cases token with
  | some token => exact .pure (htoken token rfl)
  | none => exact .skip fun _ => .throw

theorem yields_word : Yields inv (Occurs inv) word := by
  unfold word
  refine .bind yields_needToken fun token h => ?_
  split
  · rename_i text htext
    exact .skip fun _ => .pure ⟨token, h, htext⟩
  · exact yields_failHere

instance keeps_word : Keeps inv word := yields_word.keeps

/-! ## Repetitions -/

omit hinv in
theorem yields_iterateUpTo {step : α → Parser (Option α)}
    (hstep : ∀ a, P a → Yields inv (fun r => ∀ b ∈ r, P b) (step a)) (limit : Nat) {start : α}
    (hstart : P start) : Yields inv P (iterateUpTo step limit start) := by
  induction limit generalizing start with
  | zero => exact .skip fun _ => .throw
  | succ limit ih =>
    unfold iterateUpTo
    refine .bind (hstep start hstart) fun next hnext => ?_
    cases next with
    | none => exact .pure hstart
    | some next => exact ih (hnext next rfl)

omit hinv in
theorem yields_iterate {step : α → Parser (Option α)} {start : α} (hstart : P start)
    (hstep : ∀ a, P a → Yields inv (fun r => ∀ b ∈ r, P b) (step a)) :
    Yields inv P (iterate step start) := by
  unfold iterate
  exact .skip fun state => yields_iterateUpTo hstep state.limit hstart

instance keeps_iterate {step : α → Parser (Option α)} {start : α}
    [hstep : ∀ a, Keeps inv (step a)] : Keeps inv (iterate step start) :=
  (yields_iterate (P := fun _ => True) trivial
    fun a _ => (hstep a).yields.mono fun _ _ _ _ => trivial).keeps

omit hinv in
/-- Each of the items collected has a property. -/
theorem yields_collect {item : Parser (Option α)} (h : Yields inv (fun r => ∀ a ∈ r, P a) item) :
    Yields inv (fun as => ∀ a ∈ as, P a) (collect item) := by
  unfold collect
  refine .bind (P := fun as => ∀ a ∈ as, P a) (yields_iterate nofun fun as has => ?_) fun as has =>
    .pure (by simpa using has)
  refine .bind h fun next hnext => .pure ?_
  cases next with
  | none => nofun
  | some a =>
    rintro _ ⟨⟩
    exact List.forall_mem_cons.mpr ⟨hnext a rfl, has⟩

instance keeps_collect {item : Parser (Option α)} [Keeps inv item] : Keeps inv (collect item) := by
  unfold collect; infer_instance

instance keeps_repeatWhile {step : Parser Bool} [Keeps inv step] :
    Keeps inv (repeatWhile step) := by
  unfold repeatWhile; infer_instance

/-- Each of the items of a list has a property. -/
theorem yields_listUpTo {closed : Parser Bool} {missing : Parser Unit} [Keeps inv closed]
    [Keeps inv missing] (h : Yields inv P p) :
    Yields inv (fun as => ∀ a ∈ as, P a) (listUpTo closed missing p) := by
  unfold listUpTo
  refine .bind (P := fun read => ∀ a ∈ read.1, P a) (yields_iterate nofun ?_) fun read hread =>
    .pure (by simpa using hread)
  intro read hread
  refine .ite (fun _ => .pure nofun) fun _ => .skip fun isClosed => .ite (fun _ => .pure nofun)
    fun _ => .bind h fun a ha => .skip fun hasComma => ?_
  have hread' : ∀ b ∈ a :: read.1, P b := List.forall_mem_cons.mpr ⟨ha, hread⟩
  refine .ite (fun _ => .pure ?_) fun _ => .skip fun isClosed => .ite (fun _ => .pure ?_)
    fun _ => .skip fun _ => .pure ?_
  all_goals
    rintro _ ⟨⟩
    exact hread'

theorem yields_commaList {closed : Parser Bool} [Keeps inv closed] (h : Yields inv P p) :
    Yields inv (fun as => ∀ a ∈ as, P a) (commaList closed p) := yields_listUpTo h

instance keeps_listUpTo {closed : Parser Bool} {missing : Parser Unit} [Keeps inv closed]
    [Keeps inv missing] [hp : Keeps inv p] : Keeps inv (listUpTo closed missing p) :=
  (yields_listUpTo hp.yields).keeps

instance keeps_commaList {closed : Parser Bool} [Keeps inv closed] [hp : Keeps inv p] :
    Keeps inv (commaList closed p) := keeps_listUpTo

end Parser

/-- A repetition whose step is not found by itself. -/
theorem Keeps.each {α : Type} {inv : State → Prop} {step : α → Parser (Option α)} {start : α}
    (hstep : ∀ a, Keeps inv (step a)) : Keeps inv (Parser.iterate step start) :=
  Parser.keeps_iterate

end Declutter.Syntax
