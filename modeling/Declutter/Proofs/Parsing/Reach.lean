import Declutter.Proofs.Parsing.Places

/-!
# What parsers give, and how far they have come with it

`Reaches w post parser` says that from a state that has come as far as `w`, a parser that gives a
value has come as far as some `v` with it, at least as far as `w`, and that `post v` holds of the
value. So a production can say of what it reads that no part of it lies behind the lexemes passed
by. The rules are those of `Yields`, with the extent handed on from each step to the next.
-/

namespace Declutter.Syntax

/-- From a state, what a parser gives has a property that can tell how far the reading has come
with it. -/
def ReachesFrom {α : Type} (w : Extent) (state : State) (post : Extent → α → Prop)
    (parser : Parser α) : Prop :=
  match parser state with
  | .ok value after => ∃ v, w.Le v ∧ after.Past v ∧ post v value
  | .error _ after => after.Past w

/-- The same from all states that have come so far. -/
def Reaches {α : Type} (w : Extent) (post : Extent → α → Prop) (parser : Parser α) : Prop :=
  ∀ state, state.Past w → ReachesFrom w state post parser

/-- A property that stays true of a value while the reading goes on. -/
def Lasts {α : Type} (post : Extent → α → Prop) : Prop :=
  ∀ v w value, v.Le w → post v value → post w value

section Rules

variable {α β : Type} {w : Extent} {P : Extent → α → Prop} {Q : Extent → β → Prop}
  {p : Parser α} {f : α → Parser β}

/-! ## Runs -/

theorem ReachesFrom.of_ok {state after : State} {v : Extent} {value : α}
    (hrun : p state = .ok value after) (hle : w.Le v) (hafter : after.Past v) (hvalue : P v value) :
    ReachesFrom w state P p := by
  rw [ReachesFrom, hrun]
  exact ⟨v, hle, hafter, hvalue⟩

theorem ReachesFrom.of_error {state after : State} {fault : Fault}
    (hrun : p state = .error fault after) (hafter : after.Past w) : ReachesFrom w state P p := by
  rw [ReachesFrom, hrun]
  exact hafter

/-- A run gives a value or a fault. -/
theorem ReachesFrom.elim {state : State} {motive : Prop} (h : ReachesFrom w state P p)
    (hok : ∀ value after v, p state = .ok value after → w.Le v → after.Past v → P v value → motive)
    (herror : ∀ fault after, p state = .error fault after → after.Past w → motive) : motive := by
  unfold ReachesFrom at h
  cases heq : p state with
  | ok value after =>
    rw [heq] at h
    obtain ⟨v, hle, hafter, hvalue⟩ := h
    exact hok value after v heq hle hafter hvalue
  | error fault after =>
    rw [heq] at h
    exact herror fault after heq h

/-! ## Values -/

namespace Reaches

/-- What is known of a value wherever the reading is. -/
theorem of_yields {R : α → Prop} (h : Yields (State.Past w) R p)
    (himp : ∀ a, R a → P w a) : Reaches w P p := by
  intro state hstate
  have hrun := h state hstate
  cases heq : p state with
  | ok value after =>
    rw [heq] at hrun
    exact .of_ok heq (.refl w) hrun.2 (himp value hrun.1)
  | error fault after =>
    rw [heq] at hrun
    exact .of_error heq hrun

/-- Where nothing is given, what would have been given has any property. -/
theorem of_never (h : Yields (State.Past w) (fun _ => False) p) : Reaches w P p :=
  of_yields h fun _ => False.elim

protected theorem pure {a : α} (h : P w a) : Reaches w P (pure a : Parser α) :=
  fun _ hstate => .of_ok rfl (.refl w) hstate h

protected theorem bind (hp : Reaches w P p)
    (hf : ∀ a v, w.Le v → P v a → Reaches v Q (f a)) : Reaches w Q (p >>= f) := by
  intro state hstate
  refine (hp state hstate).elim (fun first middle v hfirst hle hmiddle hvalue => ?_)
    fun fault middle hfirst hmiddle => ?_
  · -- The second step begins at `v`, where the first one has come.
    refine (hf first v hle hvalue middle hmiddle).elim
      (fun value after u hrest hle' hafter hvalue' => ?_) fun fault after hrest hafter => ?_
    · have hrun : (p >>= f) state = .ok value after := by
        simp only [Bind.bind, EStateM.bind, hfirst, hrest]
      exact .of_ok hrun (hle.trans hle') hafter hvalue'
    · have hrun : (p >>= f) state = .error fault after := by
        simp only [Bind.bind, EStateM.bind, hfirst, hrest]
      exact .of_error hrun (hafter.mono hle)
  · have hrun : (p >>= f) state = .error fault middle := by
      simp only [Bind.bind, EStateM.bind, hfirst]
    exact .of_error hrun hmiddle

/-- Nothing need be known of the value of a first step. -/
theorem skip [hp : Keeps (State.Past w) p] (hf : ∀ a, Reaches w Q (f a)) :
    Reaches w Q (p >>= f) := by
  have hfirst : Reaches w (fun v _ => v = w) p := of_yields hp.yields fun _ _ => rfl
  refine hfirst.bind fun a v _ hv => ?_
  subst hv
  exact hf a

/-- Behind what gives nothing, nothing is read. -/
theorem never (hp : Yields (State.Past w) (fun _ => False) p) : Reaches w Q (p >>= f) :=
  of_never (.never hp)

protected theorem ite {c : Prop} [Decidable c] {p q : Parser α} (hp : c → Reaches w P p)
    (hq : ¬ c → Reaches w P q) : Reaches w P (if c then p else q) := by
  by_cases h : c
  · rw [if_pos h]
    exact hp h
  · rw [if_neg h]
    exact hq h

protected theorem some (h : Reaches w P p) :
    Reaches w (fun v r => ∀ a ∈ r, P v a) (do return some (← p)) := by
  refine h.bind fun a v _ ha => .pure ?_
  rintro _ ⟨⟩
  exact ha

/-- Where nothing is given, all that is given has any property. -/
protected theorem none :
    Reaches w (fun v r => ∀ a ∈ r, P v a) (pure none : Parser (Option α)) := by
  refine .pure fun a hmem => ?_
  cases hmem

/-- Reading goes on in one way behind what is given, and in another where nothing is. -/
theorem given {q : Parser (Option α)} {f : Option α → Parser β}
    (hq : Reaches w (fun v r => ∀ a ∈ r, P v a) q)
    (hsome : ∀ a v, w.Le v → P v a → Reaches v Q (f (some a)))
    (hnone : ∀ v, w.Le v → Reaches v Q (f none)) : Reaches w Q (q >>= f) := by
  refine hq.bind fun result v hle hresult => ?_
  cases result with
  | some a => exact hsome a v hle (hresult a rfl)
  | none => exact hnone v hle

end Reaches

end Rules

namespace Parser

variable {α : Type} {w : Extent} {P : Extent → α → Prop} {p : Parser α}

/-! ## Contexts and trials -/

theorem reaches_of_run {q : Parser α} {enter : State → State} {leave : State → State → State}
    (henter : ∀ state, state.Past w → (enter state).Past w)
    (hleave : ∀ v state after, after.Past v → (leave state after).Past v)
    (hrun : ∀ state, q state = match p (enter state) with
      | .ok value after => .ok value (leave state after)
      | .error fault after => .error fault (leave state after))
    (h : Reaches w P p) : Reaches w P q := by
  intro state hstate
  refine (h (enter state) (henter state hstate)).elim
    (fun value after v hinner hle hafter hvalue => ?_) fun fault after hinner hafter => ?_
  · exact .of_ok (by rw [hrun, hinner]) hle (hleave v state after hafter) hvalue
  · exact .of_error (by rw [hrun, hinner]) (hleave w state after hafter)

theorem reaches_within {change : Context → Context} (h : Reaches w P p) :
    Reaches w P (within change p) :=
  reaches_of_run (fun state => Invariant.frame _ state.arrowStart state.labels)
    (fun _ _ after => Invariant.frame _ after.arrowStart after.labels) (fun _ => rfl) h

theorem reaches_inType (h : Reaches w P p) : Reaches w P (inType p) := reaches_within h

theorem reaches_forgettingBrackets (h : Reaches w P p) :
    Reaches w P (forgettingBrackets p) :=
  reaches_of_run (fun state => Invariant.lexer state.lexer.operandAllowed _)
    (fun _ _ after => Invariant.lexer after.lexer.operandAllowed _) (fun _ => rfl) h

/-- A trial that is given up has come no farther than where it began. -/
theorem reaches_attempt {p : Parser (Option α)} (h : Reaches w (fun v r => ∀ a ∈ r, P v a) p) :
    Reaches w (fun v r => ∀ a ∈ r, P v a) (attempt p) := by
  intro state hstate
  have hsilent : State.Past w { state with context := { state.context with silent := true } } :=
    Invariant.frame _ state.arrowStart state.labels hstate
  -- What is left of a trial that is given up is the journal.
  have hgivenUp (after : State) (hafter : after.Past w)
      (hrun : attempt p state = .ok none { state with journal := after.journal }) :
      ReachesFrom w state (fun v r => ∀ a ∈ r, P v a) (attempt p) :=
    .of_ok hrun (.refl w) (Invariant.restore hstate hafter) (by simp)
  refine (h _ hsilent).elim (fun result after v hinner hle hafter hvalue => ?_)
    fun fault after hinner hafter => hgivenUp after hafter (by simp only [attempt, hinner])
  cases result with
  | none => exact hgivenUp after (hafter.mono hle) (by simp only [attempt, hinner])
  | some result =>
    have hrun : attempt p state = .ok (some result)
        { after with context := { after.context with silent := state.context.silent } } := by
      simp only [attempt, hinner]
    exact .of_ok hrun hle (Invariant.frame _ after.arrowStart after.labels hafter) hvalue

/-! ## Places -/

/-- What is current has been seen. -/
theorem reaches_position : Reaches w (fun v start => start ≤ v.seen) position := by
  intro state hstate
  have hfetched : state.fetch.2.Past w := Invariant.fetch hstate
  have hcurrent := current_fetch state
  have hgiven (start : Nat) (hrun : position state = .ok start state.fetch.2)
      (hseen : start ≤ state.fetch.2.seen) :
      ReachesFrom w state (fun v start => start ≤ v.seen) position :=
    .of_ok (v := state.fetch.2.extent) hrun hfetched.extent ⟨hfetched.inOrder, .refl _⟩ hseen
  cases hlexeme : state.fetch.1 with
  | some lexeme =>
    refine hgiven lexeme.span.start ?_ ?_
    · simp [position, Parser.lexeme, Bind.bind, EStateM.bind, hlexeme, Pure.pure, EStateM.pure]
    · simp only [State.seen, hcurrent, hlexeme, Option.map_some, Option.getD_some]
      exact Nat.le_max_right _ _
  | none =>
    refine hgiven state.fetch.2.previous.stop ?_ (Nat.le_max_left _ _)
    have hstop (after : State) : previousStop after = .ok after.previous.stop after := rfl
    simp [position, Parser.lexeme, Bind.bind, EStateM.bind, hlexeme, hstop]

/-- A token that is looked for is the current one where it has been found. -/
theorem reaches_found {β : Type} {Q : Extent → β → Prop} {f : Bool → Parser β}
    {test : Token → Bool}
    (hfound : ∀ state lexeme, state.Past w → state.current = some lexeme →
      test lexeme.token = true → ReachesFrom w state Q (f true))
    (hother : ∀ state, state.Past w → ReachesFrom w state Q (f false)) :
    Reaches w Q ((do return (← token).any test) >>= f) := by
  intro state hstate
  have hfetched : state.fetch.2.Past w := Invariant.fetch hstate
  have hcurrent := current_fetch state
  show ReachesFrom w state.fetch.2 Q (f ((state.fetch.1.map (·.token)).any test))
  cases hlexeme : state.fetch.1 with
  | none => exact hother _ hfetched
  | some lexeme =>
    show ReachesFrom w _ Q (f (test lexeme.token))
    by_cases htest : test lexeme.token = true
    · rw [htest]
      exact hfound _ lexeme hfetched (hcurrent.trans hlexeme) htest
    · rw [Bool.eq_false_iff.mpr htest]
      exact hother _ hfetched

/-- A stretch from a place that has been seen to the end of what has been passed by. -/
structure Spans (v : Extent) (start : Nat) (span : Span) : Prop where
  begins : start ≤ v.seen → span.start ≤ v.seen
  ends : start ≤ v.seen → span.stop ≤ v.seen
  covers : v.passed ≤ span.stop
  /-- What has been passed by has been seen. -/
  sound : v.passed ≤ v.seen

theorem reaches_spanFrom {start : Nat} :
    Reaches w (fun v span => Spans v start span) (spanFrom start) := by
  intro state hstate
  have hpassed : state.previous.stop ≤ state.seen := Nat.le_max_left _ _
  refine .of_ok (v := state.extent) rfl hstate.extent ⟨hstate.inOrder, .refl _⟩
    ⟨?_, ?_, ?_, hpassed⟩
  · exact fun hstart => Nat.le_trans (Nat.min_le_left _ _) hstart
  · exact fun hstart => Nat.max_le.mpr ⟨hstart, hpassed⟩
  · exact Nat.le_max_right _ _

theorem run_bump {state : State} {lexeme : Lexeme} (h : state.current = some lexeme) :
    bump state = .ok () { state with current := none, previous := lexeme.span } := by
  have hfetch : state.fetch = (some lexeme, state) := by simp [State.fetch, h]
  simp [bump, Parser.lexeme, hfetch, Bind.bind, EStateM.bind, run_modify]

/-- A token that must stand somewhere is passed by, and with it all that had been seen. -/
theorem reaches_expect {text : String} :
    Reaches w (fun v _ => w.seen ≤ v.passed) (expect text) := by
  -- It is the current lexeme that is compared, and the same that is passed by.
  have hexpect : expect text = (do return (← token).any (·.spells text)) >>= fun found =>
      if found then bump else (do failHere (.expected text (← shownToken))) := by
    funext state
    cases hlexeme : state.fetch.1 with
    | none =>
      simp [expect, eat, at?, token, Parser.lexeme, Bind.bind, EStateM.bind, hlexeme, Pure.pure,
        EStateM.pure]
    | some lexeme =>
      have hbump := run_bump ((current_fetch state).trans hlexeme)
      cases hspells : lexeme.token.spells text <;>
        simp [expect, eat, at?, token, Parser.lexeme, Bind.bind, EStateM.bind, hlexeme, hspells,
          hbump, Pure.pure, EStateM.pure]
  rw [hexpect]
  refine reaches_found (fun state lexeme hstate hcurrent _ => ?_) fun state hstate => ?_
  · obtain ⟨hleads, hseen⟩ := State.leads_pass hstate.inOrder hcurrent
    exact .of_ok (v := State.extent { state with current := none, previous := lexeme.span })
      (run_bump hcurrent)
      (hstate.extent.trans ⟨hleads.passed, hleads.seen⟩) ⟨hleads.inOrder, .refl _⟩
      (Nat.le_trans hstate.extent.seen hseen)
  · exact Reaches.of_never (.skip fun _ => yields_failHere) state hstate

/-! ## Repetitions -/

theorem reaches_iterateUpTo {step : α → Parser (Option α)} (hP : Lasts P)
    (hstep : ∀ a v, w.Le v → P v a → Reaches v (fun u r => ∀ b ∈ r, P u b) (step a))
    (limit : Nat) {start : α} {v : Extent} (hle : w.Le v) (hstart : P v start) :
    Reaches v P (iterateUpTo step limit start) := by
  -- By the steps left; what holds of the value so far lasts while the next step reads on.
  induction limit generalizing start v with
  | zero => exact .of_never (.skip fun _ => .throw)
  | succ limit ih =>
    unfold iterateUpTo
    refine (hstep start v hle hstart).bind fun next u hfrom hnext => ?_
    cases next with
    | none => exact .pure (hP v u start hfrom hstart)
    | some next => exact ih (hle.trans hfrom) (hnext next rfl)

theorem reaches_iterate {step : α → Parser (Option α)} {start : α} (hP : Lasts P)
    (hstart : P w start)
    (hstep : ∀ a v, w.Le v → P v a → Reaches v (fun u r => ∀ b ∈ r, P u b) (step a)) :
    Reaches w P (iterate step start) := by
  unfold iterate
  exact .skip fun state => reaches_iterateUpTo hP hstep state.limit (.refl w) hstart

/-- What lasts of each item lasts of all of them. -/
theorem lasts_all (hP : Lasts P) : Lasts fun v (as : List α) => ∀ a ∈ as, P v a :=
  fun v w _ hle h a hmem => hP v w a hle (h a hmem)

/-- Each of the items collected has a property. -/
theorem reaches_collect {item : Parser (Option α)} (hP : Lasts P)
    (h : ∀ v, Reaches v (fun u r => ∀ a ∈ r, P u a) item) :
    Reaches w (fun v as => ∀ a ∈ as, P v a) (collect item) := by
  unfold collect
  refine .bind (P := fun v as => ∀ a ∈ as, P v a)
    (reaches_iterate (lasts_all hP) (List.forall_mem_nil _) fun as v _ has => ?_)
    fun as v _ has => .pure (by simpa using has)
  refine (h v).bind fun next u hle hnext => .pure ?_
  cases next with
  | none => simp
  | some a =>
    rintro _ ⟨⟩
    exact List.forall_mem_cons.mpr ⟨hnext a rfl, lasts_all hP v u as hle has⟩

/-- Each of the items of a list has a property. -/
theorem reaches_commaList {closed : Parser Bool} {item : Parser α}
    [∀ v, Keeps (State.Past v) closed] (hP : Lasts P) (h : ∀ v, Reaches v P item) :
    Reaches w (fun v as => ∀ a ∈ as, P v a) (commaList closed item) := by
  unfold commaList listUpTo
  refine .bind (P := fun v read => ∀ a ∈ read.1, P v a)
    (reaches_iterate (fun v w read hle => lasts_all hP v w read.1 hle) (by simp) ?_)
    fun read v _ hread => .pure (by simpa using hread)
  intro read v _ hread
  refine .ite (fun _ => .none) fun _ => .skip fun isClosed => .ite (fun _ => .none) fun _ => ?_
  refine (h v).bind fun a u hle ha => .skip fun hasComma => ?_
  have hread' : ∀ b ∈ a :: read.1, P u b :=
    List.forall_mem_cons.mpr ⟨ha, lasts_all hP v u read.1 hle hread⟩
  refine .ite (fun _ => .pure ?_) fun _ => .skip fun isClosed => .ite (fun _ => .pure ?_)
    fun _ => .skip fun _ => .pure ?_
  all_goals
    rintro _ ⟨⟩
    exact hread'

end Parser

end Declutter.Syntax
