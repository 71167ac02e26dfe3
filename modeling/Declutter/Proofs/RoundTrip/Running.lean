import Declutter.Proofs.RoundTrip.Lexemes
import Declutter.Syntax.Parser

/-!
# Running parsers

A parser is followed by what it sees: the lexemes to come, the place of the last one, and the frame
they are read in. `Reads parser view value after` says that a parser gives a value and leaves a
view, from every state that shows the first view. `Runs parser view fails post` leaves open what
is given and whether the parser may fail; if it fails, no fault has been noted down on the way.

The lemmas take the parsers of `Syntax/Parser` one by one. Behind them no proof about the grammar
speaks of a state again.
-/

namespace Declutter.Syntax

/-- What of a state stays the same while lexemes are passed by. -/
structure Frame where
  source : List Char
  /-- The comments of the source. -/
  comments : List Comment
  context : Context
  arrowStart : Option Nat
  labels : List String
  journal : Journal
  limit : Nat

/-- What a parser sees. -/
structure View where
  rest : List Lexeme
  /-- Where the last lexeme passed by lies. -/
  previous : Span
  frame : Frame

/-- The frame of a trial. -/
def Frame.trying (frame : Frame) : Frame :=
  { frame with context := { frame.context with silent := true } }

/-- Whether `<` and `>` stand alone. -/
def Frame.singleAngles (frame : Frame) : Bool :=
  frame.context.inType && !frame.context.inTypedOperand

namespace View

/-- Whether the current token is a certain word or sign. -/
def spells (view : View) (text : String) : Bool :=
  view.rest.head?.any (·.token.spells text)

/-- A lexeme comes next. Where `<` and `>` do not stand alone, it is none of them. -/
structure Clear (view : View) : Prop where
  rest : view.rest ≠ []
  angles : view.frame.singleAngles = true ∨
    ∀ lexeme ∈ view.rest.head?, lexeme.token.isAngle = false

theorem Clear.of_head {lexeme : Lexeme} {rest : List Lexeme} {previous : Span} {frame : Frame}
    (h : lexeme.token.isAngle = false) : Clear ⟨lexeme :: rest, previous, frame⟩ :=
  ⟨by simp, .inr (by
    rintro _ ⟨⟩
    exact h)⟩

/-- A view in another context. -/
def inContext (view : View) (context : Context) : View :=
  { view with frame := { view.frame with context } }

/-- A view as a trial sees it. -/
def trying (view : View) : View := { view with frame := view.frame.trying }

/-- What a trial leaves, where no trial is around. -/
def tried (after view : View) : View :=
  after.inContext { after.frame.context with silent := view.frame.context.silent }

end View

/-- A state shows a view if the lexemes to come are in part read, and the others lie in front of the
lexer. They are so few that no repetition over them reaches its limit. -/
structure State.Shows (state : State) (view : View) : Prop where
  rest : ∃ later, view.rest = state.current.toList ++ (state.ahead.toList ++ later) ∧
    state.lexer.Reaches view.frame.source view.frame.comments later
  begun : state.lexer.isFirst = false
  previous : state.previous = view.previous
  context : state.context = view.frame.context
  arrowStart : state.arrowStart = view.frame.arrowStart
  labels : state.labels = view.frame.labels
  journal : state.journal = view.frame.journal
  limit : state.limit = view.frame.limit
  plain : ∀ lexeme ∈ view.rest, lexeme.token.isPlain = true
  room : view.rest.length + 2 ≤ view.frame.limit

namespace State

variable {state : State} {view : View}

/-- The next lexeme is read from the text, and nothing but the lexer changes. Where none has been
read before, a line is taken to end in front of it. -/
theorem read_cons {source : List Char} {comments : List Comment} {lexeme : Lexeme}
    {lexemes : List Lexeme} (hreaches : state.lexer.Reaches source comments (lexeme :: lexemes))
    (hclear : state.mode.singleAngles = true ∨ lexeme.token.isAngle = false) :
    ∃ lexer, state.read =
        (some { lexeme with afterBreak := state.lexer.isFirst || lexeme.afterBreak },
          { state with lexer }) ∧
      lexer.isFirst = false ∧ lexer.Reaches source comments lexemes := by
  obtain ⟨hlexeme, hfaults, hend, hfirst, hafter⟩ := Lexer.next_of_reaches hreaches hclear
  refine ⟨(state.lexer.next state.mode).lexer, ?_, hfirst, hafter⟩
  simp only [State.read, hlexeme, hfaults, hend, List.foldl_nil, Bool.false_eq_true, if_false]

/-- The next lexeme is read once one has been read before. -/
theorem read_eq {source : List Char} {comments : List Comment} {later : List Lexeme}
    (hreaches : state.lexer.Reaches source comments later) (hbegun : state.lexer.isFirst = false)
    (hne : later ≠ []) (hclear : state.mode.singleAngles = true ∨
      ∀ lexeme ∈ later.head?, lexeme.token.isAngle = false) :
    ∃ lexer, state.read = (later.head?, { state with lexer }) ∧ lexer.isFirst = false ∧
      lexer.Reaches source comments later.tail := by
  obtain ⟨lexeme, lexemes, rfl⟩ := List.exists_cons_of_ne_nil hne
  have hread := read_cons hreaches (hclear.imp_right fun hangle => hangle lexeme rfl)
  rwa [hbegun, Bool.false_or] at hread

/-- At the end of the text all its comments are put down, and none are left. -/
theorem read_nil {source : List Char} {comments : List Comment}
    (hreaches : state.lexer.Reaches source comments []) :
    ∃ lexer, lexer.isFirst = false ∧ lexer.Reaches source [] [] ∧ state.read = (none, { state with
      lexer, journal := { state.journal with comments := state.journal.comments ++ comments } }) := by
  obtain ⟨hlexeme, hfaults, hend, hfirst, hcomments, hreached⟩ :=
    Lexer.next_of_reaches_nil state.mode hreaches
  refine ⟨{ (state.lexer.next state.mode).lexer with comments := [] }, hfirst, hreached, ?_⟩
  simp only [State.read, hlexeme, hfaults, hend, List.foldl_nil, if_true, State.putDownComments,
    hcomments]

theorem fetch_of_read {lexeme : Option Lexeme} {after : State} (hcurrent : state.current = none)
    (hahead : state.ahead = none) (hread : state.read = (lexeme, after)) :
    state.fetch = (lexeme, { after with current := lexeme }) := by
  simp only [State.fetch, hcurrent, hahead, hread]

namespace Shows

theorem inContext (h : state.Shows view) (context : Context) :
    State.Shows { state with context } (view.inContext context) :=
  { h with context := rfl }

theorem inJournal (h : state.Shows view) {journal : Journal}
    (hjournal : journal = view.frame.journal) :
    State.Shows { state with context := view.frame.context, journal } view :=
  { h with context := rfl, journal := hjournal }

theorem mode (h : state.Shows view) : state.mode = ⟨view.frame.singleAngles⟩ := by
  rw [State.mode, h.context]
  rfl

/-- Once the current lexeme has been read it is at hand, and the view is the same. -/
theorem fetch (h : state.Shows view) (hclear : view.Clear) :
    state.fetch.1 = view.rest.head? ∧ state.fetch.2.current = view.rest.head? ∧
      state.fetch.2.Shows view := by
  obtain ⟨later, hrest, hreaches⟩ := h.rest
  unfold State.fetch
  -- the first lexeme of the view is at hand, or kept from a look ahead, or still in the text
  cases hcurrent : state.current with
  | some lexeme =>
    simp only [hcurrent, Option.toList_some, List.cons_append] at hrest
    exact ⟨by rw [hrest]; rfl, by rw [hrest]; exact hcurrent, h⟩
  | none =>
    cases hahead : state.ahead with
    | some lexeme =>
      simp only [hcurrent, hahead, Option.toList_none, Option.toList_some, List.nil_append,
        List.cons_append] at hrest
      refine ⟨by rw [hrest]; rfl, by rw [hrest]; rfl, { h with rest := ⟨later, ?_, hreaches⟩ }⟩
      rw [hrest]
      rfl
    | none =>
      simp only [hcurrent, hahead, Option.toList_none, List.nil_append] at hrest
      subst hrest
      obtain ⟨lexer, hread, hfirst, hafter⟩ :=
        read_eq hreaches h.begun hclear.rest (by rw [h.mode]; exact hclear.angles)
      rw [hread]
      refine ⟨rfl, rfl, { h with rest := ⟨view.rest.tail, ?_, hafter⟩, begun := hfirst }⟩
      rw [hahead]
      cases view.rest <;> rfl

/-- Once the lexeme behind the current one has been read the view is the same. -/
theorem fetchAhead (h : state.Shows view) (hclear : view.Clear)
    (hbehind : View.Clear { view with rest := view.rest.tail }) :
    state.fetchAhead.1 = view.rest.tail.head? ∧ state.fetchAhead.2.Shows view := by
  obtain ⟨hfetch, hcurrent, hshows⟩ := h.fetch hclear
  unfold State.fetchAhead
  rw [show state.fetch = (view.rest.head?, state.fetch.2) from Prod.ext hfetch rfl]
  obtain ⟨later, hrest, hreaches⟩ := hshows.rest
  rw [hcurrent] at hrest
  cases hview : view.rest with
  | nil => exact ⟨rfl, hshows⟩
  | cons lexeme lexemes =>
    rw [hview] at hrest
    obtain rfl : lexemes = state.fetch.2.ahead.toList ++ later := (List.cons.inj hrest).2
    simp only [List.head?_cons, List.tail_cons]
    cases hahead : state.fetch.2.ahead with
    | some second => exact ⟨rfl, hshows⟩
    | none =>
      rw [hview, hahead] at hbehind
      obtain ⟨lexer, hread, hfirst, hafter⟩ :=
        read_eq hreaches hshows.begun hbehind.rest (by rw [hshows.mode]; exact hbehind.angles)
      rw [hread]
      refine ⟨rfl, { hshows with rest := ⟨later.tail, ?_, hafter⟩, begun := hfirst }⟩
      rw [hcurrent, hview, hahead]
      cases later <;> rfl

end Shows

end State

/-! ## Runs and readings -/

namespace Parser

variable {α β : Type} {view after : View} {fails : Prop}

/-- An outcome in order: what is given and left satisfies `post`, or the parser fails, as it may only
if `fails` holds. Nothing has been noted down. -/
def Meets (view : View) (fails : Prop) (post : α → View → Prop) :
    EStateM.Result Fault State α → Prop
  | .ok value result => ∃ after, result.Shows after ∧ after.frame.journal = view.frame.journal ∧
      post value after
  | .error _ result => fails ∧ result.journal = view.frame.journal

/-- From every state that shows a view the outcome of a parser is in order. -/
def Runs (parser : Parser α) (view : View) (fails : Prop) (post : α → View → Prop) : Prop :=
  ∀ state : State, state.Shows view → Meets view fails post (parser state)

/-- A parser gives a value and leaves a view. -/
def Reads (parser : Parser α) (view : View) (value : α) (after : View) : Prop :=
  Runs parser view False fun given left => given = value ∧ left = after

namespace Runs

variable {parser : Parser α} {next : α → Parser β} {post post' : α → View → Prop}

theorem mono (h : Runs parser view fails post)
    (himp : ∀ value after, post value after → post' value after) :
    Runs parser view fails post' := by
  intro state hshows
  have hrun := h state hshows
  cases hresult : parser state with
  | ok value result =>
    rw [hresult] at hrun
    obtain ⟨after, hafter, hjournal, hpost⟩ := hrun
    exact ⟨after, hafter, hjournal, himp _ _ hpost⟩
  | error fault result =>
    rw [hresult] at hrun
    exact hrun

theorem mono_fails {mayFail : Prop} (h : Runs parser view mayFail post) (himp : mayFail → fails) :
    Runs parser view fails post := by
  intro state hshows
  have hrun := h state hshows
  cases hresult : parser state with
  | ok value result =>
    rw [hresult] at hrun
    exact hrun
  | error fault result =>
    rw [hresult] at hrun
    exact hrun.imp_left himp

/-- Where a parser cannot fail it is of no account whether it may. -/
theorem weaken (h : Runs parser view False post) : Runs parser view fails post :=
  h.mono_fails False.elim

theorem ite {c : Prop} [Decidable c] {other : Parser α} (hyes : c → Runs parser view fails post)
    (hno : ¬c → Runs other view fails post) :
    Runs (if c then parser else other) view fails post := by
  split
  · exact hyes ‹_›
  · exact hno ‹_›

theorem pure {value : α} (h : post value view) : Runs (Pure.pure value) view fails post :=
  fun _ hshows => ⟨view, hshows, rfl, h⟩

/-- What is given at once is what is given. -/
theorem done {value : α} :
    Runs (Pure.pure value) view fails fun given left => given = value ∧ left = view :=
  pure ⟨rfl, rfl⟩

theorem bind {post : β → View → Prop}
    (h : Runs parser view fails fun value after => Runs (next value) after fails post) :
    Runs (parser >>= next) view fails post := by
  intro state hshows
  have hrun := h state hshows
  show Meets view fails post (EStateM.bind parser next state)
  rw [EStateM.bind]
  cases hresult : parser state with
  | ok value result =>
    rw [hresult] at hrun
    obtain ⟨after, hafter, hjournal, hnext⟩ := hrun
    have hnextRun := hnext result hafter
    simp only
    cases hnextResult : next value result with
    | ok value result =>
      rw [hnextResult] at hnextRun
      obtain ⟨last, hlast, hlastJournal, hpost⟩ := hnextRun
      exact ⟨last, hlast, hlastJournal.trans hjournal, hpost⟩
    | error fault result =>
      rw [hnextResult] at hnextRun
      exact ⟨hnextRun.1, hnextRun.2.trans hjournal⟩
  | error fault result =>
    rw [hresult] at hrun
    exact hrun

end Runs

theorem throw_runs {fault : Fault} {post : α → View → Prop} :
    Runs (throw fault) view True post :=
  fun _ hshows => ⟨trivial, hshows.journal⟩

/-- What depends on a state is read with any state that shows the view. -/
theorem get_runs {next : State → Parser β} {post : β → View → Prop}
    (h : ∀ state : State, state.Shows view → Runs (next state) view fails post) :
    Runs (get >>= next) view fails post :=
  fun state hshows => h state hshows state hshows

namespace Reads

variable {parser : Parser α} {value : α} {next : α → Parser β}

theorem runs {post : α → View → Prop} (h : Reads parser view value after)
    (hpost : post value after) : Runs parser view fails post :=
  (h.mono (by rintro _ _ ⟨rfl, rfl⟩; exact hpost)).weaken

/-- What follows a parser runs from what that leaves. -/
theorem step {post : β → View → Prop} (h : Reads parser view value after)
    (hnext : Runs (next value) after fails post) : Runs (parser >>= next) view fails post :=
  .bind (h.runs hnext)

theorem yes {test : Parser Bool} {first second : Parser β} {post : β → View → Prop}
    (h : Reads test view true after) (hfirst : Runs first after fails post) :
    Runs (test >>= fun holds => if holds = true then first else second) view fails post :=
  h.step hfirst

theorem no {test : Parser Bool} {first second : Parser β} {post : β → View → Prop}
    (h : Reads test view false after) (hsecond : Runs second after fails post) :
    Runs (test >>= fun holds => if holds = true then first else second) view fails post :=
  h.step (by simpa using hsecond)

theorem map {f : α → β} (h : Reads parser view value after) :
    Reads (do return f (← parser)) view (f value) after :=
  h.step .done

theorem and_no {first second : Parser Bool} (h : Reads first view false after) :
    Reads (first <&&> second) view false after :=
  Runs.bind (h.runs (Runs.pure ⟨rfl, rfl⟩))

theorem and_yes {first second : Parser Bool} {last : View} {holds : Bool}
    (h : Reads first view true after) (hsecond : Reads second after holds last) :
    Reads (first <&&> second) view holds last :=
  Runs.bind (h.runs hsecond)

theorem or_no {first second : Parser Bool} {last : View} {holds : Bool}
    (h : Reads first view false after) (hsecond : Reads second after holds last) :
    Reads (first <||> second) view holds last :=
  Runs.bind (h.runs hsecond)

end Reads

/-! ## Lexemes at hand -/

variable {lexeme second : Lexeme} {rest : List Lexeme} {previous : Span} {frame : Frame}
  {text : String} {texts : List String}

theorem lexeme_reads (h : view.Clear) : Reads Parser.lexeme view view.rest.head? view := by
  intro state hshows
  obtain ⟨hfetch, -, hafter⟩ := hshows.fetch h
  exact ⟨view, hafter, rfl, hfetch, rfl⟩

theorem token_reads (h : view.Clear) : Reads token view (view.rest.head?.map (·.token)) view :=
  (lexeme_reads h).map

theorem lexemeAhead_reads (h : view.Clear)
    (hbehind : View.Clear { view with rest := view.rest.tail }) :
    Reads lexemeAhead view view.rest.tail.head? view := by
  intro state hshows
  obtain ⟨hfetch, hafter⟩ := hshows.fetchAhead h hbehind
  exact ⟨view, hafter, rfl, hfetch, rfl⟩

theorem bump_reads (h : View.Clear ⟨lexeme :: rest, previous, frame⟩) :
    Reads bump ⟨lexeme :: rest, previous, frame⟩ () ⟨rest, lexeme.span, frame⟩ := by
  intro state hshows
  obtain ⟨hfetch, hcurrent, hafter⟩ := hshows.fetch h
  have hbump : bump state = .ok ()
      { state.fetch.2 with current := none, previous := lexeme.span } := by
    have hlexeme : Parser.lexeme state = .ok (some lexeme) state.fetch.2 :=
      congrArg (EStateM.Result.ok · state.fetch.2) hfetch
    simp only [bump, bind, EStateM.bind, hlexeme]
    rfl
  obtain ⟨later, hrest, hreaches⟩ := hafter.rest
  rw [hcurrent] at hrest
  rw [hbump]
  refine ⟨⟨rest, lexeme.span, frame⟩, { hafter with
    rest := ⟨later, (List.cons.inj hrest).2, hreaches⟩
    previous := rfl
    plain := fun later hlater => hafter.plain later (List.mem_cons_of_mem _ hlater)
    room := ?_ }, rfl, rfl, rfl⟩
  have hroom : (lexeme :: rest).length + 2 ≤ frame.limit := hafter.room
  rw [List.length_cons] at hroom
  show rest.length + 2 ≤ frame.limit
  omega

theorem at?_reads (h : view.Clear) : Reads (at? text) view (view.spells text) view := by
  have hreads := (token_reads h).map (f := fun token => token.any (·.spells text))
  rwa [Option.any_map] at hreads

/-- The current token is a certain word or sign. -/
theorem isAt (h : view.Clear) (hspells : view.spells text = true) :
    Reads (at? text) view true view := hspells ▸ at?_reads h

theorem notAt (h : view.Clear) (hspells : view.spells text = false) :
    Reads (at? text) view false view := hspells ▸ at?_reads h

theorem atAny_reads (h : view.Clear) : Reads (atAny texts) view (texts.any view.spells) view := by
  have hreads := (token_reads h).map (f := fun token => token.any fun token =>
    texts.any token.spells)
  rw [Option.any_map] at hreads
  have hany : view.rest.head?.any (fun lexeme => texts.any lexeme.token.spells) =
      texts.any view.spells := by
    unfold View.spells
    cases view.rest.head? <;> simp
  rwa [← hany]

theorem notAtAny (h : view.Clear) (hspells : texts.any view.spells = false) :
    Reads (atAny texts) view false view := hspells ▸ atAny_reads h

theorem isAtAny (h : view.Clear) (hspells : texts.any view.spells = true) :
    Reads (atAny texts) view true view := hspells ▸ atAny_reads h

theorem eat_yes (h : View.Clear ⟨lexeme :: rest, previous, frame⟩)
    (hspells : lexeme.token.spells text = true) :
    Reads (eat text) ⟨lexeme :: rest, previous, frame⟩ true ⟨rest, lexeme.span, frame⟩ :=
  (isAt h hspells).yes <| (bump_reads h).step .done

theorem eat_no (h : view.Clear) (hspells : view.spells text = false) :
    Reads (eat text) view false view :=
  (notAt h hspells).no .done

/-- Behind the current lexeme lies a certain token. -/
theorem tokenAhead_reads (h : View.Clear ⟨lexeme :: rest, previous, frame⟩)
    (hbehind : View.Clear ⟨rest, previous, frame⟩) :
    Reads tokenAhead ⟨lexeme :: rest, previous, frame⟩ (rest.head?.map (·.token))
      ⟨lexeme :: rest, previous, frame⟩ :=
  (lexemeAhead_reads h hbehind).map

theorem ahead?_reads (h : View.Clear ⟨lexeme :: rest, previous, frame⟩)
    (hbehind : View.Clear ⟨rest, previous, frame⟩) :
    Reads (ahead? text) ⟨lexeme :: rest, previous, frame⟩
      (View.spells ⟨rest, previous, frame⟩ text) ⟨lexeme :: rest, previous, frame⟩ := by
  have hreads := (tokenAhead_reads h hbehind).map (f := fun token => token.any (·.spells text))
  rwa [Option.any_map] at hreads

theorem notAhead (h : View.Clear ⟨lexeme :: rest, previous, frame⟩)
    (hbehind : View.Clear ⟨rest, previous, frame⟩)
    (hspells : View.spells ⟨rest, previous, frame⟩ text = false) :
    Reads (ahead? text) ⟨lexeme :: rest, previous, frame⟩ false
      ⟨lexeme :: rest, previous, frame⟩ := hspells ▸ ahead?_reads h hbehind

theorem wordAhead_reads (h : View.Clear ⟨lexeme :: second :: rest, previous, frame⟩)
    (hbehind : View.Clear ⟨second :: rest, previous, frame⟩) :
    Reads wordAhead ⟨lexeme :: second :: rest, previous, frame⟩ second.token.word?.isSome
      ⟨lexeme :: second :: rest, previous, frame⟩ :=
  (tokenAhead_reads h hbehind).map

theorem breakAhead_reads (h : View.Clear ⟨lexeme :: second :: rest, previous, frame⟩)
    (hbehind : View.Clear ⟨second :: rest, previous, frame⟩) :
    Reads breakAhead ⟨lexeme :: second :: rest, previous, frame⟩ second.afterBreak
      ⟨lexeme :: second :: rest, previous, frame⟩ :=
  (lexemeAhead_reads h hbehind).map

theorem afterBreak_reads (h : View.Clear ⟨lexeme :: rest, previous, frame⟩) :
    Reads afterBreak ⟨lexeme :: rest, previous, frame⟩ lexeme.afterBreak
      ⟨lexeme :: rest, previous, frame⟩ :=
  (lexeme_reads h).map

theorem atWord_reads (h : View.Clear ⟨lexeme :: rest, previous, frame⟩) :
    Reads atWord ⟨lexeme :: rest, previous, frame⟩ lexeme.token.word?.isSome
      ⟨lexeme :: rest, previous, frame⟩ :=
  (token_reads h).map

theorem atName_reads (h : View.Clear ⟨lexeme :: rest, previous, frame⟩) :
    Reads atName ⟨lexeme :: rest, previous, frame⟩ lexeme.token.isBindable
      ⟨lexeme :: rest, previous, frame⟩ :=
  (token_reads h).map

/-! ## Places -/

theorem previousStop_reads : Reads previousStop view view.previous.stop view :=
  fun _ hshows => ⟨view, hshows, rfl, congrArg Span.stop hshows.previous, rfl⟩

theorem spanFrom_reads (start : Nat) :
    Reads (spanFrom start) view
      ⟨min start view.previous.stop, max start view.previous.stop⟩ view :=
  previousStop_reads.map (f := fun stop => (⟨min start stop, max start stop⟩ : Span))

theorem here_reads (h : View.Clear ⟨lexeme :: rest, previous, frame⟩) :
    Reads here ⟨lexeme :: rest, previous, frame⟩ lexeme.span
      ⟨lexeme :: rest, previous, frame⟩ :=
  (lexeme_reads h).step .done

theorem position_reads (h : View.Clear ⟨lexeme :: rest, previous, frame⟩) :
    Reads position ⟨lexeme :: rest, previous, frame⟩ lexeme.span.start
      ⟨lexeme :: rest, previous, frame⟩ :=
  (lexeme_reads h).step .done

/-! ## Tokens that must be there -/

/-- No token of a view is malformed. -/
theorem token_sound (h : view.Clear) {next : Option Token → Parser β} {post : β → View → Prop}
    (hnext : (∀ fault, view.rest.head?.map (·.token) ≠ some (.malformed fault)) →
      Runs (next (view.rest.head?.map (·.token))) view fails post) :
    Runs (token >>= next) view fails post := by
  refine fun _ hshows => (token_reads h).step (hnext ?_) _ hshows
  intro fault hhead
  obtain ⟨lexeme, hlexeme, htoken⟩ := Option.map_eq_some_iff.mp hhead
  have hplain := hshows.plain lexeme (List.mem_of_mem_head? hlexeme)
  rw [htoken] at hplain
  cases hplain

theorem checkToken_reads (h : view.Clear) : Reads checkToken view () view := by
  refine token_sound h fun hsound => ?_
  split
  · exact absurd ‹_› (hsound _)
  · exact .done

theorem needToken_reads (h : View.Clear ⟨lexeme :: rest, previous, frame⟩) :
    Reads needToken ⟨lexeme :: rest, previous, frame⟩ lexeme.token
      ⟨lexeme :: rest, previous, frame⟩ :=
  (checkToken_reads h).step <| (token_reads h).step .done

theorem atEnd_reads (h : view.Clear) : Reads atEnd view view.rest.head?.isNone view := by
  have hreads := (token_reads h).map (f := Option.isNone)
  rw [Option.isNone_map] at hreads
  exact (checkToken_reads h).step hreads

/-- A fault that is noted down where nothing is noted leaves no trace. -/
theorem noteAt_reads (h : view.frame.context.silent = true) (place : Nat) (cause : Cause) :
    Reads (noteAt place cause) view () view := by
  refine get_runs fun state hshows => ?_
  rw [hshows.context, h]
  exact Runs.done

/-- What may be noted down where nothing is noted leaves no trace. -/
theorem noteIf_runs {c : Prop} [Decidable c] {next : Unit → Parser β} {post : β → View → Prop}
    (h : view.frame.context.silent = true) {place : Nat} {cause : Cause}
    (hnext : Runs (next ()) view fails post) :
    Runs (if c then noteAt place cause >>= next else next ()) view fails post :=
  .ite (fun _ => (noteAt_reads h place cause).step hnext) fun _ => hnext

/-! ## Failures -/

theorem failAt_runs {post : α → View → Prop} (h : view.Clear) (place : Nat) (cause : Cause) :
    Runs (failAt place cause) view True post := by
  refine token_sound h fun hsound => ?_
  split
  · exact absurd ‹_› (hsound _)
  · exact .bind (.pure throw_runs)

theorem failHere_runs {post : α → View → Prop}
    (h : View.Clear ⟨lexeme :: rest, previous, frame⟩) (cause : Cause) :
    Runs (failHere cause) ⟨lexeme :: rest, previous, frame⟩ True post :=
  (here_reads h).step (failAt_runs h _ cause)

theorem shownToken_reads (h : view.Clear) :
    Reads shownToken view (((view.rest.head?.map (·.token)).map (·.shown)).getD "<eof>") view :=
  (token_reads h).map

theorem unexpected_runs {post : α → View → Prop}
    (h : View.Clear ⟨lexeme :: rest, previous, frame⟩) (options : String) :
    Runs (unexpected options) ⟨lexeme :: rest, previous, frame⟩ True post :=
  (shownToken_reads h).step (failHere_runs h _)

theorem expect_reads (h : View.Clear ⟨lexeme :: rest, previous, frame⟩)
    (hspells : lexeme.token.spells text = true) :
    Reads (expect text) ⟨lexeme :: rest, previous, frame⟩ () ⟨rest, lexeme.span, frame⟩ :=
  (eat_yes h hspells).yes .done

theorem expect_fails {post : Unit → View → Prop} (h : View.Clear ⟨lexeme :: rest, previous, frame⟩)
    (hspells : lexeme.token.spells text = false) :
    Runs (expect text) ⟨lexeme :: rest, previous, frame⟩ True post :=
  (eat_no h hspells).no <| (shownToken_reads h).step (failHere_runs h _)

theorem word_reads (h : View.Clear ⟨lexeme :: rest, previous, frame⟩)
    (hword : lexeme.token.word? = some text) :
    Reads word ⟨lexeme :: rest, previous, frame⟩ text ⟨rest, lexeme.span, frame⟩ := by
  refine (needToken_reads h).step ?_
  rw [hword]
  exact (bump_reads h).step .done

theorem word_fails {post : String → View → Prop} (h : View.Clear ⟨lexeme :: rest, previous, frame⟩)
    (hword : lexeme.token.word? = none) :
    Runs word ⟨lexeme :: rest, previous, frame⟩ True post := by
  refine (needToken_reads h).step ?_
  rw [hword]
  exact failHere_runs h _

theorem expectSemicolon_reads (h : View.Clear ⟨lexeme :: rest, previous, frame⟩)
    (hspells : lexeme.token.spells ";" = true) :
    Reads expectSemicolon ⟨lexeme :: rest, previous, frame⟩ () ⟨rest, lexeme.span, frame⟩ :=
  Reads.yes ((eat_yes h hspells).yes .done) .done

/-! ## Contexts -/

theorem within_runs {parser : Parser α} {change : Context → Context} {post : α → View → Prop}
    (h : Runs parser (view.inContext (change view.frame.context)) fails fun value after =>
      post value (after.inContext view.frame.context)) :
    Runs (within change parser) view fails post := by
  intro state hshows
  have hrun := h _ (hshows.inContext (change view.frame.context))
  unfold within
  rw [hshows.context]
  cases hresult : parser { state with context := change view.frame.context } with
  | ok value result =>
    rw [hresult] at hrun
    obtain ⟨after, hafter, hjournal, hpost⟩ := hrun
    exact ⟨after.inContext view.frame.context, hafter.inContext _, hjournal, hpost⟩
  | error fault result =>
    rw [hresult] at hrun
    exact hrun

/-- No view tells which brackets are open, as long as none of them is a template's. -/
theorem forgettingBrackets_runs {parser : Parser α} {post : α → View → Prop}
    (h : Runs parser view fails post) : Runs (forgettingBrackets parser) view fails post := by
  intro state hshows
  obtain ⟨later, hrest, hreaches⟩ := hshows.rest
  have hplain := hreaches.plain
  unfold forgettingBrackets
  simp only
  have hrun := h { state with lexer := { state.lexer with
      brackets := state.lexer.brackets.drop (state.lexer.brackets.length - 1) } }
    { hshows with rest := ⟨later, hrest, ⟨hreaches.text,
      fun bracket hmem => hplain bracket (List.mem_of_mem_drop hmem)⟩⟩ }
  split
  · rename_i value result hresult
    rw [hresult] at hrun
    obtain ⟨after, hafter, hjournal, hpost⟩ := hrun
    obtain ⟨later, hrest, hreaches⟩ := hafter.rest
    exact ⟨after, { hafter with rest := ⟨later, hrest, ⟨hreaches.text, hplain⟩⟩ }, hjournal, hpost⟩
  · rename_i fault result hresult
    rw [hresult] at hrun
    exact hrun

/-- What the lexer holds an operand to be is of no account. -/
theorem operandAllowed_reads (operandAllowed : Bool) :
    Reads (modify fun state => { state with lexer := { state.lexer with operandAllowed } }) view ()
      view := by
  intro state hshows
  obtain ⟨later, hrest, hreaches⟩ := hshows.rest
  exact ⟨view, { hshows with rest := ⟨later, hrest, ⟨hreaches.text, hreaches.plain⟩⟩ }, rfl, rfl,
    rfl⟩

/-- Where an arrow function can begin is part of the frame. -/
theorem arrowStart_reads (arrowStart : Option Nat) :
    Reads (modify fun state => { state with arrowStart }) view ()
      { view with frame := { view.frame with arrowStart } } :=
  fun _ hshows => ⟨{ view with frame := { view.frame with arrowStart } },
    { hshows with arrowStart := rfl }, rfl, rfl, rfl⟩

/-! ## Trials -/

/-- What does not fail has nothing to be caught. -/
theorem tryCatch_runs {parser : Parser α} {handler : Fault → Parser α} {post : α → View → Prop}
    (h : Runs parser view False post) : Runs (tryCatch parser handler) view False post := by
  intro state hshows
  have hrun := h state hshows
  show Meets view False post (EStateM.tryCatch parser handler state)
  delta EStateM.tryCatch
  cases hresult : parser state with
  | ok value result =>
    rw [hresult] at hrun
    exact hrun
  | error fault result =>
    rw [hresult] at hrun
    exact hrun.1.elim

/-- A trial gives what its parser gives, or nothing, and then goes on where it began. -/
theorem attempt_runs {parser : Parser (Option α)} {mayFail : Prop} {post : Option α → View → Prop}
    (h : Runs parser view.trying mayFail fun value after =>
      (value = none → post none view) ∧
        ∀ given, value = some given → post (some given) (after.tried view))
    (hfails : mayFail → post none view) : Runs (attempt parser) view fails post := by
  intro state hshows
  have hrun := h _ (hshows.inContext { view.frame.context with silent := true })
  unfold attempt
  rw [hshows.context]
  cases hresult : parser { state with context := { view.frame.context with silent := true } } with
  | ok value result =>
    rw [hresult] at hrun
    obtain ⟨after, hafter, hjournal, hnone, hsome⟩ := hrun
    cases value with
    | some given =>
      refine ⟨after.tried view, ?_, hjournal, hsome given rfl⟩
      have hshown := hafter.inContext { after.frame.context with
        silent := view.frame.context.silent }
      rw [← hafter.context] at hshown
      rwa [View.tried, ← hafter.context]
    | none => exact ⟨view, hshows.inJournal (hafter.journal.trans hjournal), rfl, hnone rfl⟩
  | error fault result =>
    rw [hresult] at hrun
    exact ⟨view, hshows.inJournal hrun.2, rfl, hfails hrun.1⟩

/-- A trial that is sure to give nothing. -/
theorem attempt_none {parser : Parser (Option α)}
    (h : Runs parser view.trying True fun value _ => value = none) :
    Reads (attempt parser) view none view :=
  attempt_runs (h.mono fun _ _ hvalue => ⟨fun _ => ⟨rfl, rfl⟩, fun _ hgiven => by
    rw [hvalue] at hgiven; cases hgiven⟩) fun _ => ⟨rfl, rfl⟩

/-- A trial that is sure to give something. -/
theorem attempt_some {parser : Parser (Option α)} {value : α}
    (h : Reads parser view.trying (some value) after) :
    Reads (attempt parser) view (some value) (after.tried view) :=
  attempt_runs (h.mono (by
    rintro _ _ ⟨rfl, rfl⟩
    refine ⟨fun hnone => (Option.some_ne_none _ hnone).elim, fun given hgiven => ?_⟩
    exact ⟨hgiven.symm, rfl⟩)) False.elim

theorem lookAhead_runs {parser : Parser α} {post : α → View → Prop}
    (h : Runs parser view.trying fails fun value _ => post value view) :
    Runs (lookAhead parser) view fails post := by
  intro state hshows
  have hrun := h _ (hshows.inContext { view.frame.context with silent := true })
  unfold lookAhead
  rw [hshows.context]
  cases hresult : parser { state with context := { view.frame.context with silent := true } } with
  | ok value result =>
    rw [hresult] at hrun
    obtain ⟨after, hafter, hjournal, hpost⟩ := hrun
    exact ⟨view, hshows.inJournal (hafter.journal.trans hjournal), rfl, hpost⟩
  | error fault result =>
    rw [hresult] at hrun
    exact hrun

/-! ## Repetitions -/

/-- A repetition can be gone through more often than there are lexemes to come. -/
theorem iterate_runs {step : α → Parser (Option α)} {start : α} {post : α → View → Prop}
    (h : ∀ limit, view.rest.length + 2 ≤ limit →
      Runs (iterateUpTo step limit start) view fails post) :
    Runs (iterate step start) view fails post :=
  get_runs fun _ hshows => h _ (by rw [hshows.limit]; exact hshows.room)

/-- A repetition goes on with what a step gives, and ends where that is nothing. -/
theorem iterateUpTo_runs {step : α → Parser (Option α)} {limit : Nat} {value : α}
    {post : α → View → Prop} (hlimit : 0 < limit)
    (h : Runs (step value) view fails fun next after =>
      (next = none → post value after) ∧
        ∀ given, next = some given → Runs (iterateUpTo step (limit - 1) given) after fails post) :
    Runs (iterateUpTo step limit value) view fails post := by
  obtain ⟨limit, rfl⟩ : ∃ n, limit = n + 1 := ⟨limit - 1, by omega⟩
  rw [iterateUpTo]
  refine .bind (h.mono fun next after ⟨hnone, hsome⟩ => ?_)
  cases next with
  | some given => exact hsome given rfl
  | none => exact .pure (hnone rfl)

/-- One more step of a repetition. -/
theorem iterateUpTo_next {step : α → Parser (Option α)} {limit : Nat} {value next : α}
    {post : α → View → Prop} (hlimit : 0 < limit) (h : Reads (step value) view (some next) after)
    (hnext : Runs (iterateUpTo step (limit - 1) next) after fails post) :
    Runs (iterateUpTo step limit value) view fails post :=
  iterateUpTo_runs hlimit (h.runs ⟨fun hnone => (Option.some_ne_none _ hnone).elim,
    fun _ hgiven => Option.some.inj hgiven ▸ hnext⟩)

/-- The end of a repetition. -/
theorem iterateUpTo_stop {step : α → Parser (Option α)} {limit : Nat} {value : α}
    {post : α → View → Prop} (hlimit : 0 < limit) (h : Reads (step value) view none after)
    (hpost : post value after) : Runs (iterateUpTo step limit value) view fails post :=
  iterateUpTo_runs hlimit (h.runs ⟨fun _ => hpost,
    fun _ hgiven => (Option.some_ne_none _ hgiven.symm).elim⟩)

/-! ## The end of a text -/

/-- Behind the last lexeme no token is found. The comments of the text are put down, and none are
left. -/
theorem token_at_end {state : State} {source : List Char} {comments : List Comment}
    (hcurrent : state.current = none) (hahead : state.ahead = none)
    (hreaches : state.lexer.Reaches source comments []) :
    ∃ lexer, lexer.isFirst = false ∧ lexer.Reaches source [] [] ∧ token state = .ok none { state with
      lexer, journal := { state.journal with comments := state.journal.comments ++ comments } } := by
  obtain ⟨lexer, hfirst, hreached, hread⟩ := State.read_nil hreaches
  refine ⟨lexer, hfirst, hreached, ?_⟩
  have hfetch := State.fetch_of_read hcurrent hahead hread
  have hlexeme : Parser.lexeme state = .ok none { state with
      lexer, journal := { state.journal with comments := state.journal.comments ++ comments } } := by
    rw [Parser.lexeme, hfetch, hcurrent.symm]
  simp only [token, bind, EStateM.bind, hlexeme]
  rfl

/-- A parser gives something where the text ends, and leaves such a journal. -/
def Ends (parser : Parser α) (view : View) (journal : Journal) (post : α → Prop) : Prop :=
  ∀ state : State, state.Shows view →
    ∃ value result, parser state = .ok value result ∧ result.journal = journal ∧ post value

section

variable {parser : Parser α} {next : α → Parser β} {journal : Journal} {step : α → Parser (Option α)}
  {limit : Nat} {value : α}

theorem token_ends : Ends token ⟨[], previous, frame⟩
    { frame.journal with comments := frame.journal.comments ++ frame.comments } (· = none) := by
  intro state hshows
  obtain ⟨later, hrest, hreaches⟩ := hshows.rest
  obtain ⟨hcurrent, hbehind⟩ := List.append_eq_nil_iff.mp hrest.symm
  obtain ⟨hahead, rfl⟩ := List.append_eq_nil_iff.mp hbehind
  obtain ⟨lexer, -, -, htoken⟩ := token_at_end (Option.toList_eq_nil_iff.mp hcurrent)
    (Option.toList_eq_nil_iff.mp hahead) hreaches
  refine ⟨none, _, htoken, ?_, rfl⟩
  rw [hshows.journal]

namespace Ends

theorem mono {post post' : α → Prop} (h : Ends parser view journal post)
    (himp : ∀ value, post value → post' value) : Ends parser view journal post' := by
  intro state hshows
  obtain ⟨value, result, hresult, hjournal, hpost⟩ := h state hshows
  exact ⟨value, result, hresult, hjournal, himp value hpost⟩

theorem get_bind {next : State → Parser β} {post : β → Prop}
    (h : ∀ state : State, state.Shows view → Ends (next state) view journal post) :
    Ends (get >>= next) view journal post :=
  fun state hshows => h state hshows state hshows

/-- What follows a parser that does not end the text does. -/
theorem of_runs {post : β → Prop}
    (h : Runs parser view False fun value after => Ends (next value) after journal post) :
    Ends (parser >>= next) view journal post := by
  intro state hshows
  have hrun := h state hshows
  show ∃ value result, EStateM.bind parser next state = .ok value result ∧ _
  rw [EStateM.bind]
  cases hresult : parser state with
  | ok value result =>
    rw [hresult] at hrun
    obtain ⟨after, hafter, -, hnext⟩ := hrun
    exact hnext result hafter
  | error fault result =>
    rw [hresult] at hrun
    exact hrun.1.elim

/-- What follows a parser that ends the text reads nothing. -/
theorem bind_pure {post : α → Prop} {post' : β → Prop} (h : Ends parser view journal post)
    (hnext : ∀ value, post value → ∃ given, next value = pure given ∧ post' given) :
    Ends (parser >>= next) view journal post' := by
  intro state hshows
  obtain ⟨value, result, hresult, hjournal, hpost⟩ := h state hshows
  obtain ⟨given, hgiven, hpost⟩ := hnext value hpost
  refine ⟨given, result, ?_, hjournal, hpost⟩
  show EStateM.bind parser next state = _
  simp only [EStateM.bind, hresult, hgiven]
  rfl

theorem iterate {post : α → Prop}
    (h : ∀ limit, view.rest.length + 2 ≤ limit →
      Ends (iterateUpTo step limit value) view journal post) :
    Ends (iterate step value) view journal post :=
  get_bind fun _ hshows => h _ (by rw [hshows.limit]; exact hshows.room)

/-- A repetition that goes on up to the end of the text. -/
theorem iterateUpTo_next {post : α → Prop} (hlimit : 0 < limit)
    (h : Runs (step value) view False fun next after => ∃ given, next = some given ∧
      Ends (iterateUpTo step (limit - 1) given) after journal post) :
    Ends (iterateUpTo step limit value) view journal post := by
  obtain ⟨limit, rfl⟩ : ∃ n, limit = n + 1 := ⟨limit - 1, by omega⟩
  rw [iterateUpTo]
  refine of_runs <| h.mono ?_
  rintro _ after ⟨given, rfl, hgiven⟩
  exact hgiven

theorem iterateUpTo_stop {post : α → Prop} (hlimit : 0 < limit)
    (h : Ends (step value) view journal (· = none)) (hpost : post value) :
    Ends (iterateUpTo step limit value) view journal post := by
  obtain ⟨limit, rfl⟩ : ∃ n, limit = n + 1 := ⟨limit - 1, by omega⟩
  rw [iterateUpTo]
  refine h.bind_pure ?_
  rintro _ rfl
  exact ⟨value, rfl, hpost⟩

end Ends

end

end Parser

end Declutter.Syntax
