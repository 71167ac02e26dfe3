import Declutter.Proofs.RoundTrip.Lookahead

/-!
# Reading types

A type that is spelled is read as itself.
-/

namespace Declutter.Syntax

open Declutter.Syntax.Parser

variable {source : List Char} {bound : Nat} {g : Grammar}

/-! ## What is read -/

/-- Something that is read, between the comments at hand where it begins and those that are left where
it ends. -/
structure Site (α : Type) where
  item : α
  front : List Comment
  behind : List Comment

/-- Each site begins with the comments that the one before it leaves. -/
inductive Chain {α : Type} : List Comment → List (Site α) → List Comment → Prop
  | nil {comments} : Chain comments [] comments
  | cons {item front next sites behind} : Chain next sites behind →
      Chain front (⟨item, front, next⟩ :: sites) behind

/-- Parts with a sign between each two, read one behind the other. -/
def Strung {α : Type} (sign : String) (part : Site α → List Lexeme → Prop) (items : List α)
    (front behind : List Comment) (lexemes : List Lexeme) : Prop :=
  ∃ sites, Chain front sites behind ∧ sites.map (·.item) = items ∧ Separated sign part sites lexemes

namespace Strung

variable {α : Type} {sign : String} {part : Site α → List Lexeme → Prop} {item : α} {items : List α}
  {front next behind : List Comment} {lexemes more : List Lexeme}

theorem single (h : part ⟨item, front, behind⟩ lexemes) :
    Strung sign part [item] front behind lexemes :=
  ⟨[⟨item, front, behind⟩], .cons .nil, rfl, .single h⟩

theorem cons {span : Span} (h : part ⟨item, front, next⟩ lexemes)
    (hmore : Strung sign part items next behind more) :
    Strung sign part (item :: items) front behind (lexemes ++ .ofSign sign span :: more) := by
  obtain ⟨sites, hchain, rfl, hparts⟩ := hmore
  exact ⟨⟨item, front, next⟩ :: sites, .cons hchain, rfl, .cons h hparts⟩

end Strung

/-- One thing is read behind another, with the comments that it leaves. -/
theorem run_bind_eq {α β : Type} {read : Reading.Reader α} {next : α → Reading.Reader β} {value : α}
    {front behind : List Comment} (h : read.run front = .ok (value, behind)) :
    (read >>= next).run front = (next value).run behind := by
  rw [StateT.run_bind, h]
  rfl

/-- A type as it was read stands for a type of the tree. -/
def Lowers (source : List Char) (type : TypeSyntax) (site : Site TypeNode) : Prop :=
  (Reading.typeNode source type).run site.front = .ok (site.item, site.behind)

theorem typeNodes_eq_ok {types : List TypeSyntax} {sites : List (Site TypeNode)}
    {front behind : List Comment} (h : List.Forall₂ (Lowers source) types sites)
    (hchain : Chain front sites behind) :
    (Reading.typeNodes source types).run front = .ok (sites.map (·.item), behind) := by
  induction h generalizing front with
  | nil =>
    cases hchain
    rfl
  | cons hfirst _ ih =>
    cases hchain with
    | cons hchain =>
      rw [Reading.typeNodes, run_bind_eq hfirst, run_bind_eq (ih hchain)]
      rfl

namespace Lowers

theorem compound {types : List TypeSyntax} {sites : List (Site TypeNode)}
    {front behind : List Comment} (h : List.Forall₂ (Lowers source) types sites)
    (hchain : Chain front sites behind) (hsites : 2 ≤ sites.length) (span : Span) :
    Lowers source (.union span types) ⟨.union (sites.map (·.item)), front, behind⟩ ∧
      Lowers source (.intersection span types)
        ⟨.intersection (sites.map (·.item)), front, behind⟩ := by
  have hcompound (make : List TypeNode → TypeNode) :
      Reading.compound make (sites.map (·.item)) = make (sites.map (·.item)) := by
    match sites with
    | [] | [_] => simp at hsites
    | _ :: _ :: _ => rfl
  constructor
  all_goals
    rw [Lowers, Reading.typeNode, run_bind_eq (typeNodes_eq_ok h hchain), hcompound]
    rfl

end Lowers

/-! ## Brackets behind an operand -/

namespace Grammar

/-- What `postfixType` repeats. -/
def postfixStep (g : Grammar) (start : Nat) (type : TypeSyntax) : Parser (Option TypeSyntax) := do
  if ← afterBreak then return none
  unless ← eat "[" do return none
  if ← eat "]" then return some (.array (← spanFrom start) type)
  let _ ← g.type
  expect "]"
  return some (← unmodelledFrom start .indexedAccess)

theorem postfixType_eq (g : Grammar) :
    g.postfixType = (do
      let start ← position
      let type ← g.primaryType
      iterate (g.postfixStep start) type) := rfl

end Grammar

/-- A type in front of brackets: read up to them, it is there for the brackets to go on with. -/
def ReadsOperand (source : List Char) (site : Site TypeNode) (lexemes : List Lexeme) : Prop :=
  ∀ bound rest previous (frame : Frame) post, frame.Typed source → Follows primaryEnds rest →
    (lexemes ++ rest).length ≤ bound →
    (∀ start limit type last, rest.length < limit → Lowers source type site →
      Runs (iterateUpTo ((Grammar.ofFuel (bound + 7)).postfixStep start) limit type)
        ⟨rest, last, frame⟩ False post) →
    Runs (Grammar.ofFuel (bound + 7)).postfixType ⟨lexemes ++ rest, previous, frame⟩ False post

namespace ReadsOperand

variable {site : Site TypeNode} {node : TypeNode} {front behind : List Comment}
  {lexemes : List Lexeme}

theorem of_primaryType (hbegins : BeginsOutside typeRefused lexemes)
    (h : ∀ bound, Gives source (Grammar.ofFuel (bound + 7)).primaryType primaryEnds bound
      (Lowers source) site lexemes) : ReadsOperand source site lexemes := by
  intro bound rest previous frame post hframe hrest hbound hloop
  have hprimary := h bound rest previous frame hframe hrest hbound
  obtain ⟨first, more, rfl, -⟩ := hbegins
  rw [List.cons_append] at hprimary ⊢
  rw [Grammar.postfixType_eq]
  refine (position_reads hframe.clear).step ?_
  refine .bind <| hprimary.mono ?_
  rintro type after ⟨htype, last, rfl⟩
  exact iterate_runs fun limit hlimit => hloop _ limit type last (by simp at hlimit; omega) htype

theorem array {left right : Span} (h : ReadsOperand source ⟨node, front, behind⟩ lexemes) :
    ReadsOperand source ⟨.array node, front, behind⟩
      (lexemes ++ [.ofSign "[" left, .ofSign "]" right]) := by
  intro bound rest previous frame post hframe hrest hbound hloop
  rw [List.append_assoc] at hbound ⊢
  refine h bound _ previous frame post hframe (.sign (by decide) _ _) hbound ?_
  intro start limit type last hlimit htype
  simp only [List.cons_append, List.nil_append, List.length_cons] at hlimit
  have hstep : Reads ((Grammar.ofFuel (bound + 7)).postfixStep start type)
      ⟨.ofSign "[" left :: .ofSign "]" right :: rest, last, frame⟩
      (some (.array ⟨min start right.stop, max start right.stop⟩ type)) ⟨rest, right, frame⟩ := by
    refine (afterBreak_reads hframe.clear).no ?_
    refine (eat_yes hframe.clear rfl).yes ?_
    refine (eat_yes hframe.clear rfl).yes ?_
    exact (spanFrom_reads start).step .done
  refine iterateUpTo_next (by omega) hstep (hloop start (limit - 1) _ _ (by omega) ?_)
  rw [Lowers, Reading.typeNode, run_bind_eq htype]
  rfl

theorem operandType (hbegins : BeginsOutside typeRefused lexemes)
    (h : ReadsOperand source site lexemes) (bound : Nat) :
    Gives source (Grammar.ofFuel (bound + 7)).operandType operandEnds bound (Lowers source) site
      lexemes := by
  intro rest previous frame hframe hrest hbound
  have hpostfix := h bound rest previous frame
    (fun type after => Lowers source type site ∧ ∃ last, after = ⟨rest, last, frame⟩) hframe
    (hrest.mono fun _ => List.mem_cons_of_mem _) hbound ?_
  · have hsome : ∀ text ∈ ["keyof", "unique", "readonly"], text ∈ typeRefused := by decide
    have hany := hbegins.any_spells_eq_false hsome rest previous frame
    obtain ⟨first, more, rfl, hfirst⟩ := hbegins
    rw [List.cons_append] at hpostfix ⊢
    refine (position_reads hframe.clear).step ?_
    refine (notAtAny hframe.clear hany).no ?_
    refine (notAt hframe.clear (by exact hfirst "infer" (by decide))).no ?_
    exact (needToken_reads hframe.clear).step hpostfix
  · -- what follows an operand is no bracket, and so ends the loop over brackets
    intro start limit type last hlimit htype
    obtain ⟨text, htext, span, more, rfl⟩ := hrest
    refine iterateUpTo_stop (by omega) ?_ ⟨htype, last, rfl⟩
    refine (afterBreak_reads hframe.clear).no ?_
    refine (eat_no hframe.clear ?_).no .done
    exact Follows.spells_eq_false (.sign htext span more) rfl _ _

end ReadsOperand

/-! ## Unions and intersections -/

variable {site : Site TypeNode} {node : TypeNode} {front behind : List Comment}
  {lexemes : List Lexeme}

/-- What stands between two signs of a compound is given back alone where no sign follows. -/
theorem compoundType_single {sign : String} {make : Span → List TypeSyntax → TypeSyntax}
    {member : Parser TypeSyntax} {ends : List String} (hsign : ends.contains sign = false)
    (hbegins : BeginsOutside [sign] lexemes)
    (h : Gives source member (sign :: ends) bound (Lowers source) site lexemes) :
    Gives source (Grammar.compoundType sign make member) ends bound (Lowers source) site
      lexemes := by
  intro rest previous frame hframe hrest hbound
  have hmember := h rest previous frame hframe (hrest.mono fun _ => List.mem_cons_of_mem _) hbound
  obtain ⟨first, more, rfl, hfirst⟩ := hbegins
  rw [List.cons_append] at hmember ⊢
  refine (position_reads hframe.clear).step ?_
  refine (eat_no hframe.clear (by exact hfirst sign (by simp))).step ?_
  refine .bind <| hmember.mono ?_
  rintro type after ⟨htype, last, rfl⟩
  exact (notAt (hframe.clear hrest.ne_nil) (hrest.spells_eq_false hsign _ _)).no
    (.pure ⟨htype, last, rfl⟩)

/-- Types with a sign between each two are read as a compound of them. -/
theorem compoundType_runs {sign : String} {make : Span → List TypeSyntax → TypeSyntax}
    {member : Parser TypeSyntax} {ends : List String} {sites : List (Site TypeNode)}
    {whole : Site TypeNode} (hsign : ends.contains sign = false) (hsites : 2 ≤ sites.length)
    (hparts : Separated sign (fun site ls => BeginsOutside [sign] ls ∧
      Gives source member (sign :: ends) bound (Lowers source) site ls) sites lexemes)
    (hmake : ∀ span types, List.Forall₂ (Lowers source) types sites →
      Lowers source (make span types) whole) :
    Gives source (Grammar.compoundType sign make member) ends bound (Lowers source) whole
      lexemes := by
  intro rest previous frame hframe hrest hbound
  cases hparts with
  | single _ => simp at hsites
  | @cons site sites first next later hpart hparts =>
    obtain ⟨hbegins, hgives⟩ := hpart
    rw [List.append_assoc, List.cons_append] at hbound ⊢
    have hmember := hgives _ previous frame hframe (.sign List.mem_cons_self next _) hbound
    obtain ⟨head, more, rfl, hhead⟩ := hbegins
    rw [List.cons_append] at hmember hbound ⊢
    refine (position_reads hframe.clear).step ?_
    refine (eat_no hframe.clear (by exact hhead sign (by simp))).step ?_
    refine .bind <| hmember.mono ?_
    rintro type after ⟨htype, last, rfl⟩
    refine (isAt hframe.clear (by exact decide_eq_true rfl)).yes ?_
    have hlater : (later ++ rest).length ≤ bound := by simp at hbound ⊢; omega
    refine .bind <| (collect_signed_runs hframe hsign (hparts.mono fun _ _ h => h.2) hrest
      hlater).mono ?_
    rintro types after ⟨htypes, last, rfl⟩
    exact (spanFrom_reads _).step (.pure ⟨hmake _ _ (.cons htype htypes), last, rfl⟩)

/-! ## Whole types -/

/-- The parser of what stands between the signs of a union. -/
def Grammar.intersectionType (g : Grammar) : Parser TypeSyntax :=
  Grammar.compoundType "&" .intersection g.operandType

/-- What is read as a union or less is read as a type, since it is no function type. -/
theorem type_of_unionType (h : Spells source (.type node) front behind lexemes)
    (hunion : Gives source (Grammar.ofFuel (bound + 7)).unionType typeEnds bound (Lowers source) site
      lexemes) :
    Gives source (Grammar.ofFuel (bound + 8)).type typeEnds bound (Lowers source) site
      lexemes := by
  intro rest previous frame hframe hrest hbound
  have hbegins : BeginsOutside typeRefused lexemes := h.begins
  show Runs (Grammar.ofFuel (bound + 7)).typeStep _ _ _
  refine within_runs ?_
  -- the context of a type differs from the one around it, and is left again
  let inner : Frame := { frame with context := { frame.context with noConditional := false } }
  have hinner : inner.Typed source := ⟨hframe.source, hframe.singleAngles, hframe.inDeclare⟩
  show Runs _ ⟨lexemes ++ rest, previous, inner⟩ _ _
  have hnotOpen := h.no_parameters bound rest previous inner hinner (hrest.mono (by decide)) hbound
  have hread := hunion rest previous inner hinner hrest hbound
  have hno {text : String} (htext : text ∈ typeRefused) :
      View.spells ⟨lexemes ++ rest, previous, inner⟩ text = false :=
    hbegins.spells_eq_false htext rest previous inner
  obtain ⟨first, more, rfl, -⟩ := hbegins
  rw [List.cons_append] at hnotOpen hread hno ⊢
  refine (position_reads hinner.clear).step ?_
  -- neither a function type nor a constructor type begins here
  have hplain : Runs (Grammar.ofFuel (bound + 7)).plainTypeStep
      ⟨first :: (more ++ rest), previous, inner⟩ False fun type after =>
        Lowers source type site ∧ ∃ last, after = ⟨rest, last, inner⟩ := by
    refine (position_reads hinner.clear).step ?_
    refine ((notAt hinner.clear (hno (by decide))).or_no hnotOpen).no ?_
    refine ((notAt hinner.clear (hno (by decide))).and_no.or_no
      (notAt hinner.clear (hno (by decide)))).no ?_
    exact hread
  refine .bind <| hplain.mono ?_
  rintro type after ⟨htype, last, rfl⟩
  have hextends : View.spells ⟨rest, last, inner⟩ "extends" = false :=
    hrest.spells_eq_false (by decide) _ _
  obtain ⟨text, -, span, later, rfl⟩ := hrest
  refine (afterBreak_reads hinner.clear).no ?_
  exact (eat_no hinner.clear hextends).no <| .pure ⟨htype, last, rfl⟩

/-- A type as the parser reads it, spelled like this: in front of brackets unless it is a compound,
between the signs of a union unless it is one, and wherever a whole type can stand. -/
structure ReadAs (source : List Char) (site : Site TypeNode) (lexemes : List Lexeme) : Prop where
  spelled : Spells source (.type site.item) site.front site.behind lexemes
  operand : site.item.isCompound = false → ReadsOperand source site lexemes
  member : (∀ inner, site.item ≠ .union inner) → ∀ bound,
    Gives source (Grammar.ofFuel (bound + 7)).intersectionType intersectionEnds bound
      (Lowers source) site lexemes
  whole : ∀ bound,
    Gives source (Grammar.ofFuel (bound + 8)).type typeEnds bound (Lowers source) site lexemes

namespace ReadAs

theorem of_member (h : Spells source (.type site.item) site.front site.behind lexemes)
    (hcompound : site.item.isCompound = false → ReadsOperand source site lexemes)
    (hmember : ∀ bound, Gives source (Grammar.ofFuel (bound + 7)).intersectionType
      intersectionEnds bound (Lowers source) site lexemes) : ReadAs source site lexemes where
  spelled := h
  operand := hcompound
  member := fun _ => hmember
  whole := fun bound => type_of_unionType h <|
    compoundType_single rfl (h.begins.mono (by decide)) (hmember bound)

theorem of_operand (h : Spells source (.type site.item) site.front site.behind lexemes)
    (hoperand : ReadsOperand source site lexemes) : ReadAs source site lexemes :=
  of_member h (fun _ => hoperand) fun bound =>
    compoundType_single rfl (h.begins.mono (by decide)) (hoperand.operandType h.begins bound)

/-- What is read without regard to brackets behind it. -/
theorem of_primaryType (h : Spells source (.type node) front behind lexemes)
    (hprimary : ∀ bound, Gives source (Grammar.ofFuel (bound + 7)).primaryType primaryEnds bound
      (Lowers source) ⟨node, front, behind⟩ lexemes) :
    ReadAs source ⟨node, front, behind⟩ lexemes :=
  of_operand h (.of_primaryType h.begins hprimary)

theorem array {left right : Span} (hnode : node.isCompound = false)
    (h : ReadAs source ⟨node, front, behind⟩ lexemes) :
    ReadAs source ⟨.array node, front, behind⟩
      (lexemes ++ [.ofSign "[" left, .ofSign "]" right]) :=
  of_operand (.array hnode h.spelled) (h.operand hnode).array

theorem intersection {nodes : List TypeNode} (hnodes : 2 ≤ nodes.length)
    (hplain : ∀ node ∈ nodes, node.isCompound = false)
    (h : Spells source (.type (.intersection nodes)) front behind lexemes)
    (hparts : Strung "&" (ReadAs source) nodes front behind lexemes) :
    ReadAs source ⟨.intersection nodes, front, behind⟩ lexemes := by
  obtain ⟨sites, hchain, rfl, hparts⟩ := hparts
  rw [List.length_map] at hnodes
  rw [List.forall_mem_map] at hplain
  refine of_member h (fun hfalse => Bool.noConfusion hfalse) fun bound => ?_
  refine compoundType_runs rfl hnodes ?_ fun span types htypes =>
    (Lowers.compound htypes hchain hnodes span).2
  refine hparts.mono_of_mem fun site lexemes hmem hpart => ?_
  exact ⟨hpart.spelled.begins.mono (by decide),
    (hpart.operand (hplain site hmem)).operandType hpart.spelled.begins bound⟩

theorem union {nodes : List TypeNode} (hnodes : 2 ≤ nodes.length)
    (hplain : ∀ node ∈ nodes, ∀ inner, node ≠ .union inner)
    (h : Spells source (.type (.union nodes)) front behind lexemes)
    (hparts : Strung "|" (ReadAs source) nodes front behind lexemes) :
    ReadAs source ⟨.union nodes, front, behind⟩ lexemes where
  spelled := h
  operand := fun hfalse => Bool.noConfusion hfalse
  member := fun hfalse => absurd rfl (hfalse nodes)
  whole := fun bound => by
    obtain ⟨sites, hchain, rfl, hparts⟩ := hparts
    rw [List.length_map] at hnodes
    rw [List.forall_mem_map] at hplain
    refine type_of_unionType h ?_
    refine compoundType_runs rfl hnodes ?_ fun span types htypes =>
      (Lowers.compound htypes hchain hnodes span).1
    refine hparts.mono_of_mem fun site lexemes hmem hpart => ?_
    exact ⟨hpart.spelled.begins.mono (by decide), hpart.member (hplain site hmem) bound⟩

end ReadAs

end Declutter.Syntax
