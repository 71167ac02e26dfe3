import Declutter.Syntax.Modules

/-!
# Source texts

`Source.parse` reads a text as a module: its items and its comments, or the fault that the text
is refused for. Here the cycles of the grammar are closed. Each passage through one of its
entries costs a unit of fuel, and there is more of it than a text can nest.
-/

namespace Declutter.Syntax

/-- The grammar with so many passages through its entries. -/
def Grammar.ofFuel : (fuel : Nat) → Grammar
  | 0 =>
    { type := exhausted
      plainType := exhausted
      typeOperand := exhausted
      pattern := exhausted
      assignment := exhausted
      object := exhausted
      binary := exhausted
      unary := exhausted
      operators := fun _ _ => exhausted
      memberExpression := exhausted
      leftHandSide := exhausted
      statement := fun _ => exhausted
      item := exhausted }
  | fuel + 1 =>
    { type := fun state => (ofFuel fuel).typeStep state
      plainType := fun state => (ofFuel fuel).plainTypeStep state
      typeOperand := fun state => (ofFuel fuel).operandType state
      pattern := fun state => (ofFuel fuel).patternStep true state
      assignment := fun state => (ofFuel fuel).assignmentStep state
      object := fun state => (ofFuel fuel).objectExpression state
      binary := fun state => (ofFuel fuel).binaryStep state
      unary := fun state => (ofFuel fuel).unaryStep state
      operators := fun left least state => (ofFuel fuel).operatorsStep left least state
      memberExpression := fun state => (ofFuel fuel).memberStep state
      leftHandSide := fun state => (ofFuel fuel).leftHandSideStep state
      statement := fun declarations state => (ofFuel fuel).statementStep declarations state
      item := fun state => (ofFuel fuel).itemStep state }
where
  exhausted {α : Type} : Parser α := do throw ⟨.endOfText, ← Parser.previousStop⟩

/-- A text as the grammar sees it. -/
structure Source where
  items : List ItemSyntax
  /-- The comments in the order of their places. -/
  comments : List Comment

namespace Source

/-- The state at the beginning of a text. -/
def start (text : List Char) : State :=
  { lexer := .ofText text
    current := none
    ahead := none
    previous := ⟨0, 0⟩
    context := .outermost
    arrowStart := none
    labels := []
    journal := ⟨[], []⟩
    limit := text.length + 2 }

/-- All items up to the end of a text. -/
def readItems (g : Grammar) : Parser (List ItemSyntax) := do
  if let some .shebang ← Parser.token then Parser.bump
  Parser.collect do
    if (← Parser.token).isNone then return none
    return some (← g.item)

/-- Reads a text. A fault that ends the reading counts before those that were noted down, and of
these the first one counts. -/
def parse (text : List Char) : Except Fault Source :=
  let fuel := 8 * (text.length + 8)
  match readItems (.ofFuel fuel) (start text) with
  | .error fault _ => .error fault
  | .ok items state =>
    match state.journal.faults.getLast? with
    | some fault => .error fault
    | none =>
      let inOrder (a b : Comment) : Bool := a.span.start ≤ b.span.start
      .ok ⟨items, state.journal.comments.mergeSort inOrder⟩

end Source

end Declutter.Syntax
