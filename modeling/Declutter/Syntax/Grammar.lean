import Declutter.Syntax.Parser
import Declutter.Syntax.Tree

/-!
# The grammar's cycles

The productions of the grammar refer to each other in cycles. Each cycle passes through one of
the entries collected here, and every production is written over a grammar that gives them, so
none is recursive itself. `Syntax/Source` closes the cycles.
-/

namespace Declutter.Syntax

structure Grammar where
  type : Parser TypeSyntax
  /-- A type that is not conditional. -/
  plainType : Parser TypeSyntax
  /-- A type that is no union, intersection or function type. -/
  typeOperand : Parser TypeSyntax
  /-- What a value is bound to: a name, or an array or object of patterns. -/
  pattern : Parser PatternSyntax
  assignment : Parser ExprSyntax
  /-- An object in braces. -/
  object : Parser ExprSyntax
  /-- An operation between operands, at most. -/
  binary : Parser ExprSyntax
  unary : Parser ExprSyntax
  /-- The operators, and their right operands, that follow an operand and bind more tightly than
  a precedence. -/
  operators : ExprSyntax → Nat → Parser ExprSyntax
  /-- An operand with what follows it but calls. -/
  memberExpression : Parser ExprSyntax
  /-- What can be called, assigned to or extended. -/
  leftHandSide : Parser ExprSyntax
  /-- A statement; whether declarations can stand there. -/
  statement : (declarations : Bool) → Parser ItemSyntax
  /-- A statement, an import or an export. -/
  item : Parser ItemSyntax

end Declutter.Syntax
