import Declutter.Syntax.Fault

/-!
# Tokens

The words, signs and literals of a source text. Words that the grammar reserves everywhere are
`keyword`s; all others, those that open a declaration included, are `name`s and mean something
only where they stand.
-/

namespace Declutter.Syntax

inductive Token where
  | keyword (word : String)
  | name (word : String)
  | sign (text : String)
  /-- A quoted string: its value, and the text it is written with. -/
  | string (value raw : String)
  | number (value raw : String)
  | bigint (value raw : String)
  | regex (body flags : String)
  /-- A literal part of a template. A bad escape in it is a fault unless the template is tagged. -/
  | template (raw : String) (fault : Option Fault)
  /-- The first line of a script that names its interpreter. -/
  | shebang
  /-- Text that is no token. -/
  | malformed (fault : Fault)
  deriving DecidableEq, Repr, Inhabited

/-- The words that are reserved everywhere. -/
def keywords : List String :=
  ["await", "break", "case", "catch", "class", "const", "continue", "debugger", "default",
    "delete", "do", "else", "export", "extends", "false", "finally", "for", "function", "if",
    "import", "in", "instanceof", "let", "new", "null", "return", "super", "switch", "this",
    "throw", "true", "try", "typeof", "var", "void", "while", "with", "yield"]

/-- The words that are reserved in module code only. -/
def moduleReserved : List String :=
  ["implements", "package", "protected", "interface", "private", "public", "enum"]

/-- The operators that stand between two operands, with how tightly they bind. -/
def binaryOperators : List (String × Nat) :=
  [("??", 1), ("||", 1), ("&&", 2), ("|", 3), ("^", 4), ("&", 5), ("==", 6), ("!=", 6),
    ("===", 6), ("!==", 6), ("<", 7), ("<=", 7), (">", 7), (">=", 7), ("<<", 8), (">>", 8),
    (">>>", 8), ("+", 9), ("-", 9), ("*", 10), ("/", 10), ("%", 10), ("**", 11)]

def leftBrace : String := "\x7b"

def rightBrace : String := "\x7d"

def backtick : String := "\x60"

def assignmentOperators : List String :=
  ["=", "+=", "-=", "*=", "/=", "%=", "<<=", ">>=", ">>>=", "|=", "^=", "&=", "**=", "&&=",
    "||=", "??="]

namespace Token

/-- How tightly an operator binds, if a token is one. -/
def precedence? : Token → Option Nat
  | .sign text => binaryOperators.lookup text
  | _ => none

def isBinaryOperator (token : Token) : Bool := token.precedence?.isSome

def isAssignmentOperator : Token → Bool
  | .sign text => assignmentOperators.contains text
  | _ => false

/-- The word of a name or keyword. -/
def word? : Token → Option String
  | .keyword word | .name word => some word
  | _ => none

/-- Whether a token is a certain word or sign. -/
def spells (token : Token) (text : String) : Bool :=
  match token with
  | .keyword spelling | .name spelling | .sign spelling => spelling = text
  | _ => false

/-- Whether a word can be a name of its own. -/
def isBindable : Token → Bool
  | .name word => !moduleReserved.contains word
  | _ => false

/-- A token as messages name it. -/
def shown : Token → String
  | .keyword word | .name word => word
  | .sign text => text
  | .string value raw => "string literal (" ++ value ++ ", " ++ raw ++ ")"
  | .number value raw => "numeric literal (" ++ value ++ ", " ++ raw ++ ")"
  | .bigint value raw => "bigint literal (" ++ value ++ ", " ++ raw ++ ")"
  | .regex body flags => "regexp literal (" ++ body ++ ", " ++ flags ++ ")"
  | .template raw _ => "template token (" ++ raw ++ ")"
  | .shebang => "#!"
  | .malformed fault => "<lexing error: " ++ fault.cause.message ++ ">"

/-- Whether an operand can follow a token, as far as the token alone tells. -/
def expectsOperand : Token → Bool
  | .keyword word =>
    ["await", "case", "default", "do", "else", "return", "throw", "new", "extends", "yield",
      "in", "instanceof", "typeof", "void", "delete"].contains word
  | .sign text =>
    ["=>", "...", "!", "(", "[", "\x7b", ";", ",", ":", "~", "$\x7b", "?"].contains text ||
      (binaryOperators.lookup text).isSome || assignmentOperators.contains text
  | _ => false

end Token

/-- A comment of a source text. -/
structure Comment where
  isBlock : Bool
  span : Span
  deriving DecidableEq, Repr, Inhabited

/-- A token in its place. -/
structure Lexeme where
  token : Token
  span : Span
  /-- Whether a line ends between the token before and this one. -/
  afterBreak : Bool
  deriving DecidableEq, Repr, Inhabited

end Declutter.Syntax
