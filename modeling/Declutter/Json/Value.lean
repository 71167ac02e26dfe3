import Declutter.Text.Quoted

/-!
# JSON values

Values of JSON and their two written forms: `compact` without any blanks, and `pretty` with each
item on a line of its own, two blanks deeper than what holds it. Numbers are kept as they are
written, and the entries of an object in the order in which they are listed.
-/

namespace Declutter.Json

inductive Value where
  | null
  | bool (value : Bool)
  | number (text : String)
  | string (value : String)
  | array (items : List Value)
  | object (entries : List (String × Value))
  deriving Inhabited

namespace Value

def boolText : Bool → String
  | true => "true"
  | false => "false"

mutual

/-- The text of a value without blanks. -/
def compact : Value → String
  | .null => "null"
  | .bool value => boolText value
  | .number text => text
  | .string value => Text.quote value
  | .array items => "[" ++ ",".intercalate (compactItems items) ++ "]"
  | .object entries => "\x7b" ++ ",".intercalate (compactEntries entries) ++ "\x7d"

def compactItems : List Value → List String
  | [] => []
  | item :: items => item.compact :: compactItems items

def compactEntries : List (String × Value) → List String
  | [] => []
  | (key, value) :: entries => (Text.quote key ++ ":" ++ value.compact) :: compactEntries entries

end

/-- The blanks in front of a line at a depth. -/
def indent (depth : Nat) : String := String.ofList (List.replicate (2 * depth) ' ')

/-- Items between brackets, each on a line of its own. -/
def block (depth : Nat) (opening closing : String) (items : List String) : String :=
  if items.isEmpty then opening ++ closing
  else
    opening ++ "\n" ++ ",\n".intercalate (items.map (indent (depth + 1) ++ ·)) ++ "\n" ++
      indent depth ++ closing

mutual

/-- The text of a value over several lines, where lines begin at a depth. -/
def render (depth : Nat) : Value → String
  | .null => "null"
  | .bool value => boolText value
  | .number text => text
  | .string value => Text.quote value
  | .array items => block depth "[" "]" (renderItems (depth + 1) items)
  | .object entries => block depth "\x7b" "\x7d" (renderEntries (depth + 1) entries)

def renderItems (depth : Nat) : List Value → List String
  | [] => []
  | item :: items => item.render depth :: renderItems depth items

def renderEntries (depth : Nat) : List (String × Value) → List String
  | [] => []
  | (key, value) :: entries =>
    (Text.quote key ++ ": " ++ value.render depth) :: renderEntries depth entries

end

/-- The text of a value over several lines. -/
def pretty (value : Value) : String := value.render 0

end Value

end Declutter.Json
