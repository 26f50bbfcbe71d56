import Templating.Number.Shortest
import Templating.Text.Case
import Templating.Value

/-!
# Texts and truth of values

`Value.text` is what a template writes: nothing for null, lower-case words for booleans, decimal
integers, shortest numbers, and compact JSON for collections. `Value.literal` is the form of
diagnostics. An integer of more digits than the limit has no text; neither has a collection that
holds one.
-/

namespace Templating

namespace Value

/-- The least magnitude whose decimal text is too long. -/
def integerBound : Nat := Nat.pow 10 Number.digitLimit

def integerText (n : Int) : Except Error String :=
  if n.natAbs < integerBound then .ok (toString n) else .error (.fault .integerTooLong)

def boolText (b : Bool) : String := if b then "true" else "false"

def bracketed (opening closing separator : String) (parts : List String) : String :=
  opening ++ String.intercalate separator parts ++ closing

mutual

def json : Value → Except Error String
  | .null => .ok "null"
  | .bool b => .ok (boolText b)
  | .int n => integerText n
  | .float x => .ok x.json
  | .string s => .ok (Text.json s)
  | .array items => do return bracketed "[" "]" "," (← jsonItems items)
  | .dictionary entries => do return bracketed "\x7b" "\x7d" "," (← jsonEntries entries)
  | .foreign object => object.json

def jsonItems : List Value → Except Error (List String)
  | [] => .ok []
  | v :: rest => do
    let first ← json v
    return first :: (← jsonItems rest)

def jsonEntries : List (String × Value) → Except Error (List String)
  | [] => .ok []
  | (key, v) :: rest => do
    let first ← json v
    return (Text.json key ++ ":" ++ first) :: (← jsonEntries rest)

end

def text : Value → Except Error String
  | .null => .ok ""
  | .bool b => .ok (boolText b)
  | .int n => integerText n
  | .float x => .ok x.text
  | .string s => .ok s
  | .foreign object => object.text
  | collection => collection.json

mutual

def literal : Value → Except Error String
  | .null => .ok "None"
  | .bool b => .ok (if b then "True" else "False")
  | .int n => integerText n
  | .float x => .ok x.text
  | .string s => .ok (Text.literal s)
  | .array items => do return bracketed "[" "]" ", " (← literalItems items)
  | .dictionary entries => do return bracketed "\x7b" "\x7d" ", " (← literalEntries entries)
  | .foreign object => object.literal

def literalItems : List Value → Except Error (List String)
  | [] => .ok []
  | v :: rest => do
    let first ← literal v
    return first :: (← literalItems rest)

def literalEntries : List (String × Value) → Except Error (List String)
  | [] => .ok []
  | (key, v) :: rest => do
    let first ← literal v
    return (Text.literal key ++ ": " ++ first) :: (← literalEntries rest)

end

/-- The value with its kind, for diagnostics. -/
def describe : Value → Except Error String
  | .null => .ok "ContextValue.null()"
  | v => do return s!"ContextValue({v.kind.name}, {← v.literal})"

/-- The texts that count as false whatever their case. -/
def isFalseText (s : String) : Bool :=
  let lowered := Text.lower s
  lowered == "false" || lowered == "0"

def truthy : Value → Except Error Bool
  | .null => .ok false
  | .bool b => .ok b
  | .int n => .ok (n != 0)
  | .float x => .ok !x.isZero
  | .string s => .ok (s != "" && !isFalseText s)
  | .array items => .ok !items.isEmpty
  | .dictionary entries => .ok !entries.isEmpty
  | .foreign object => object.truth

end Value

end Templating
