import Templating.Text.Search
import Templating.Value.Text

/-!
# Equality of values

Values of different kinds differ. Arrays are equal element by element, dictionaries if they have
the same keys with equal values, in any order, and objects if they have one identity.
-/

namespace Templating

namespace Value

mutual

def same : Value → Value → Bool
  | .null, .null => true
  | .bool a, .bool b => a == b
  | .int m, .int n => m == n
  | .float x, .float y => x.same y
  | .string s, .string t => s == t
  | .array xs, .array ys => sameItems xs ys
  | .dictionary xs, .dictionary ys => xs.length == ys.length && sameEntries xs ys
  | .foreign a, .foreign b => a.identity == b.identity
  | _, _ => false

def sameItems : List Value → List Value → Bool
  | [], [] => true
  | x :: xs, y :: ys => same x y && sameItems xs ys
  | _, _ => false

def sameEntries : List (String × Value) → List (String × Value) → Bool
  | [], _ => true
  | (key, x) :: rest, ys =>
    (match ys.lookup key with
      | some y => same x y
      | none => false) && sameEntries rest ys

end

/-- A text that two numbers share exactly if they are equal; a whole number shows as an integer. -/
def numberContent : Binary64 → String
  | .nan payload => s!"nan{payload}"
  | .infinite negative => if negative then "#-inf" else "#inf"
  | .finite negative significand exponent =>
    let split := Binary64.parts significand exponent
    if split.2.1 = 0 then s!"#{Binary64.signed negative split.1}"
    else "#" ++ (Binary64.finite negative significand exponent).text

/-- The texts in their order, so that it does not matter in which one they came. -/
def sortedTexts (texts : List String) : List String := texts.mergeSort fun a b => a ≤ b

mutual

/-- A text that two values share exactly if they are equal. -/
def content : Value → String
  | .null => "(null)"
  | .bool b => s!"(bool {b})"
  | .int n => s!"(int {n})"
  | .float x => s!"(float {numberContent x})"
  | .string s => s!"(string {Text.json s})"
  | .array items => bracketed "(array " ")" "," (contentItems items)
  | .dictionary entries => bracketed "(dictionary " ")" "," (sortedTexts (contentEntries entries))
  | .foreign object => s!"(opaque {object.identity})"

def contentItems : List Value → List String
  | [] => []
  | v :: rest => content v :: contentItems rest

def contentEntries : List (String × Value) → List String
  | [] => []
  | (key, v) :: rest => (Text.json key ++ ":" ++ content v) :: contentEntries rest

end

def distinctCount : List Value → Nat
  | [] => 0
  | v :: rest => distinctCount rest + if rest.any (same v) then 0 else 1

mutual

/-- The type that keeps a value out of sets, if one does. -/
def unhashable? : Value → Option String
  | .array items => unhashableItem? items
  | .dictionary entries => unhashableIn? entries
  | .foreign object => object.unhashable
  | _ => none

def unhashableItem? : List Value → Option String
  | [] => none
  | v :: rest => (unhashable? v).or (unhashableItem? rest)

def unhashableIn? : List (String × Value) → Option String
  | [] => none
  | (_, v) :: rest => (unhashable? v).or (unhashableIn? rest)

end

/-- The size of the set of the given values. -/
def setSize (values : List Value) : Except Error Nat :=
  match unhashableItem? values with
  | some found => .error (.fault (.notHashable found))
  | none => .ok (distinctCount values)

/-- Whether a collection holds a value: an array as an element, a dictionary as the text of a key, a
text as a part of it. -/
def contains : Value → Value → Except Error Bool
  | .array items, needle => .ok (items.any (same needle))
  | .dictionary entries, needle => do
    let key ← needle.text
    return (entries.lookup key).isSome
  | .string s, needle => do
    let part ← needle.text
    return Text.occursIn part.toList s.toList
  | _, _ => .ok false

def count : Value → Except Error Nat
  | .array items => .ok items.length
  | .dictionary entries => .ok entries.length
  | .string s => .ok s.length
  | .null => .ok 0
  | v => .error (.fault (.notCountable v.kind))

end Value

end Templating
