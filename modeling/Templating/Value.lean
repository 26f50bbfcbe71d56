import Templating.Error

/-!
# Values

A value is what a template renders against: null, a boolean, an integer, a number, a text, an array,
a dictionary in insertion order, or an object of the application. An object is known by its answers
alone: its text, its truth, its attributes and its items, each of which may be a failure. No answer
at all means that there is no such attribute or item.
-/

namespace Templating

inductive Step
  | key (name : String)
  | index (position : Int)
deriving DecidableEq, Repr

mutual

inductive Value
  | null
  | bool (b : Bool)
  | int (n : Int)
  | float (x : Binary64)
  | string (s : String)
  | array (items : List Value)
  | dictionary (entries : List (String × Value))
  | foreign (object : Foreign)

/-- The answers of an object of the application. -/
structure Foreign where
  /-- A text that it shares with those objects that are equal to it, and with no others. -/
  identity : String
  text : Except Error String
  /-- Its form inside the text of a collection. -/
  json : Except Error String
  /-- Its form inside a literal. -/
  literal : Except Error String
  truth : Except Error Bool
  /-- The type that keeps it out of sets, if one does. -/
  unhashable : Option String
  typeName : String
  /-- The value that it is taken for as a step of a path, if it is a scalar. -/
  scalar : Option Value
  named : String → Option (Except Error Value)
  item : Step → Option (Except Error Value)

end

instance : Inhabited Value := ⟨.null⟩

/-- The element at a position, counted from the end if it is negative. -/
def elementAt? {α : Type} (items : List α) (position : Int) : Option α :=
  let place := if position < 0 then position + items.length else position
  if place < 0 then none else items[place.toNat]?

/-- The entries with `key` bound to `x`: in its old place if it has one, else at the end. -/
def bindEntry {α : Type} (key : String) (x : α) : List (String × α) → List (String × α)
  | [] => [(key, x)]
  | (k, y) :: rest => if k = key then (k, x) :: rest else (k, y) :: bindEntry key x rest

def bindEntries {α : Type} (entries bindings : List (String × α)) : List (String × α) :=
  bindings.foldl (fun entries binding => bindEntry binding.1 binding.2 entries) entries

theorem lookup_bindEntry {α : Type} (key other : String) (x : α) (entries : List (String × α)) :
    (bindEntry key x entries).lookup other =
      if other = key then some x else entries.lookup other := by
  induction entries with
  | nil =>
    by_cases h : other = key
    · simp [bindEntry, h]
    · have hb : (other == key) = false := by simpa using h
      simp [bindEntry, List.lookup_cons, h, hb]
  | cons entry rest ih =>
    obtain ⟨k, y⟩ := entry
    by_cases h : other = k
    · subst h
      by_cases hk : other = key <;> simp [bindEntry, hk]
    · have hb : (other == k) = false := by simpa using h
      by_cases hk : k = key
      · subst hk
        simp [bindEntry, List.lookup_cons, h, hb]
      · simp [bindEntry, hk, List.lookup_cons, hb, ih]

theorem mem_of_lookup {α : Type} {key : String} {x : α} {entries : List (String × α)}
    (h : entries.lookup key = some x) : (key, x) ∈ entries := by
  obtain ⟨before, after, rfl, -⟩ := List.lookup_eq_some_iff.1 h
  simp

namespace Value

def kind : Value → Kind
  | .null => .null
  | .bool _ => .bool
  | .int _ => .int
  | .float _ => .float
  | .string _ => .string
  | .array _ => .array
  | .dictionary _ => .dictionary
  | .foreign _ => .foreign

def isNull : Value → Bool
  | .null => true
  | _ => false

/-- A dictionary of the given entries; of entries with one key the last counts, in the place of the
first. -/
def ofEntries (entries : List (String × Value)) : Value := .dictionary (bindEntries [] entries)

def asList? : Value → Option (List Value)
  | .array items => some items
  | _ => none

def asEntries? : Value → Option (List (String × Value))
  | .dictionary entries => some entries
  | _ => none

@[simp] theorem isNull_iff (v : Value) : v.isNull = true ↔ v = .null := by
  cases v <;> simp [isNull]

end Value

end Templating
