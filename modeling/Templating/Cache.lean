import Templating.Error

/-!
# Caches

A cache keeps answers under keys. With a capacity it holds at most so many, and makes room by
dropping the one that has gone unused for longest; a use is a `put`, or a `get` that finds
something.
-/

namespace Templating

structure Cache (κ α : Type) where
  capacity : Option Nat
  /-- The entries in the order of their last use, the latest at the end. -/
  entries : List (κ × α)
  hits : Nat
  misses : Nat

namespace Cache

variable {κ α : Type}

def empty (capacity : Option Nat) : Cache κ α := ⟨capacity, [], 0, 0⟩

/-- An empty cache that holds at most `limit` entries; the limit must be positive. -/
def ofLimit (limit : Option Int) : Except Error (Cache κ α) :=
  match limit with
  | none => .ok (empty none)
  | some n => if n < 1 then .error (.fault (.cacheLimit n)) else .ok (empty (some n.toNat))

def size (c : Cache κ α) : Nat := c.entries.length

def clear (c : Cache κ α) : Cache κ α := empty c.capacity

variable [BEq κ]

def find? (c : Cache κ α) (key : κ) : Option α := c.entries.lookup key

def contains (c : Cache κ α) (key : κ) : Bool := (c.find? key).isSome

/-- The entries with `key` bound to `x` and put last. -/
def renew (entries : List (κ × α)) (key : κ) (x : α) : List (κ × α) :=
  entries.filter (fun entry => !(entry.1 == key)) ++ [(key, x)]

def get (c : Cache κ α) (key : κ) : Option α × Cache κ α :=
  match c.find? key with
  | none => (none, { c with misses := c.misses + 1 })
  | some x => (some x, { c with entries := renew c.entries key x, hits := c.hits + 1 })

/-- The latest entries, as many as the capacity allows. -/
def fit (capacity : Option Nat) (entries : List (κ × α)) : List (κ × α) :=
  match capacity with
  | none => entries
  | some n => entries.drop (entries.length - n)

def put (c : Cache κ α) (key : κ) (x : α) : Cache κ α :=
  { c with entries := fit c.capacity (renew c.entries key x) }

end Cache

def capacityText : Option Nat → String
  | none => "None"
  | some n => toString n

def Cache.text {κ α : Type} (c : Cache κ α) : String :=
  s!"<ASTCache size={c.size} maxsize={capacityText c.capacity}>"

end Templating
