import Mathlib.Data.List.Induction
import Templating.Cache

/-!
# What a cache holds

All that a cache answers can be told from what was asked of it since it was last cleared, and from
the answers to that.  The keys that it holds are those used last, as many as there is room for; a
use is a `put`, or a `get` that finds something.  Under each of them is what was last put there.
-/

namespace Templating.Cache

variable {κ α : Type}

/-! ## Operations and answers -/

inductive Operation (κ α : Type)
  | put (key : κ) (x : α)
  | get (key : κ)
  | contains (key : κ)
  | size
  | stats
  | clear
deriving DecidableEq, Repr

structure Stats where
  hits : Nat
  misses : Nat
  size : Nat
  capacity : Option Nat
deriving DecidableEq, Repr

inductive Answer (α : Type)
  | done
  | found (x : Option α)
  | holds (is : Bool)
  | size (n : Nat)
  | stats (counts : Stats)
deriving DecidableEq, Repr

namespace Operation

def isClear : Operation κ α → Bool
  | clear => true
  | _ => false

/-- The operation only looks at what is there. -/
def looksOn : Operation κ α → Bool
  | contains _ | size | stats => true
  | _ => false

end Operation

/-- Operations with the answers to them, the latest first. -/
abbrev History (κ α : Type) := List (Operation κ α × Answer α)

section Operations

variable [BEq κ]

def perform (c : Cache κ α) : Operation κ α → Answer α × Cache κ α
  | .put key x => (.done, c.put key x)
  | .get key => (.found (c.get key).1, (c.get key).2)
  | .contains key => (.holds (c.contains key), c)
  | .size => (.size c.size, c)
  | .stats => (.stats ⟨c.hits, c.misses, c.size, c.capacity⟩, c)
  | .clear => (.done, c.clear)

def carryOut (c : Cache κ α) (operations : List (Operation κ α)) : History κ α × Cache κ α :=
  operations.foldl
    (fun (past, now) operation =>
      let (answer, next) := now.perform operation
      ((operation, answer) :: past, next))
    ([], c)

end Operations

/-! ## Histories -/

/-- As many of the keys as there is room for. -/
def firstOf (limit : Option Nat) (keys : List κ) : List κ :=
  match limit with
  | none => keys
  | some n => keys.take n

namespace History

/-- The key that an operation used, if it used one. -/
def usedKey? : Operation κ α × Answer α → Option κ
  | (.put key _, _) => some key
  | (.get key, .found (some _)) => some key
  | _ => none

def isLookup : Operation κ α × Answer α → Bool
  | (.get _, _) => true
  | _ => false

def isHit : Operation κ α × Answer α → Bool
  | (.get _, .found (some _)) => true
  | _ => false

/-- What came after the cache was last cleared. -/
def sinceClear (h : History κ α) : History κ α := h.takeWhile fun entry => !entry.1.isClear

def uses (h : History κ α) : List κ := h.sinceClear.filterMap usedKey?

def lookups (h : History κ α) : Nat := h.sinceClear.countP isLookup

def hits (h : History κ α) : Nat := h.sinceClear.countP isHit

variable [BEq κ]

def putUnder? (key : κ) : Operation κ α × Answer α → Option α
  | (.put other x, _) => if other == key then some x else none
  | _ => none

/-- What was last put under the key. -/
def latest? (h : History κ α) (key : κ) : Option α := h.sinceClear.findSome? (putUnder? key)

/-- The keys used last, each once, as many as there is room for; the latest comes first. -/
def recent (limit : Option Nat) (h : History κ α) : List κ := firstOf limit h.uses.eraseDups

def find? (limit : Option Nat) (h : History κ α) (key : κ) : Option α :=
  if (h.recent limit).contains key then h.latest? key else none

/-- The answer that a cache with this history owes. -/
def answer (limit : Option Nat) (h : History κ α) : Operation κ α → Answer α
  | .put .. | .clear => .done
  | .get key => .found (h.find? limit key)
  | .contains key => .holds ((h.recent limit).contains key)
  | .size => .size (h.recent limit).length
  | .stats => .stats ⟨h.hits, h.lookups - h.hits, (h.recent limit).length, limit⟩

end History

/-! ## Lists of keys -/

section Keys

variable [BEq κ] [LawfulBEq κ]

theorem filter_eraseDups (p : κ → Bool) (keys : List κ) :
    (keys.filter p).eraseDups = keys.eraseDups.filter p := by
  induction keys generalizing p with
  | nil => rfl
  | cons key rest ih =>
      cases keep : p key with
      | true =>
          rw [List.filter_cons_of_pos keep, List.eraseDups_cons, List.eraseDups_cons,
            List.filter_cons_of_pos keep, List.filter_filter, ih, ih, List.filter_filter]
          congr 2
          funext other
          exact Bool.and_comm _ _
      | false =>
          have apart : (fun other => p other && !(other == key)) = p := by
            funext other
            cases same : other == key with
            | true => rw [eq_of_beq same, keep]; rfl
            | false => simp
          rw [List.filter_cons_of_neg (by simp [keep]), List.eraseDups_cons,
            List.filter_cons_of_neg (by simp [keep]), ih, ih, List.filter_filter, apart]

theorem nodup_eraseDups (keys : List κ) : keys.eraseDups.Nodup := by
  induction keys with
  | nil => exact .nil
  | cons key rest ih =>
      rw [List.eraseDups_cons, filter_eraseDups, List.nodup_cons]
      exact ⟨fun member => by simp at member, ih.filter _⟩

/-- Of the first keys, one less remains in front without one of them. -/
theorem take_filter_take {keys : List κ} (distinct : keys.Nodup) (key : κ) (n : Nat) :
    ((keys.take (n + 1)).filter fun other => !(other == key)).take n =
      (keys.filter fun other => !(other == key)).take n := by
  induction keys generalizing n with
  | nil => rfl
  | cons first rest ih =>
      obtain ⟨absent, distinct⟩ := List.nodup_cons.1 distinct
      rw [List.take_succ_cons]
      cases same : first == key with
      | true =>
          have kept : (rest.filter fun other => !(other == key)) = rest := by
            refine List.filter_eq_self.2 fun other member => ?_
            rw [← eq_of_beq same]
            have differ : other ≠ first := fun h => absent (h ▸ member)
            simpa using differ
          have kept' : ((rest.take n).filter fun other => !(other == key)) = rest.take n :=
            List.filter_eq_self.2 fun other member =>
              List.filter_eq_self.1 kept other (List.mem_of_mem_take member)
          rw [List.filter_cons_of_neg (by simp [same]), List.filter_cons_of_neg (by simp [same]),
            kept, kept', List.take_take, Nat.min_self]
      | false =>
          rw [List.filter_cons_of_pos (by simp [same]), List.filter_cons_of_pos (by simp [same])]
          cases n with
          | zero => rfl
          | succ n => rw [List.take_succ_cons, List.take_succ_cons, ih distinct]

/-- To use a key of those that there is room for is to use it of all. -/
theorem firstOf_use (limit : Option Nat) {keys : List κ} (distinct : keys.Nodup) (key : κ) :
    firstOf limit (key :: (firstOf limit keys).filter fun other => !(other == key)) =
      firstOf limit (key :: keys.filter fun other => !(other == key)) := by
  match limit with
  | none | some 0 => rfl
  | some (n + 1) => exact congrArg (key :: ·) (take_filter_take distinct key n)

/-- No room is needed to use a key that is there already. -/
theorem firstOf_use_of_mem {limit : Option Nat} {keys : List κ} (distinct : keys.Nodup) {key : κ}
    (member : key ∈ firstOf limit keys) :
    key :: (firstOf limit keys).filter (fun other => !(other == key)) =
      firstOf limit (key :: keys.filter fun other => !(other == key)) := by
  rw [← firstOf_use limit distinct key]
  match limit with
  | none => rfl
  | some n =>
      -- The key itself is taken out, which makes the room that it needs in front.
      have fewer : ((keys.take n).filter fun other => !(other == key)).length <
          (keys.take n).length :=
        List.length_filter_lt_length_iff_exists.2 ⟨key, member, by simp⟩
      have bound : (keys.take n).length ≤ n := List.length_take_le n keys
      refine (List.take_of_length_le ?_).symm
      rw [List.length_cons]
      exact Nat.le_trans fewer bound

end Keys

/-! ## Entries of a cache -/

theorem mem_renew_iff [BEq κ] [LawfulBEq κ] {entries : List (κ × α)} {key : κ} {x : α}
    {entry : κ × α} :
    entry ∈ renew entries key x ↔ entry ∈ entries ∧ entry.1 ≠ key ∨ entry = (key, x) := by
  simp [renew]

theorem mem_of_mem_fit {capacity : Option Nat} {entries : List (κ × α)} {entry : κ × α}
    (h : entry ∈ fit capacity entries) : entry ∈ entries := by
  cases capacity with
  | none => exact h
  | some n => exact List.mem_of_mem_drop h

theorem mem_of_find? [BEq κ] [LawfulBEq κ] {c : Cache κ α} {key : κ} {x : α}
    (h : c.find? key = some x) : (key, x) ∈ c.entries := by
  obtain ⟨before, after, split, -⟩ := List.lookup_eq_some_iff.1 h
  simp [split]

/-! ## Keys of a cache -/

/-- The keys of a cache in the order of their last use, the latest first. -/
def keys (c : Cache κ α) : List κ := (c.entries.map (·.1)).reverse

theorem keys_fit (capacity : Option Nat) (entries : List (κ × α)) :
    ((fit capacity entries).map (·.1)).reverse =
      firstOf capacity (entries.map (·.1)).reverse := by
  cases capacity with
  | none => rfl
  | some n =>
      change ((entries.drop _).map (·.1)).reverse = (entries.map (·.1)).reverse.take n
      rw [List.take_reverse, List.map_drop, List.length_map]

theorem length_keys (c : Cache κ α) : c.keys.length = c.size := by
  rw [keys, List.length_reverse, List.length_map, size]

section Keys

variable [BEq κ]

theorem keys_renew (entries : List (κ × α)) (key : κ) (x : α) :
    ((renew entries key x).map (·.1)).reverse =
      key :: (entries.map (·.1)).reverse.filter fun other => !(other == key) := by
  rw [renew, List.map_append, List.reverse_append, List.filter_reverse, List.filter_map]
  rfl

theorem contains_eq [LawfulBEq κ] (c : Cache κ α) (key : κ) :
    c.contains key = c.keys.contains key := by
  rw [Bool.eq_iff_iff, contains, find?, List.lookup_isSome_iff, keys, List.contains_iff_mem,
    List.mem_reverse, List.mem_map]
  simp

end Keys

/-! ## A cache and its history -/

section Histories

variable [BEq κ] {limit : Option Nat} {h : History κ α}

theorem History.recent_eq_nil (unused : h.uses = []) : h.recent limit = [] := by
  rw [recent, unused]
  cases limit with
  | none => rfl
  | some n => exact List.take_nil

theorem History.recent_of_use [LawfulBEq κ] {later : History κ α} {key : κ}
    (used : later.uses = key :: h.uses) :
    later.recent limit =
      firstOf limit (key :: (h.recent limit).filter fun other => !(other == key)) := by
  rw [recent, used, List.eraseDups_cons, filter_eraseDups, recent,
    firstOf_use limit (nodup_eraseDups h.uses) key]

theorem History.recent_of_use_of_mem [LawfulBEq κ] {later : History κ α} {key : κ}
    (used : later.uses = key :: h.uses) (member : key ∈ h.recent limit) :
    later.recent limit = key :: (h.recent limit).filter fun other => !(other == key) := by
  rw [recent, used, List.eraseDups_cons, filter_eraseDups, recent,
    firstOf_use_of_mem (nodup_eraseDups h.uses) member]

theorem History.latest?_put (key other : κ) (x : α) (answer : Answer α) :
    latest? ((.put key x, answer) :: h) other =
      if key == other then some x else h.latest? other := by
  unfold latest? sinceClear
  rw [List.takeWhile_cons_of_pos rfl, List.findSome?_cons, putUnder?]
  split <;> simp_all

end Histories

/-- The cache is what its history makes of it. -/
structure Tracks [BEq κ] (limit : Option Nat) (h : History κ α) (c : Cache κ α) : Prop where
  capacity : c.capacity = limit
  keys : c.keys = h.recent limit
  values : ∀ entry ∈ c.entries, h.latest? entry.1 = some entry.2
  hits : c.hits = h.hits
  lookups : c.hits + c.misses = h.lookups

namespace Tracks

variable [BEq κ] {limit : Option Nat} {h : History κ α} {c : Cache κ α}

theorem of_nothing {h : History κ α} (nothing : h.sinceClear = []) :
    Tracks limit h (Cache.empty limit) where
  capacity := rfl
  keys := by
    have unused : h.uses = [] := by rw [History.uses, nothing, List.filterMap_nil]
    rw [History.recent_eq_nil unused, Cache.keys, Cache.empty, List.map_nil, List.reverse_nil]
  values _ member := nomatch member
  hits := by rw [History.hits, nothing]; rfl
  lookups := by rw [History.lookups, nothing]; rfl

variable [LawfulBEq κ]

theorem put (tracks : Tracks limit h c) (key : κ) (x : α) :
    Tracks limit ((.put key x, .done) :: h) (c.put key x) where
  capacity := tracks.capacity
  keys := by
    rw [Cache.keys, Cache.put, keys_fit, tracks.capacity, keys_renew, ← Cache.keys, tracks.keys]
    exact (History.recent_of_use rfl).symm
  values entry member := by
    rw [History.latest?_put]
    rcases mem_renew_iff.1 (mem_of_mem_fit member) with ⟨old, other⟩ | rfl
    · rw [if_neg (by simpa using Ne.symm other)]
      exact tracks.values entry old
    · rw [if_pos (by simp)]
  hits := tracks.hits
  lookups := tracks.lookups

theorem get (tracks : Tracks limit h c) (key : κ) :
    Tracks limit ((.get key, .found (c.get key).1) :: h) (c.get key).2 := by
  cases found : c.find? key with
  | none =>
      have missed : c.get key = (none, { c with misses := c.misses + 1 }) := by
        rw [Cache.get, found]
      rw [missed]
      refine ⟨tracks.capacity, tracks.keys, tracks.values, tracks.hits, ?_⟩
      rw [History.lookups, History.sinceClear, List.takeWhile_cons_of_pos rfl,
        List.countP_cons_of_pos rfl]
      exact congrArg (· + 1) tracks.lookups
  | some x =>
      have looked : c.get key = (some x,
          { c with entries := renew c.entries key x, hits := c.hits + 1 }) := by
        rw [Cache.get, found]
      have held := mem_of_find? found
      have known : key ∈ h.recent limit := by
        rw [← tracks.keys, Cache.keys, List.mem_reverse]
        exact List.mem_map_of_mem held
      rw [looked]
      refine ⟨tracks.capacity, ?_, fun entry member => ?_, ?_, ?_⟩
      · rw [Cache.keys, keys_renew, ← Cache.keys, tracks.keys]
        exact (History.recent_of_use_of_mem rfl known).symm
      -- The entry goes to the end with the value that it had, so what was last put is still right.
      · rcases mem_renew_iff.1 member with ⟨old, -⟩ | rfl
        · exact tracks.values entry old
        · exact tracks.values _ held
      · rw [History.hits, History.sinceClear, List.takeWhile_cons_of_pos rfl,
          List.countP_cons_of_pos rfl]
        exact congrArg (· + 1) tracks.hits
      · rw [History.lookups, History.sinceClear, List.takeWhile_cons_of_pos rfl,
          List.countP_cons_of_pos rfl]
        have counted := tracks.lookups
        rw [History.lookups, History.sinceClear] at counted
        change c.hits + 1 + c.misses = _
        omega

theorem perform (tracks : Tracks limit h c) (operation : Operation κ α) :
    Tracks limit ((operation, (c.perform operation).1) :: h) (c.perform operation).2 := by
  cases operation with
  | put key x => exact tracks.put key x
  | get key => exact tracks.get key
  | contains | size | stats =>
      exact ⟨tracks.capacity, tracks.keys, tracks.values, tracks.hits, tracks.lookups⟩
  | clear =>
      change Tracks limit _ (Cache.empty c.capacity)
      rw [tracks.capacity]
      exact of_nothing rfl

theorem find? (tracks : Tracks limit h c) (key : κ) : c.find? key = h.find? limit key := by
  rw [History.find?, ← tracks.keys, ← contains_eq, contains]
  cases found : c.find? key with
  | none => rfl
  | some x => exact (tracks.values _ (mem_of_find? found)).symm

/-- Without a limit, the keys are those of every `put`. -/
theorem mem_keys_iff (tracks : Tracks none h c) (key : κ) :
    key ∈ c.keys ↔ ∃ entry ∈ h.sinceClear, ∃ x, entry.1 = .put key x := by
  constructor
  · intro member
    obtain ⟨held, found, rfl⟩ := List.mem_map.1 (List.mem_reverse.1 member)
    have latest := tracks.values held found
    obtain ⟨entry, past, put⟩ := List.exists_of_findSome?_eq_some latest
    refine ⟨entry, past, ?_⟩
    obtain ⟨operation, answer⟩ := entry
    cases operation with
    | put other x =>
        rw [History.putUnder?] at put
        split at put
        · next same => exact ⟨x, by rw [eq_of_beq same]⟩
        · cases put
    | _ => cases put
  · rintro ⟨⟨_, answer⟩, past, x, rfl⟩
    rw [tracks.keys, History.recent, firstOf, List.mem_eraseDups]
    exact List.mem_filterMap.2 ⟨_, past, rfl⟩

/-- The history tells every answer. -/
theorem answer (tracks : Tracks limit h c) (operation : Operation κ α) :
    (c.perform operation).1 = h.answer limit operation := by
  have counted := tracks.lookups
  cases operation with
  | put | clear => rfl
  | get key =>
      rw [History.answer, ← tracks.find?, Cache.perform, Cache.get]
      cases c.find? key <;> rfl
  | contains key =>
      rw [History.answer, ← tracks.keys, ← contains_eq]
      rfl
  | size =>
      rw [History.answer, ← tracks.keys, length_keys]
      rfl
  | stats =>
      have misses : h.lookups - h.hits = c.misses := by
        rw [← tracks.hits]
        omega
      rw [History.answer, ← tracks.keys, length_keys, misses, ← tracks.hits, ← tracks.capacity]
      rfl

end Tracks

/-! ## Runs -/

section Runs

variable [BEq κ]

theorem carryOut_append (c : Cache κ α) (operations : List (Operation κ α))
    (operation : Operation κ α) :
    c.carryOut (operations ++ [operation]) =
      let (past, now) := c.carryOut operations
      ((operation, (now.perform operation).1) :: past, (now.perform operation).2) := by
  simp only [carryOut, List.foldl_append, List.foldl_cons, List.foldl_nil]

theorem operations_carryOut (c : Cache κ α) (operations : List (Operation κ α)) :
    (c.carryOut operations).1.map (·.1) = operations.reverse := by
  induction operations using List.reverseRecOn with
  | nil => rfl
  | append_singleton operations operation ih =>
      rw [carryOut_append, List.map_cons, ih, List.reverse_append]
      rfl

theorem tracks_carryOut [LawfulBEq κ] (limit : Option Nat) (operations : List (Operation κ α)) :
    Tracks limit ((empty limit).carryOut operations).1 ((empty limit).carryOut operations).2 := by
  induction operations using List.reverseRecOn with
  | nil => exact .of_nothing rfl
  | append_singleton operations operation ih =>
      rw [carryOut_append]
      exact ih.perform operation

end Runs

/-- The cache answers as its history says, and keeps what its history says. -/
structure Mirrors [BEq κ] (limit : Option Nat) (h : History κ α) (c : Cache κ α) : Prop where
  keys : c.keys = h.recent limit
  unlimited : limit = none → ∀ key, key ∈ c.keys ↔ ∃ entry ∈ h.sinceClear, ∃ x, entry.1 = .put key x
  find : ∀ key, c.find? key = h.find? limit key
  hits : c.hits = h.hits
  lookups : c.hits + c.misses = h.lookups
  answers : ∀ operation, (c.perform operation).1 = h.answer limit operation
  steady : ∀ operation, operation.looksOn = true → (c.perform operation).2 = c

/-- Whatever is asked of a cache, its history tells what it holds, under which keys and in which
order of use, what it counts, and how it answers next; to look at it changes nothing. -/
theorem carryOut_mirrors [BEq κ] [LawfulBEq κ] (limit : Option Nat)
    (positive : ∀ n, limit = some n → 1 ≤ n) (operations : List (Operation κ α)) :
    ∃ start : Cache κ α, ofLimit (limit.map Int.ofNat) = .ok start ∧
      (start.carryOut operations).1.map (·.1) = operations.reverse ∧
      Mirrors limit (start.carryOut operations).1 (start.carryOut operations).2 := by
  have made : ofLimit (limit.map Int.ofNat) = .ok (empty limit : Cache κ α) := by
    cases limit with
    | none => rfl
    | some n =>
        have large : ¬ (n : Int) < 1 := by
          have := positive n rfl
          omega
        rw [Option.map_some, ofLimit, Int.ofNat_eq_natCast, if_neg large, Int.toNat_natCast]
  have tracks := tracks_carryOut (κ := κ) (α := α) limit operations
  refine ⟨empty limit, made, operations_carryOut _ _, tracks.keys, ?_, tracks.find?, tracks.hits,
    tracks.lookups, tracks.answer, ?_⟩
  · rintro rfl key
    exact tracks.mem_keys_iff key
  · intro operation only
    cases operation with
    | contains | size | stats => rfl
    | put | get | clear => cases only

/-- A key that is put again, one that is found and so outlives another, and one that comes back. -/
def crowdedOperations : List (Operation String Nat) :=
  [.put "a" 1, .put "b" 2, .put "a" 3, .get "b", .put "c" 0, .get "a", .contains "b", .stats,
    .put "a" 4, .get "d"]

theorem carryOut_crowded :
    (∀ n, some 2 = some n → 1 ≤ n) ∧
      ∃ start : Cache String Nat, ofLimit (some 2) = .ok start ∧
        (start.carryOut crowdedOperations).1.map (·.1) = crowdedOperations.reverse ∧
        Mirrors (some 2) (start.carryOut crowdedOperations).1
          (start.carryOut crowdedOperations).2 ∧
        (start.carryOut crowdedOperations).2.keys = ["a", "c"] := by
  have positive : ∀ n, some 2 = some n → 1 ≤ n := by
    rintro n ⟨⟩
    decide
  obtain ⟨start, made, asked, mirrors⟩ := carryOut_mirrors (some 2) positive crowdedOperations
  refine ⟨positive, start, made, asked, mirrors, ?_⟩
  cases made
  decide

end Templating.Cache
