import Mathlib.Data.List.Perm.Subperm
import Templating.Proofs.Value.Data
import Templating.Value.Equality

/-!
# Equality of values is a congruence

Values without objects and numbers are equal if one is the other with the entries of dictionaries in
another order, at any depth, and not otherwise.  Equal values have the same truth and the same count,
hold the same values, and every path leads to equal values in them.
-/

namespace Templating

namespace Value

/-! ## Values that equality decides -/

/-- There is no object and no number in the value, and no dictionary with a key twice. -/
inductive IsDiscrete : Value → Prop
  | null : IsDiscrete .null
  | bool (b : Bool) : IsDiscrete (.bool b)
  | int (n : Int) : IsDiscrete (.int n)
  | string (s : String) : IsDiscrete (.string s)
  | array {items : List Value} : (∀ v ∈ items, IsDiscrete v) → IsDiscrete (.array items)
  | dictionary {entries : List (String × Value)} : (entries.map (·.1)).Nodup →
      (∀ entry ∈ entries, IsDiscrete entry.2) → IsDiscrete (.dictionary entries)

/-- One value is the other with the entries of dictionaries in another order, at any depth. -/
inductive Rearranged : Value → Value → Prop
  | null : Rearranged .null .null
  | bool (b : Bool) : Rearranged (.bool b) (.bool b)
  | int (n : Int) : Rearranged (.int n) (.int n)
  | string (s : String) : Rearranged (.string s) (.string s)
  | array {xs ys : List Value} : xs.length = ys.length →
      (∀ (i : Nat) (x y : Value), xs[i]? = some x → ys[i]? = some y → Rearranged x y) →
      Rearranged (.array xs) (.array ys)
  | dictionary {xs ys : List (String × Value)} : (xs.map (·.1)).Perm (ys.map (·.1)) →
      (∀ key x y, (key, x) ∈ xs → (key, y) ∈ ys → Rearranged x y) →
      Rearranged (.dictionary xs) (.dictionary ys)

/-! ## Keys -/

theorem exists_lookup_of_mem {entries : List (String × Value)} {key : String}
    (h : key ∈ entries.map (·.1)) : ∃ x, entries.lookup key = some x := by
  cases found : entries.lookup key with
  | some x => exact ⟨x, rfl⟩
  | none =>
      obtain ⟨entry, member, rfl⟩ := List.mem_map.1 h
      have absent := List.lookup_eq_none_iff.1 found entry member
      simp at absent

theorem lookup_of_mem {entries : List (String × Value)} (distinct : (entries.map (·.1)).Nodup)
    {key : String} {x : Value} (member : (key, x) ∈ entries) : entries.lookup key = some x := by
  induction entries with
  | nil => cases member
  | cons entry rest ih =>
      obtain ⟨k, y⟩ := entry
      rw [List.map_cons, List.nodup_cons] at distinct
      rcases List.mem_cons.1 member with same | inside
      · cases same
        exact List.lookup_cons_self
      · have other : (key == k) = false := by
          rw [beq_eq_false_iff_ne]
          rintro rfl
          exact distinct.1 (List.mem_map.2 ⟨(key, x), inside, rfl⟩)
        rw [List.lookup_cons, other]
        exact ih distinct.2 inside

/-! ## Equality of collections -/

theorem sameItems_iff {xs ys : List Value} :
    sameItems xs ys = true ↔
      xs.length = ys.length ∧
        ∀ (i : Nat) (x y : Value), xs[i]? = some x → ys[i]? = some y → x.same y = true := by
  induction xs generalizing ys with
  | nil => cases ys <;> simp [sameItems]
  | cons x xs ih =>
      cases ys with
      | nil => simp [sameItems]
      | cons y ys =>
          rw [sameItems, Bool.and_eq_true, ih, List.length_cons, List.length_cons,
            Nat.add_right_cancel_iff]
          constructor
          · rintro ⟨own, length, others⟩
            refine ⟨length, fun i a b ha hb => ?_⟩
            cases i with
            | zero =>
                cases ha
                cases hb
                exact own
            | succ i => exact others i a b ha hb
          · rintro ⟨length, all⟩
            exact ⟨all 0 x y rfl rfl, length, fun i a b ha hb => all (i + 1) a b ha hb⟩

theorem sameEntries_iff {xs ys : List (String × Value)} :
    sameEntries xs ys = true ↔
      ∀ key x, (key, x) ∈ xs → ∃ y, ys.lookup key = some y ∧ x.same y = true := by
  induction xs with
  | nil => simp [sameEntries]
  | cons entry rest ih =>
      obtain ⟨k, v⟩ := entry
      have own : (sameEntries ((k, v) :: rest) ys = true) ↔
          (∃ y, ys.lookup k = some y ∧ v.same y = true) ∧ sameEntries rest ys = true := by
        cases found : ys.lookup k <;> simp [sameEntries, found]
      rw [own, ih]
      constructor
      · rintro ⟨first, others⟩ key x member
        rcases List.mem_cons.1 member with same | inside
        · cases same
          exact first
        · exact others key x inside
      · intro all
        exact ⟨all k v List.mem_cons_self,
          fun key x member => all key x (List.mem_cons_of_mem _ member)⟩

theorem same_array_iff {xs ys : List Value} :
    (array xs).same (array ys) = true ↔
      xs.length = ys.length ∧
        ∀ (i : Nat) (x y : Value), xs[i]? = some x → ys[i]? = some y → x.same y = true :=
  sameItems_iff

theorem same_dictionary_iff {xs ys : List (String × Value)} :
    (dictionary xs).same (dictionary ys) = true ↔
      xs.length = ys.length ∧
        ∀ key x, (key, x) ∈ xs → ∃ y, ys.lookup key = some y ∧ x.same y = true := by
  change (xs.length == ys.length && sameEntries xs ys) = true ↔ _
  rw [Bool.and_eq_true, beq_iff_eq, sameEntries_iff]

/-! ## Rearrangement -/

namespace Rearranged

variable {u v w : Value}

theorem kind_eq (h : v.Rearranged w) : v.kind = w.kind := by
  cases h <;> rfl

theorem symm (h : v.Rearranged w) : w.Rearranged v := by
  induction h with
  | null => exact .null
  | bool b => exact .bool b
  | int n => exact .int n
  | string s => exact .string s
  | array length _ ih => exact .array length.symm fun i y x hy hx => ih i x y hx hy
  | dictionary keys _ ih => exact .dictionary keys.symm fun key y x hy hx => ih key x y hx hy

theorem trans (h : u.Rearranged v) (h' : v.Rearranged w) : u.Rearranged w := by
  induction h generalizing w with
  | null | bool | int | string => exact h'
  | @array xs ys length _ ih =>
      cases h' with
      | @array _ zs length' parts' =>
          refine .array (length.trans length') fun i x z hx hz => ?_
          have inside : i < ys.length := length ▸ (List.getElem?_eq_some_iff.1 hx).1
          exact ih i x ys[i] hx (List.getElem?_eq_getElem inside)
            (parts' i ys[i] z (List.getElem?_eq_getElem inside) hz)
  | @dictionary xs ys keys _ ih =>
      cases h' with
      | @dictionary _ zs keys' parts' =>
          refine .dictionary (keys.trans keys') fun key x z hx hz => ?_
          have named : key ∈ ys.map (·.1) := keys.subset (List.mem_map.2 ⟨_, hx, rfl⟩)
          obtain ⟨y, found⟩ := exists_lookup_of_mem named
          have hy := mem_of_lookup found
          exact ih key x y hx hy (parts' key y z hy hz)

/-- What is equal to a value is equal to it rearranged. -/
theorem same_right (h : v.Rearranged w) (x : Value) (equal : x.same v = true) :
    x.same w = true := by
  induction h generalizing x with
  | null | bool | int | string => exact equal
  | @array ys zs length _ ih =>
      cases x with
      | array xs =>
          rw [same_array_iff] at equal ⊢
          refine ⟨equal.1.trans length, fun i a c ha hc => ?_⟩
          have inside : i < ys.length := equal.1 ▸ (List.getElem?_eq_some_iff.1 ha).1
          have hb := List.getElem?_eq_getElem inside
          exact ih i ys[i] c hb hc a (equal.2 i a ys[i] ha hb)
      | _ => cases equal
  | @dictionary ys zs keys _ ih =>
      cases x with
      | dictionary xs =>
          rw [same_dictionary_iff] at equal ⊢
          have length : ys.length = zs.length := by simpa using keys.length_eq
          refine ⟨equal.1.trans length, fun key a ha => ?_⟩
          obtain ⟨b, found, own⟩ := equal.2 key a ha
          have hb := mem_of_lookup found
          obtain ⟨c, found'⟩ := exists_lookup_of_mem (keys.subset (List.mem_map.2 ⟨_, hb, rfl⟩))
          exact ⟨c, found', ih key b c hb (mem_of_lookup found') a own⟩
      | _ => cases equal

theorem same_eq (h : v.Rearranged w) (x : Value) : x.same v = x.same w :=
  Bool.eq_iff_iff.2 ⟨h.same_right x, h.symm.same_right x⟩

end Rearranged

theorem IsDiscrete.same_self {v : Value} (h : v.IsDiscrete) : v.same v = true := by
  induction h with
  | null => rfl
  | bool b => exact beq_self_eq_true b
  | int n => exact beq_self_eq_true n
  | string s => exact beq_self_eq_true s
  | array _ ih =>
      refine same_array_iff.2 ⟨rfl, fun i x y hx hy => ?_⟩
      cases hx.symm.trans hy
      exact ih x (List.mem_of_getElem? hx)
  | dictionary distinct _ ih =>
      refine same_dictionary_iff.2 ⟨rfl, fun key x member => ?_⟩
      exact ⟨x, lookup_of_mem distinct member, ih (key, x) member⟩

theorem IsDiscrete.rearranged_of_same {v : Value} (hv : v.IsDiscrete) :
    ∀ w : Value, w.IsDiscrete → v.same w = true → v.Rearranged w := by
  induction hv with
  | null =>
      intro w hw equal
      cases hw with
      | null => exact .null
      | _ => cases equal
  | bool b =>
      intro w hw equal
      cases hw with
      | bool b' =>
          obtain rfl : b = b' := eq_of_beq equal
          exact .bool b
      | _ => cases equal
  | int n =>
      intro w hw equal
      cases hw with
      | int n' =>
          obtain rfl : n = n' := eq_of_beq equal
          exact .int n
      | _ => cases equal
  | string s =>
      intro w hw equal
      cases hw with
      | string s' =>
          obtain rfl : s = s' := eq_of_beq equal
          exact .string s
      | _ => cases equal
  | @array xs _ ih =>
      intro w hw equal
      cases hw with
      | @array ys all' =>
          rw [same_array_iff] at equal
          refine .array equal.1 fun i x y hx hy => ?_
          exact ih x (List.mem_of_getElem? hx) y (all' y (List.mem_of_getElem? hy))
            (equal.2 i x y hx hy)
      | _ => cases equal
  | @dictionary xs distinct _ ih =>
      intro w hw equal
      cases hw with
      | @dictionary ys distinct' all' =>
          rw [same_dictionary_iff] at equal
          obtain ⟨length, each⟩ := equal
          -- All keys of the one are keys of the other, which has no more of them.
          have within : xs.map (·.1) ⊆ ys.map (·.1) := by
            intro key named
            obtain ⟨⟨_, x⟩, member, rfl⟩ := List.mem_map.1 named
            obtain ⟨y, found, -⟩ := each _ x member
            exact List.mem_map.2 ⟨_, mem_of_lookup found, rfl⟩
          have keys : (xs.map (·.1)).Perm (ys.map (·.1)) :=
            (distinct.subperm within).perm_of_length_le (by simp [length])
          refine .dictionary keys fun key x y hx hy => ?_
          obtain ⟨y', found, own⟩ := each key x hx
          cases (lookup_of_mem distinct' hy).symm.trans found
          exact ih (key, x) hx y (all' (key, y) hy) own
      | _ => cases equal

/-- Values are equal if one is a rearrangement of the other, and not otherwise. -/
theorem IsDiscrete.same_iff {v w : Value} (hv : v.IsDiscrete) (hw : w.IsDiscrete) :
    v.same w = true ↔ v.Rearranged w :=
  ⟨hv.rearranged_of_same w hw, fun h => h.same_right v hv.same_self⟩

/-! ## What values show of themselves -/

theorem isEmpty_eq_of_length_eq {α : Type} {xs ys : List α} (h : xs.length = ys.length) :
    xs.isEmpty = ys.isEmpty := by
  rw [Bool.eq_iff_iff, List.isEmpty_iff_length_eq_zero, List.isEmpty_iff_length_eq_zero, h]

/-- Both have failed in the same way, or both have come to values that are related. -/
inductive Alike (R : Value → Value → Prop) : Except Error Value → Except Error Value → Prop
  | ok {v w : Value} : R v w → Alike R (.ok v) (.ok w)
  | error (e : Error) : Alike R (.error e) (.error e)

theorem Alike.bind {R S : Value → Value → Prop} {x y : Except Error Value} (h : Alike R x y)
    {f g : Value → Except Error Value} (each : ∀ v w, R v w → Alike S (f v) (g w)) :
    Alike S (x >>= f) (y >>= g) := by
  cases h with
  | ok related => exact each _ _ related
  | error e => exact .error e

namespace Rearranged

variable {v w : Value}

theorem truthy_eq (h : v.Rearranged w) : v.truthy = w.truthy := by
  cases h with
  | null | bool | int | string => rfl
  | array length => rw [truthy, truthy, isEmpty_eq_of_length_eq length]
  | dictionary keys =>
      rw [truthy, truthy, isEmpty_eq_of_length_eq (by simpa using keys.length_eq)]

theorem count_eq (h : v.Rearranged w) : v.count = w.count := by
  cases h with
  | null | bool | int | string => rfl
  | array length => exact congrArg Except.ok length
  | dictionary keys => exact congrArg Except.ok (by simpa using keys.length_eq)

theorem element {xs ys : List Value} (length : xs.length = ys.length)
    (each : ∀ (i : Nat) (x y : Value), xs[i]? = some x → ys[i]? = some y → x.Rearranged y)
    (position : Int) : (element xs position).Rearranged (element ys position) := by
  unfold Value.element elementAt?
  rw [length]
  dsimp only
  generalize (if position < 0 then position + ys.length else position) = place
  split
  · exact .null
  · generalize place.toNat = i
    cases hx : xs[i]? with
    | none =>
        have outside : ys[i]? = none := by
          rw [List.getElem?_eq_none_iff] at hx ⊢
          omega
        rw [outside]
        exact .null
    | some x =>
        have inside : i < ys.length := length ▸ (List.getElem?_eq_some_iff.1 hx).1
        rw [List.getElem?_eq_getElem inside]
        exact each i x ys[i] hx (List.getElem?_eq_getElem inside)

theorem lookup_isSome_eq {xs ys : List (String × Value)}
    (keys : (xs.map (·.1)).Perm (ys.map (·.1))) (key : String) :
    (xs.lookup key).isSome = (ys.lookup key).isSome := by
  have half {xs ys : List (String × Value)} (keys : (xs.map (·.1)).Perm (ys.map (·.1)))
      (h : (xs.lookup key).isSome = true) : (ys.lookup key).isSome = true := by
    obtain ⟨x, found⟩ := Option.isSome_iff_exists.1 h
    have named := keys.subset (List.mem_map.2 ⟨_, mem_of_lookup found, rfl⟩)
    obtain ⟨y, found'⟩ := exists_lookup_of_mem named
    rw [found']
    rfl
  exact Bool.eq_iff_iff.2 ⟨half keys, half keys.symm⟩

theorem entry {xs ys : List (String × Value)} (keys : (xs.map (·.1)).Perm (ys.map (·.1)))
    (each : ∀ key x y, (key, x) ∈ xs → (key, y) ∈ ys → x.Rearranged y) (key : String) :
    (entry xs key).Rearranged (entry ys key) := by
  unfold Value.entry
  have both := lookup_isSome_eq keys key
  cases found : xs.lookup key with
  | none =>
      rw [found, Option.isSome_none, eq_comm, Option.isSome_eq_false_iff, Option.isNone_iff_eq_none]
        at both
      rw [both]
      exact .null
  | some x =>
      rw [found, Option.isSome_some, eq_comm, Option.isSome_iff_exists] at both
      obtain ⟨y, found'⟩ := both
      rw [found']
      exact each key x y (mem_of_lookup found) (mem_of_lookup found')

/-- The same step leads to rearranged values, or fails in both. -/
theorem get (h : v.Rearranged w) (step : Step) : Alike Rearranged (v.get step) (w.get step) := by
  cases h with
  | null | bool | int | string => exact .ok .null
  | array length each =>
      cases step with
      | index position => exact .ok (element length each position)
      | key name =>
          simp only [Value.get]
          split
          · exact .ok (element length each _)
          · exact .ok .null
          · exact .ok .null
  | dictionary keys each =>
      cases step with
      | key name => exact .ok (entry keys each name)
      | index position =>
          simp only [Value.get]
          cases integerText position with
          | ok name => exact .ok (entry keys each name)
          | error e => exact .error e

theorem fetch (h : v.Rearranged w) (path : List Step) :
    Alike Rearranged (v.fetch path) (w.fetch path) := by
  induction path generalizing v w with
  | nil => exact .ok h
  | cons step rest ih =>
      rw [Value.fetch, Value.fetch]
      refine (h.get step).bind fun a b related => ?_
      have null : a.isNull = b.isNull := by cases related <;> rfl
      rw [null]
      split
      · exact .ok .null
      · exact ih related

theorem any_same {xs ys : List Value} (length : xs.length = ys.length)
    (each : ∀ (i : Nat) (x y : Value), xs[i]? = some x → ys[i]? = some y → x.Rearranged y)
    {x : Value} (held : xs.any x.same = true) : ys.any x.same = true := by
  obtain ⟨a, member, equal⟩ := List.any_eq_true.1 held
  obtain ⟨i, inside, rfl⟩ := List.mem_iff_getElem.1 member
  have inside' : i < ys.length := length ▸ inside
  have related := each i xs[i] ys[i] (List.getElem?_eq_getElem inside)
    (List.getElem?_eq_getElem inside')
  exact List.any_eq_true.2 ⟨ys[i], List.getElem_mem inside', related.same_right x equal⟩

theorem contains_eq (h : v.Rearranged w) (x : Value) : v.contains x = w.contains x := by
  cases h with
  | null | bool | int | string => rfl
  | array length each =>
      have back (i : Nat) (a b : Value) (ha : _[i]? = some a) (hb : _[i]? = some b) :
          a.Rearranged b := (each i b a hb ha).symm
      exact congrArg Except.ok
        (Bool.eq_iff_iff.2 ⟨any_same length each, any_same length.symm back⟩)
  | dictionary keys =>
      simp only [Value.contains]
      cases x.text with
      | error e => rfl
      | ok key => exact congrArg Except.ok (lookup_isSome_eq keys key)

end Rearranged

theorem IsDiscrete.get {v : Value} (h : v.IsDiscrete) {step : Step} {w : Value}
    (gives : v.get step = .ok w) : w.IsDiscrete := by
  refine get_of .null ?_ ?_ ?_ gives
  · cases h <;> exact nofun
  · rintro items rfl
    cases h with
    | array all => exact all
  · rintro entries rfl
    cases h with
    | dictionary _ all => exact all

theorem IsDiscrete.fetch {v : Value} (h : v.IsDiscrete) {path : List Step} {w : Value}
    (gives : v.fetch path = .ok w) : w.IsDiscrete :=
  fetch_of .null (fun _ own _ _ => own.get) h gives

theorem Alike.same {x y : Except Error Value} (h : Alike Rearranged x y)
    (discrete : ∀ v, x = .ok v → v.IsDiscrete) : Alike (fun v w => v.same w = true) x y := by
  cases h with
  | ok related => exact .ok (related.same_right _ (discrete _ rfl).same_self)
  | error e => exact .error e

/-! ## Equality as a congruence -/

theorem equivalence_same :
    Equivalence fun v w : {v : Value // v.IsDiscrete} => v.1.same w.1 = true where
  refl v := v.2.same_self
  symm {v w} h := (w.2.same_iff v.2).2 ((v.2.same_iff w.2).1 h).symm
  trans {u v w} h h' :=
    (u.2.same_iff w.2).2 (((u.2.same_iff v.2).1 h).trans ((v.2.same_iff w.2).1 h'))

/-- Equality is an equivalence that looks at everything but the order of keys, and nothing that is
asked of a value tells it from an equal one. -/
theorem same_congruence :
    (Equivalence fun v w : {v : Value // v.IsDiscrete} => v.1.same w.1 = true) ∧
      ∀ v w : Value, v.IsDiscrete → w.IsDiscrete →
        (v.same w = true ↔ v.Rearranged w) ∧
        (v.same w = true →
          v.truthy = w.truthy ∧ v.count = w.count ∧
          (∀ step, Alike (fun a b => a.same b = true) (v.get step) (w.get step)) ∧
          (∀ path, Alike (fun a b => a.same b = true) (v.fetch path) (w.fetch path)) ∧
          (∀ path a b, v.fetch path = .ok a → w.fetch path = .ok b → a.kind = b.kind) ∧
          ∀ x, v.contains x = w.contains x) := by
  refine ⟨equivalence_same, fun v w hv hw => ⟨hv.same_iff hw, fun equal => ?_⟩⟩
  have related := (hv.same_iff hw).1 equal
  refine ⟨related.truthy_eq, related.count_eq, fun step => ?_, fun path => ?_,
    fun path a b led led' => ?_, related.contains_eq⟩
  · exact (related.get step).same fun _ => hv.get
  · exact (related.fetch path).same fun _ => hv.fetch
  · have both := related.fetch path
    rw [led, led'] at both
    cases both with
    | ok inner => exact inner.kind_eq

/-- The same data with its keys in two orders, outside and inside. -/
theorem same_congruence_shuffled :
    let names := array [.int 1, .bool true, .string "1"]
    let v := dictionary [("names", names), ("size", .dictionary [("x", .int 2), ("y", .null)])]
    let w := dictionary [("size", .dictionary [("y", .null), ("x", .int 2)]), ("names", names)]
    v.IsDiscrete ∧ w.IsDiscrete ∧ v.same w = true ∧ v.Rearranged w ∧
      v.truthy = w.truthy ∧ v.count = w.count ∧
      (∀ step, Alike (fun a b => a.same b = true) (v.get step) (w.get step)) ∧
      (∀ path, Alike (fun a b => a.same b = true) (v.fetch path) (w.fetch path)) ∧
      (∀ path a b, v.fetch path = .ok a → w.fetch path = .ok b → a.kind = b.kind) ∧
      ∀ x, v.contains x = w.contains x := by
  intro names v w
  have inner : names.IsDiscrete :=
    .array (by simp [IsDiscrete.int, IsDiscrete.bool, IsDiscrete.string])
  have size (entries : List (String × Value)) (distinct : (entries.map (·.1)).Nodup)
      (all : ∀ entry ∈ entries, entry.2 = .null ∨ entry.2 = .int 2) :
      (dictionary entries).IsDiscrete :=
    .dictionary distinct fun entry member => by
      rcases all entry member with same | same <;> rw [same] <;> constructor
  have hv : v.IsDiscrete := .dictionary (by decide) (by simp [inner, size])
  have hw : w.IsDiscrete := .dictionary (by decide) (by simp [inner, size])
  have equal : v.same w = true := by decide +kernel
  obtain ⟨rearranged, alike⟩ := same_congruence.2 v w hv hw
  exact ⟨hv, hw, equal, rearranged.1 equal, alike equal⟩

end Value

end Templating
