import Templating.Proofs.Outcome
import Templating.Value.Path

/-!
# Values without objects

A value is data if no object of the application is in it, at any depth.  The parts of data are data,
so that a path into data never comes to an object, whose answers are not data of the template.
-/

namespace Templating

theorem mem_bindEntry {α : Type} {key : String} {x : α} {entries : List (String × α)}
    {entry : String × α} (h : entry ∈ bindEntry key x entries) :
    entry ∈ entries ∨ entry.2 = x := by
  induction entries with
  | nil =>
      rw [bindEntry, List.mem_singleton] at h
      exact .inr (by rw [h])
  | cons first rest ih =>
      rw [bindEntry] at h
      split at h
      · rcases List.mem_cons.1 h with rfl | inRest
        · exact .inr rfl
        · exact .inl (List.mem_cons_of_mem _ inRest)
      · rcases List.mem_cons.1 h with rfl | inRest
        · exact .inl List.mem_cons_self
        · exact (ih inRest).imp_left (List.mem_cons_of_mem _)

/-- What holds of all that is bound, and of all that was, holds of all entries. -/
theorem forall_mem_bindEntries {α : Type} {P : α → Prop} {entries bindings : List (String × α)}
    (old : ∀ entry ∈ entries, P entry.2) (new : ∀ binding ∈ bindings, P binding.2) :
    ∀ entry ∈ bindEntries entries bindings, P entry.2 := by
  induction bindings generalizing entries with
  | nil => exact old
  | cons binding rest ih =>
      refine ih (fun entry inside => ?_) fun other member =>
        new other (List.mem_cons_of_mem _ member)
      rcases mem_bindEntry inside with before | same
      · exact old entry before
      · rw [same]
        exact new binding List.mem_cons_self

namespace Value

/-! ## Parts of values -/

theorem entry_of {P : Value → Prop} (null : P .null) {entries : List (String × Value)}
    (h : ∀ entry ∈ entries, P entry.2) (key : String) : P (entry entries key) := by
  rw [Value.entry]
  cases found : entries.lookup key with
  | none => exact null
  | some v => exact h (key, v) (mem_of_lookup found)

theorem element_of {P : Value → Prop} (null : P .null) {items : List Value}
    (h : ∀ v ∈ items, P v) (position : Int) : P (element items position) := by
  rw [Value.element]
  cases found : elementAt? items position with
  | none => exact null
  | some v =>
      simp only [elementAt?, Option.ite_none_left_eq_some] at found
      exact h v (List.mem_of_getElem? found.2)

/-- What holds of null and of the parts of a value holds of what a step leads to in it. -/
theorem get_of {P : Value → Prop} (null : P .null) {v : Value} (own : v.kind ≠ .foreign)
    (items : ∀ items, v = .array items → ∀ w ∈ items, P w)
    (entries : ∀ entries, v = .dictionary entries → ∀ entry ∈ entries, P entry.2)
    {step : Step} {w : Value} (gives : v.get step = .ok w) : P w := by
  cases v with
  | null | bool | int | float | string =>
      cases gives
      exact null
  | array inside =>
      have inside := items _ rfl
      cases step with
      | index position =>
          cases gives
          exact element_of null inside position
      | key name =>
          simp only [Value.get] at gives
          split at gives
          · cases gives
            exact element_of null inside _
          · cases gives
            exact null
          · cases gives
            exact null
  | dictionary inside =>
      have inside := entries _ rfl
      cases step with
      | key name =>
          cases gives
          exact entry_of null inside name
      | index position =>
          simp only [Value.get] at gives
          obtain ⟨name, -, same⟩ := bind_eq_ok_iff.1 gives
          cases same
          exact entry_of null inside name
  | foreign => exact absurd rfl own

/-- What holds of null and is kept by every step is kept by every path. -/
theorem fetch_of {P : Value → Prop} (null : P .null)
    (kept : ∀ v, P v → ∀ step w, v.get step = .ok w → P w) {v : Value} (h : P v)
    {path : List Step} {w : Value} (gives : v.fetch path = .ok w) : P w := by
  induction path generalizing v with
  | nil =>
      cases gives
      exact h
  | cons step rest ih =>
      rw [Value.fetch] at gives
      obtain ⟨next, got, gives⟩ := bind_eq_ok_iff.1 gives
      split at gives
      · cases gives
        exact null
      · exact ih (kept v h step next got) gives

/-! ## Sorts of values -/

/-- The values of a sort are closed: the simple ones are of it, a dictionary is of it with all that
it holds and not without, and an array only with all that it holds. -/
structure Closed (D : Value → Prop) : Prop where
  null : D .null
  bool (b : Bool) : D (.bool b)
  int (n : Int) : D (.int n)
  string (s : String) : D (.string s)
  dictionary_iff (entries : List (String × Value)) :
    D (.dictionary entries) ↔ ∀ entry ∈ entries, D entry.2
  of_array {items : List Value} : D (.array items) → ∀ v ∈ items, D v

theorem closed_true : Closed fun _ => True where
  null := trivial
  bool _ := trivial
  int _ := trivial
  string _ := trivial
  dictionary_iff _ := ⟨fun _ _ _ => trivial, fun _ => trivial⟩
  of_array _ _ _ := trivial

namespace Closed

variable {D : Value → Prop} (closed : Closed D)

include closed

theorem ofEntries {entries : List (String × Value)} (h : ∀ entry ∈ entries, D entry.2) :
    D (.ofEntries entries) :=
  (closed.dictionary_iff _).2 (forall_mem_bindEntries (fun _ inside => nomatch inside) h)

end Closed

/-! ## Data -/

/-- No object of the application is in the value. -/
inductive IsData : Value → Prop
  | null : IsData .null
  | bool (b : Bool) : IsData (.bool b)
  | int (n : Int) : IsData (.int n)
  | float (x : Binary64) : IsData (.float x)
  | string (s : String) : IsData (.string s)
  | array {items : List Value} : (∀ v ∈ items, IsData v) → IsData (.array items)
  | dictionary {entries : List (String × Value)} : (∀ entry ∈ entries, IsData entry.2) →
      IsData (.dictionary entries)

theorem closed_isData : Closed IsData where
  null := .null
  bool := .bool
  int := .int
  string := .string
  dictionary_iff _ := ⟨fun | .dictionary inside => inside, .dictionary⟩
  of_array := fun | .array inside => inside

theorem IsData.kind_ne_foreign {v : Value} (h : v.IsData) : v.kind ≠ .foreign := by
  cases h <;> exact nofun

theorem IsData.get {v : Value} (h : v.IsData) {step : Step} {w : Value}
    (gives : v.get step = .ok w) : w.IsData := by
  refine get_of .null h.kind_ne_foreign ?_ ?_ gives
  · rintro items rfl
    exact closed_isData.of_array h
  · rintro entries rfl
    exact (closed_isData.dictionary_iff entries).1 h

theorem IsData.fetch {v : Value} (h : v.IsData) {path : List Step} {w : Value}
    (gives : v.fetch path = .ok w) : w.IsData :=
  fetch_of .null (fun _ own _ _ => own.get) h gives

end Value

end Templating
