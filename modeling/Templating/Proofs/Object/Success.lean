import Templating.Proofs.Object.Circularity

/-!
# Encodings that succeed

An encoding that succeeds has encoded every part of the object, and nothing of the path to the
object shows in the value.  The rules below derive a value together with a depth that suffices for
it.  A greater depth does no harm, and neither does it to have noted fewer objects, so that the
value of a part is the one that it has by itself.
-/

namespace Templating

theorem settle_eq_ok_iff {trail : Trail} {result : Except Error Value} {v : Value} :
    settle trail result = .ok v ↔ result = .ok v := by
  cases result with
  | ok w => rfl
  | error e => by_cases settled : e.isSettled <;> simp [settle, settled]

theorem ObjectNode.refusal_ne_ok (node : ObjectNode) (trail : Trail) (v : Value) :
    node.refusal trail ≠ .ok v := by
  cases node with
  | custom text truth attributes items =>
      intro same
      obtain ⟨_, -, refused⟩ := bind_eq_ok_iff.1 (settle_eq_ok_iff.1 same)
      cases refused
  | _ => exact nofun

namespace Graph

variable {g : Graph} {r c : Ref} {fuel : Nat} {noted : List Ref} {v : Value}

/-! ## Rules -/

/-- The object yields the value within so many steps, below the objects that are noted. -/
inductive Yields (g : Graph) : Nat → List Ref → Ref → Value → Prop
  | value {fuel : Nat} {noted : List Ref} {r : Ref} {v : Value} :
      (g.node r).shape = .value v → Yields g (fuel + 1) noted r v
  | member {fuel : Nat} {noted : List Ref} {r c : Ref} {v : Value} :
      (g.node r).shape = .member c → Yields g fuel noted c v → Yields g (fuel + 1) noted r v
  | provider {fuel : Nat} {noted : List Ref} {r c : Ref} {v : Value} :
      (g.node r).shape = .provider (.ok c) → (g.node c).shape ≠ .container → c ∉ noted →
      Yields g fuel (c :: noted) c v → Yields g (fuel + 2) noted r v
  /-- A container that is handed out is noted as it is opened, which takes a step less. -/
  | provider_container {fuel : Nat} {noted : List Ref} {r c : Ref} {v : Value} :
      (g.node r).shape = .provider (.ok c) → (g.node c).shape = .container →
      Yields g (fuel + 1) noted c v → Yields g (fuel + 1) noted r v
  | container {fuel : Nat} {noted : List Ref} {r : Ref} {values : List Value} {v : Value} :
      (g.node r).shape = .container → (g.node r).Supported → r ∉ noted →
      (g.node r).parts.length = values.length →
      (∀ part ∈ (g.node r).parts.zip values, Yields g fuel (r :: noted) part.1 part.2) →
      (g.node r).assemble values = .ok v → Yields g (fuel + 2) noted r v
  | record {fuel : Nat} {noted : List Ref} {r : Ref} {fields : List (String × Except Error Ref)}
      {parts : List (String × Ref)} {values : List Value} :
      (g.node r).shape = .record fields → recordParts fields = .ok parts → r ∉ noted →
      (parts.map (·.2)).length = values.length →
      (∀ part ∈ (parts.map (·.2)).zip values, Yields g fuel (r :: noted) part.1 part.2) →
      Yields g (fuel + 1) noted r (.ofEntries ((parts.map (·.1)).zip values))

theorem Yields.mono (h : g.Yields fuel noted r v) {more : Nat} (le : fuel ≤ more)
    {fewer : List Ref} (subset : fewer ⊆ noted) : g.Yields more fewer r v := by
  induction h generalizing more fewer with
  | value shape =>
      obtain ⟨extra, rfl⟩ := Nat.exists_eq_add_of_le' (show 1 ≤ more by omega)
      exact .value shape
  | member shape _ ih =>
      obtain ⟨extra, rfl⟩ := Nat.exists_eq_add_of_le' (show 1 ≤ more by omega)
      exact .member shape (ih (by omega) subset)
  | provider shape plain absent _ ih =>
      obtain ⟨extra, rfl⟩ := Nat.exists_eq_add_of_le' (show 2 ≤ more by omega)
      have below : g.Yields extra (_ :: fewer) _ _ :=
        ih (by omega) (List.cons_subset_cons _ subset)
      exact .provider shape plain (fun again => absent (subset again)) below
  | provider_container shape container _ ih =>
      obtain ⟨extra, rfl⟩ := Nat.exists_eq_add_of_le' (show 1 ≤ more by omega)
      exact .provider_container shape container (ih (by omega) subset)
  | container shape supported absent length _ assembled ih =>
      obtain ⟨extra, rfl⟩ := Nat.exists_eq_add_of_le' (show 2 ≤ more by omega)
      refine .container shape supported (fun again => absent (subset again)) length ?_ assembled
      exact fun part inside => ih part inside (by omega) (List.cons_subset_cons _ subset)
  | record shape read absent length _ ih =>
      obtain ⟨extra, rfl⟩ := Nat.exists_eq_add_of_le' (show 1 ≤ more by omega)
      refine .record shape read (fun again => absent (subset again)) length ?_
      exact fun part inside => ih part inside (by omega) (List.cons_subset_cons _ subset)

/-! ## Parts of containers -/

theorem exists_members (shape : (g.node r).shape = .container)
    (supported : (g.node r).Supported) (trail : Trail) :
    ∃ parts : List (PathPart × Ref),
      g.members trail r = parts.map .ok ∧ parts.map (·.2) = (g.node r).parts := by
  cases h : g.node r with
  | list items | tuple items =>
      refine ⟨items.zipIdx.map fun item => (.index item.2, item.1), ?_, ?_⟩
      · simp [members, h]
      · rw [List.map_map]
        exact List.zipIdx_map_fst 0 items
  | set items | frozenSet items =>
      refine ⟨items.map fun c => (.element, c), ?_, ?_⟩
      · simp [members, h]
      · simp [ObjectNode.parts]
  | mapping plain entries =>
      rw [h] at supported
      obtain ⟨parts, rfl⟩ := exists_named supported
      refine ⟨parts.map fun part => (.key part.1, part.2), ?_, ?_⟩
      · simp [members, h]
      · simp [ObjectNode.parts]
  | _ => simp [h, ObjectNode.shape, ObjectNode.atom?] at shape

/-- What has a key that is no text has a member that is none. -/
theorem supported_of_members (shape : (g.node r).shape = .container) (trail : Trail)
    (each : ∀ member ∈ g.members trail r, ∃ part, member = .ok part) : (g.node r).Supported := by
  cases h : g.node r with
  | mapping plain entries =>
      rintro ⟨key | key, item⟩ inside
      · exact ⟨key, rfl⟩
      · simp only [members, h] at each
        obtain ⟨part, same⟩ := each _ (List.mem_map_of_mem inside)
        obtain ⟨shown, -, refused⟩ := bind_eq_ok_iff.1 same
        cases refused
  | list | tuple | set | frozenSet => trivial
  | _ => simp [h, ObjectNode.shape, ObjectNode.atom?] at shape

theorem run_parts_eq_ok_iff {way : Way} {parts : List (PathPart × Ref)} {values : List Value} :
    (Descent.parts way (parts.map .ok)).run g fuel = .ok values ↔
      parts.length = values.length ∧ ∀ part ∈ parts.zip values,
        g.encodeWithin fuel way.noted (part.1.1 :: way.trail) part.1.2 = .ok part.2 := by
  have run : (Descent.parts way (parts.map .ok)).run g fuel =
      parts.mapM fun part => g.encodeWithin fuel way.noted (part.1 :: way.trail) part.2 :=
    List.mapM_map
  rw [run, mapM_eq_ok_iff, List.forall₂_iff_zip]
  exact and_congr_right fun _ => ⟨fun all part inside => all inside, fun all _ _ => all (_, _)⟩

theorem exists_mem_zip {α β : Type} {xs : List α} {ys : List β} (length : xs.length = ys.length)
    {y : β} (member : y ∈ ys) : ∃ x ∈ xs, (x, y) ∈ xs.zip ys := by
  have second : (xs.zip ys).map (·.2) = ys := List.map_snd_zip (Nat.le_of_eq length.symm)
  rw [← second] at member
  obtain ⟨⟨x, _⟩, inside, rfl⟩ := List.mem_map.1 member
  exact ⟨x, (List.of_mem_zip inside).1, inside⟩

theorem run_parts_yields {way : Way} {parts : List (PathPart × Ref)} {values : List Value}
    (h : (Descent.parts way (parts.map .ok)).run g fuel = .ok values)
    (below : ∀ {trail c v}, g.encodeWithin fuel way.noted trail c = .ok v →
      g.Yields fuel way.noted c v) :
    (parts.map (·.2)).length = values.length ∧
      ∀ part ∈ (parts.map (·.2)).zip values, g.Yields fuel way.noted part.1 part.2 := by
  obtain ⟨length, each⟩ := run_parts_eq_ok_iff.1 h
  refine ⟨by rw [List.length_map, length], fun part inside => ?_⟩
  rw [List.zip_map_left] at inside
  obtain ⟨own, found, rfl⟩ := List.mem_map.1 inside
  exact below (each own found)

theorem run_parts_of_yields {way : Way} {parts : List (PathPart × Ref)} {values : List Value}
    (length : (parts.map (·.2)).length = values.length)
    (below : ∀ part ∈ (parts.map (·.2)).zip values, ∀ trail,
      g.encodeWithin fuel way.noted trail part.1 = .ok part.2) :
    (Descent.parts way (parts.map .ok)).run g fuel = .ok values := by
  refine run_parts_eq_ok_iff.2 ⟨by rwa [List.length_map] at length, fun part inside => ?_⟩
  refine below (part.1.2, part.2) ?_ _
  rw [List.zip_map_left]
  exact List.mem_map_of_mem inside

/-! ## The bounded encoding -/

theorem namedMembers_eq (parts : List (String × Ref)) :
    namedMembers parts = (parts.map fun part => (.key part.1, part.2)).map .ok := by
  simp [namedMembers]

theorem map_snd_keyed (parts : List (String × Ref)) :
    (parts.map fun part => (PathPart.key part.1, part.2)).map (·.2) = parts.map (·.2) := by
  simp

theorem Yields.encodeWithin_eq (h : g.Yields fuel noted r v) (trail : Trail) :
    g.encodeWithin fuel noted trail r = .ok v := by
  induction h generalizing trail with
  | value shape => exact g.encodeWithin_value _ _ _ shape
  | member shape _ ih => rw [g.encodeWithin_member _ _ _ shape, ih]
  | provider shape plain absent _ ih =>
      rw [g.encodeWithin_provider _ _ _ shape, settle_eq_ok_iff, ok_bind,
        partsWithin_other (by simpa [shape_eq_container_iff] using plain) _ absent, ih]
  | provider_container shape container _ ih =>
      rw [g.encodeWithin_provider _ _ _ shape, settle_eq_ok_iff, ok_bind,
        ← encodeWithin_container (shape_eq_container_iff.1 container), ih]
  | @container fuel noted r values v shape supported absent length _ assembled ih =>
      obtain ⟨parts, members, refs⟩ := exists_members shape supported trail
      rw [← refs] at length ih
      rw [encodeWithin_container (shape_eq_container_iff.1 shape),
        g.partsWithin_opened _ _ _ shape absent, members, run_parts_of_yields length ih]
      exact assembled
  | @record fuel noted r fields parts values shape read absent length _ ih =>
      rw [← map_snd_keyed] at length ih
      rw [g.encodeWithin_fields _ _ _ shape, settle_eq_ok_iff, read, ok_bind, if_neg absent,
        namedMembers_eq, run_parts_of_yields length ih]
      rfl

theorem yields_of_partsWithin
    (below : ∀ less < fuel, ∀ {noted trail c v}, g.encodeWithin less noted trail c = .ok v →
      g.Yields less noted c v)
    (shape : (g.node r).shape = .container) {trail : Trail}
    (h : g.partsWithin fuel noted trail r = .ok v) : g.Yields (fuel + 1) noted r v := by
  cases fuel with
  | zero => cases h
  | succ fuel =>
      by_cases again : r ∈ noted
      · rw [partsWithin_of_mem again] at h
        cases h
      rw [g.partsWithin_opened _ _ _ shape again] at h
      obtain ⟨values, run, assembled⟩ := bind_eq_ok_iff.1 h
      have supported : (g.node r).Supported := by
        refine supported_of_members shape trail fun member inside => ?_
        obtain ⟨_, own⟩ := exists_of_mapM_eq_ok run inside
        obtain ⟨part, same, -⟩ := bind_eq_ok_iff.1 own
        exact ⟨part, same⟩
      obtain ⟨parts, members, refs⟩ := exists_members shape supported trail
      rw [members] at run
      obtain ⟨length, each⟩ := run_parts_yields run (below fuel (by omega))
      rw [refs] at length each
      exact .container shape supported again length each assembled

theorem yields_of_encodeWithin {trail : Trail}
    (h : g.encodeWithin fuel noted trail r = .ok v) : g.Yields fuel noted r v := by
  induction fuel using Nat.strong_induction_on generalizing noted trail r v with
  | _ fuel below =>
  have opened {k : Nat} (le : k < fuel) {c : Ref} (shape : (g.node c).shape = .container)
      (h : g.partsWithin k noted trail c = .ok v) : g.Yields (k + 1) noted c v :=
    yields_of_partsWithin (fun less lt _ _ _ _ => below less (by omega)) shape h
  obtain _ | fuel := fuel
  · cases h
  cases shape : (g.node r).shape with
  | value w =>
      rw [g.encodeWithin_value _ _ _ shape] at h
      cases h
      exact .value shape
  | refused =>
      rw [g.encodeWithin_refused _ _ _ shape] at h
      exact absurd h (ObjectNode.refusal_ne_ok _ _ _)
  | member c =>
      rw [g.encodeWithin_member _ _ _ shape] at h
      exact .member shape (below fuel (by omega) h)
  | provider answer =>
      rw [g.encodeWithin_provider _ _ _ shape, settle_eq_ok_iff] at h
      obtain ⟨c, rfl, handed⟩ := bind_eq_ok_iff.1 h
      by_cases container : (g.node c).shape = .container
      · exact .provider_container shape container (opened (by omega) container handed)
      obtain _ | fuel := fuel
      · cases handed
      by_cases again : c ∈ noted
      · rw [partsWithin_of_mem again] at handed
        cases handed
      rw [partsWithin_other (by simpa [shape_eq_container_iff] using container) _ again] at handed
      exact .provider shape container again (below fuel (by omega) handed)
  | container =>
      rw [encodeWithin_container (shape_eq_container_iff.1 shape)] at h
      exact opened (by omega) shape h
  | record fields =>
      rw [g.encodeWithin_fields _ _ _ shape, settle_eq_ok_iff] at h
      obtain ⟨parts, read, h⟩ := bind_eq_ok_iff.1 h
      split at h
      · cases h
      next again =>
      obtain ⟨values, run, same⟩ := bind_eq_ok_iff.1 h
      cases same
      rw [namedMembers_eq] at run
      obtain ⟨length, each⟩ := run_parts_yields run (below fuel (by omega))
      rw [map_snd_keyed] at length each
      exact .record shape read again length each

theorem yields_iff (trail : Trail) :
    g.Yields fuel noted r v ↔ g.encodeWithin fuel noted trail r = .ok v :=
  ⟨fun h => h.encodeWithin_eq trail, yields_of_encodeWithin⟩

theorem encode_eq_ok_iff : g.encode r = .ok v ↔ g.Yields depthLimit [] r v := by
  rw [yields_iff [], encode_eq_outermost]
  cases result : g.encodeWithin depthLimit [] [] r with
  | ok w => rfl
  | error e =>
      refine iff_of_false (fun same => ?_) nofun
      unfold outermost at same
      split at same
      · split at same <;> cases same
      · cases same

/-- What an object yields below others it yields by itself. -/
theorem Yields.encode_eq (h : g.Yields fuel noted r v) (limit : fuel ≤ depthLimit) :
    g.encode r = .ok v :=
  encode_eq_ok_iff.2 (h.mono limit (List.nil_subset noted))

end Graph

end Templating
