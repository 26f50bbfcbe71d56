import Templating.Proofs.Object.Sharing

/-!
# Plain data

Plain data is made of lists and of dictionaries with texts for keys, with scalars inside.  Encoded
or converted it comes to the same value, unless encoding refuses it as inside itself or as too deep.
What a path leads to in the data, the same path leads to in its value, and every value of plain data
has a text.
-/

namespace Templating

namespace ObjectNode

/-- The entries of a dictionary with texts for keys. -/
def named (parts : List (String × Ref)) : List (MapKey × Ref) :=
  parts.map fun part => (.text part.1, part.2)

/-- A scalar, where an integer has a text, or a collection, where a dictionary has no key twice. -/
def IsPlain : ObjectNode → Prop
  | .null | .bool _ | .float _ | .string _ | .list _ => True
  | .int n => n.natAbs < Value.integerBound
  | .mapping plain entries =>
    plain = true ∧ ∃ parts, entries = named parts ∧ (parts.map (·.1)).Nodup
  | _ => False

/-- The value of plain data whose parts have values. -/
inductive Gives (part : Ref → Value → Prop) : ObjectNode → Value → Prop
  | null : Gives part .null .null
  | bool (b : Bool) : Gives part (.bool b) (.bool b)
  | int (n : Int) : Gives part (.int n) (.int n)
  | float (x : Binary64) : Gives part (.float x) (.float x)
  | string (s : String) : Gives part (.string s) (.string s)
  | list {items : List Ref} {values : List Value} :
      List.Forall₂ part items values → Gives part (.list items) (.array values)
  | mapping {parts : List (String × Ref)} {entries : List (String × Value)} :
      List.Forall₂ (fun p entry => entry.1 = p.1 ∧ part p.2 entry.2) parts entries →
      Gives part (.mapping true (named parts)) (.dictionary entries)

theorem named_injective : Function.Injective named := by
  refine List.map_injective_iff.2 ?_
  rintro ⟨name, r⟩ ⟨name', r'⟩ same
  simpa using same

theorem parts_named (plain : Bool) (parts : List (String × Ref)) :
    (mapping plain (named parts)).parts = parts.map (·.2) := by
  rw [ObjectNode.parts, named, List.map_map]
  rfl

theorem Gives.imp {P Q : Ref → Value → Prop} {node : ObjectNode} {v : Value}
    (h : node.Gives P v) (h' : ∀ c ∈ node.parts, ∀ w, P c w → Q c w) : node.Gives Q v := by
  cases h with
  | null => exact .null
  | bool b => exact .bool b
  | int n => exact .int n
  | float x => exact .float x
  | string s => exact .string s
  | @list items values each =>
      refine .list ?_
      exact ((List.forall₂_and_left items values).2 ⟨h', each⟩).imp fun _ _ both =>
        both.1 _ both.2
  | @mapping parts entries each =>
      rw [parts_named, List.forall_mem_map] at h'
      refine .mapping ?_
      exact ((List.forall₂_and_left parts entries).2 ⟨h', each⟩).imp fun _ _ both =>
        ⟨both.2.1, both.1 _ both.2.2⟩

end ObjectNode

/-! ## Keys that are distinct -/

theorem bindEntry_of_absent {α : Type} {key : String} (x : α) {entries : List (String × α)}
    (absent : key ∉ entries.map (·.1)) : bindEntry key x entries = entries ++ [(key, x)] := by
  induction entries with
  | nil => rfl
  | cons entry rest ih =>
      simp only [List.map_cons, List.mem_cons, not_or] at absent
      rw [bindEntry, if_neg (Ne.symm absent.1), ih absent.2, List.cons_append]

theorem bindEntries_of_nodup {α : Type} {entries bindings : List (String × α)}
    (distinct : ((entries ++ bindings).map (·.1)).Nodup) :
    bindEntries entries bindings = entries ++ bindings := by
  induction bindings generalizing entries with
  | nil => exact (List.append_nil entries).symm
  | cons binding rest ih =>
      have absent : binding.1 ∉ entries.map (·.1) := by
        rw [List.map_append, List.map_cons] at distinct
        intro member
        exact (List.nodup_append.1 distinct).2.2 _ member _ List.mem_cons_self rfl
      have shifted : ((entries ++ [binding]) ++ rest).map (·.1) = (entries ++ binding :: rest).map
          (·.1) := by
        rw [List.append_assoc, List.singleton_append]
      have step : bindEntries entries (binding :: rest) =
          bindEntries (entries ++ [binding]) rest := by
        rw [bindEntries, List.foldl_cons, bindEntry_of_absent _ absent]
        rfl
      rw [step, ih (shifted ▸ distinct), List.append_assoc, List.singleton_append]

theorem ofEntries_of_nodup {entries : List (String × Value)}
    (distinct : (entries.map (·.1)).Nodup) : Value.ofEntries entries = .dictionary entries := by
  have same : bindEntries [] entries = [] ++ entries := bindEntries_of_nodup distinct
  exact congrArg Value.dictionary same

/-- Named parts that come to values one by one give a dictionary of these. -/
theorem ofEntries_eq_ok_iff {parts : List (String × Ref)} (distinct : (parts.map (·.1)).Nodup)
    {f : String × Ref → Except Error Value} {v : Value} :
    (do
      let entries ← parts.mapM fun p => do return (p.1, ← f p)
      return Value.ofEntries entries) = .ok v ↔
      ∃ entries, List.Forall₂ (fun p entry => entry.1 = p.1 ∧ f p = .ok entry.2) parts entries ∧
        v = .dictionary entries := by
  have single (p : String × Ref) (entry : String × Value) :
      (do return (p.1, ← f p) : Except Error (String × Value)) = .ok entry ↔
        entry.1 = p.1 ∧ f p = .ok entry.2 := by
    obtain ⟨name, w⟩ := entry
    simp only [bind_eq_ok_iff, pure_eq_ok_iff, Prod.mk.injEq]
    constructor
    · rintro ⟨_, own, rfl, rfl⟩
      exact ⟨rfl, own⟩
    · rintro ⟨rfl, own⟩
      exact ⟨w, own, rfl, rfl⟩
  have named {entries : List (String × Value)}
      (each : List.Forall₂ (fun p entry => entry.1 = p.1 ∧ f p = .ok entry.2) parts entries) :
      Value.ofEntries entries = .dictionary entries := by
    have keys : entries.map (·.1) = parts.map (·.1) := by
      clear distinct
      induction each with
      | nil => rfl
      | cons both _ ih => rw [List.map_cons, List.map_cons, both.1, ih]
    exact ofEntries_of_nodup (keys ▸ distinct)
  simp only [bind_eq_ok_iff, pure_eq_ok_iff, mapM_eq_ok_iff, single]
  constructor
  · rintro ⟨entries, each, rfl⟩
    exact ⟨entries, each, named each⟩
  · rintro ⟨entries, each, rfl⟩
    exact ⟨entries, each, named each⟩

namespace Graph

/-- All that is in the object is plain data. -/
def Plain (g : Graph) (r : Ref) : Prop := ∀ c, g.Within r c → (g.node c).IsPlain

variable {g : Graph} {r c : Ref}

theorem Plain.own (plain : g.Plain r) : (g.node r).IsPlain := plain r .refl

theorem Plain.part (plain : g.Plain r) (part : c ∈ (g.node r).parts) : g.Plain c :=
  fun d within => plain d (within.head part)

/-! ## Conversion -/

theorem toValueWithin_succ_iff (plain : (g.node r).IsPlain) {n : Nat} {v : Value} :
    g.toValueWithin (n + 1) r = .ok v ↔
      (g.node r).Gives (fun c w => g.toValueWithin n c = .ok w) v := by
  cases node : g.node r with
  | null | bool | int | float | string =>
      rw [toValueWithin, node]
      constructor
      · rintro ⟨⟩
        constructor
      · rintro ⟨⟩
        rfl
  | list items =>
      have body : g.toValueWithin (n + 1) r = .ok v ↔
          ∃ values, items.mapM (g.toValueWithin n) = .ok values ∧ .array values = v := by
        simp only [toValueWithin, node, bind_eq_ok_iff, pure_eq_ok_iff]
      rw [body]
      constructor
      · rintro ⟨values, all, rfl⟩
        exact .list (mapM_eq_ok_iff.1 all)
      · rintro ⟨⟩
        rename_i values each
        exact ⟨values, mapM_eq_ok_iff.2 each, rfl⟩
  | mapping own entries =>
      rw [node] at plain
      obtain ⟨rfl, parts, rfl, distinct⟩ := plain
      have body : g.toValueWithin (n + 1) r = (do
          let entries ← parts.mapM fun p => do return (p.1, ← g.toValueWithin n p.2)
          return .ofEntries entries) := by
        simp only [toValueWithin, node, ObjectNode.named, List.mapM_map, Function.comp_def]
      rw [body, ofEntries_eq_ok_iff distinct]
      constructor
      · rintro ⟨entries, each, rfl⟩
        exact .mapping each
      · intro gives
        generalize held : ObjectNode.named parts = entries at gives
        cases gives with | mapping each =>
        cases ObjectNode.named_injective held
        exact ⟨_, each, rfl⟩
  | _ =>
      rw [node] at plain
      exact plain.elim

theorem toValueWithin_mono (plain : g.Plain r) {fuel more : Nat} (le : fuel ≤ more) {v : Value}
    (h : g.toValueWithin fuel r = .ok v) : g.toValueWithin more r = .ok v := by
  induction fuel generalizing r v more with
  | zero => cases h
  | succ fuel ih =>
      obtain ⟨more, rfl⟩ := Nat.exists_eq_add_of_le' (show 1 ≤ more by omega)
      rw [toValueWithin_succ_iff plain.own] at h ⊢
      exact h.imp fun c part w own => ih (plain.part part) (by omega) own

/-! ## Encoding -/

/-- What encoding makes of a part it makes of it two steps deeper. -/
theorem gives_of_encodeWithin (plain : (g.node r).IsPlain) {fuel : Nat} {active : List Ref}
    {trail : Trail} {v : Value} (h : g.encodeWithin (fuel + 1) active trail r = .ok v) :
    (g.node r).Gives (fun c w => ∃ less noted way, less < fuel ∧
      g.encodeWithin less noted way c = .ok w) v := by
  cases node : g.node r with
  | null | bool | int | float | string =>
      rw [encodeWithin, node] at h
      cases h
      constructor
  | list items =>
      obtain _ | less := fuel
      · simp [encodeWithin, partsWithin, node] at h
      rw [encodeWithin_items (.inl node)] at h
      split at h
      · cases h
      · simp only [bind_eq_ok_iff, pure_eq_ok_iff, mapM_eq_ok_iff] at h
        obtain ⟨values, each, rfl⟩ := h
        refine .list ?_
        rw [← List.zipIdx_map_fst 0 items, List.forall₂_map_left_iff]
        exact each.imp fun item w own => ⟨less, _, _, Nat.lt_succ_self less, own⟩
  | mapping own entries =>
      rw [node] at plain
      obtain ⟨rfl, parts, rfl, distinct⟩ := plain
      obtain _ | less := fuel
      · simp [encodeWithin, partsWithin, node] at h
      rw [encodeWithin_named node] at h
      split at h
      · cases h
      · obtain ⟨entries, each, rfl⟩ := (ofEntries_eq_ok_iff distinct).1 h
        refine .mapping (each.imp fun p entry both => ⟨both.1, ?_⟩)
        exact ⟨less, _, _, Nat.lt_succ_self less, both.2⟩
  | _ =>
      rw [node] at plain
      exact plain.elim

theorem toValueWithin_of_encodeWithin (plain : g.Plain r) {fuel : Nat} {active : List Ref}
    {trail : Trail} {v : Value} (h : g.encodeWithin fuel active trail r = .ok v) :
    g.toValueWithin fuel r = .ok v := by
  induction fuel using Nat.strongRecOn generalizing r active trail v with
  | ind fuel ih =>
      obtain _ | fuel := fuel
      · cases h
      -- Encoding takes two steps from one level to the next and conversion one.
      rw [toValueWithin_succ_iff plain.own]
      refine (gives_of_encodeWithin plain.own h).imp fun c part w own => ?_
      obtain ⟨less, noted, way, shorter, encoded⟩ := own
      have inner := plain.part part
      exact toValueWithin_mono inner (by omega) (ih less (by omega) inner encoded)

/-- An object is met below itself, or the data goes down too far. -/
def Refusal (e : Error) : Prop := e = .fault .tooDeep ∨ ∃ path, e = .encoding .circular path

theorem refusal_of_encodeWithin (plain : g.Plain r) {fuel : Nat} {active : List Ref}
    {trail : Trail} {e : Error} (h : g.encodeWithin fuel active trail r = .error e) :
    Refusal e := by
  induction fuel using Nat.strongRecOn generalizing r active trail e with
  | ind fuel ih =>
      obtain _ | fuel := fuel
      · cases h
        exact .inl rfl
      have own := plain.own
      cases node : g.node r with
      | null | bool | int | float | string =>
          rw [encodeWithin, node] at h
          cases h
      | list items =>
          obtain _ | less := fuel
          · simp only [encodeWithin, partsWithin, node] at h
            cases h
            exact .inl rfl
          rw [encodeWithin_items (.inl node)] at h
          split at h
          · cases h
            exact .inr ⟨_, rfl⟩
          · rcases bind_eq_error_iff.1 h with failed | ⟨values, -, h⟩
            · obtain ⟨item, member, failed⟩ := exists_of_mapM_eq_error failed
              have part : item.1 ∈ (g.node r).parts := by
                rw [node]
                exact List.fst_mem_of_mem_zipIdx member
              exact ih less (by omega) (plain.part part) failed
            · cases h
      | mapping flag entries =>
          rw [node] at own
          obtain ⟨rfl, parts, rfl, -⟩ := own
          obtain _ | less := fuel
          · simp only [encodeWithin, partsWithin, node] at h
            cases h
            exact .inl rfl
          rw [encodeWithin_named node] at h
          split at h
          · cases h
            exact .inr ⟨_, rfl⟩
          · rcases bind_eq_error_iff.1 h with failed | ⟨entries, -, h⟩
            · obtain ⟨p, member, failed⟩ := exists_of_mapM_eq_error failed
              have part : p.2 ∈ (g.node r).parts := by
                rw [node, ObjectNode.parts_named]
                exact List.mem_map_of_mem member
              rcases bind_eq_error_iff.1 failed with failed | ⟨w, -, failed⟩
              · exact ih less (by omega) (plain.part part) failed
              · cases failed
            · cases h
      | _ =>
          rw [node] at own
          exact own.elim

/-- Plain data that is encoded comes to the value that it is converted to. -/
theorem toValue_of_encode (plain : g.Plain r) {v : Value} (h : g.encode r = .ok v) :
    g.toValue r = .ok v := by
  unfold encode at h
  split at h
  · split at h <;> cases h
  · exact toValueWithin_of_encodeWithin plain h

/-- Plain data that is refused is inside itself or too deep. -/
theorem refusal_of_encode (plain : g.Plain r) {e : Error} (h : g.encode r = .error e) :
    ∃ path, e = .encoding .circular path ∨ e = .encoding .tooDeep path := by
  cases within : g.encodeWithin depthLimit [] [] r with
  | ok v => cases h.symm.trans (encode_of_ok within)
  | error inner =>
      rcases refusal_of_encodeWithin plain within with rfl | ⟨path, rfl⟩
      · rw [encode, within] at h
        cases h
        exact ⟨_, .inr rfl⟩
      · rw [encode, within] at h
        cases h
        exact ⟨path, .inl rfl⟩

theorem encodable_of_plain (plain : g.Plain r) : g.Encodable r where
  supported c within := by
    have own := plain c within
    cases node : g.node c with
    | mapping flag entries =>
        rw [node] at own
        obtain ⟨-, parts, rfl, -⟩ := own
        intro entry member
        obtain ⟨p, -, rfl⟩ := List.mem_map.1 member
        exact ⟨p.1, rfl⟩
    | null | bool | int | float | string | list => trivial
    | _ =>
        rw [node] at own
        exact own.elim
  texts s items within node := by
    have own := plain s within
    rcases node with node | node <;> rw [node] at own <;> exact own.elim

theorem clean_of_plain (plain : g.Plain r) : g.Clean r := by
  rintro c within ⟨d, provider, -⟩
  have own := plain c within
  rw [provider] at own
  exact own.elim

/-- Plain data at most a hundred levels deep is not refused. -/
theorem exists_encode_of_shallow (plain : g.Plain r) (shallow : g.Shallow 100 r) :
    ∃ v, g.encode r = .ok v := by
  have settles := settles_of_shallow (encodable_of_plain plain) shallow (by decide)
  have outcome := settles depthLimit [] [] (by decide) fun _ member => nomatch member
  exact ⟨g.valueOf r, encode_of_ok (outcome.1 (clean_of_plain plain))⟩

end Graph

/-! ## Texts -/

theorem Value.exists_integerText {n : Int} (short : n.natAbs < integerBound) :
    ∃ text, integerText n = .ok text := ⟨toString n, if_pos short⟩

/-- A value whose parts have a text in a collection has one. -/
theorem ObjectNode.Gives.exists_json {node : ObjectNode} {v : Value} (plain : node.IsPlain)
    (h : node.Gives (fun _ w => ∃ text, w.json = .ok text) v) : ∃ text, v.json = .ok text := by
  cases h with
  | null | bool | float | string =>
      rw [Value.json]
      exact ⟨_, rfl⟩
  | int n =>
      rw [Value.json]
      exact Value.exists_integerText plain
  | @list items values each =>
      clear plain
      have parts : ∃ texts, Value.jsonItems values = .ok texts := by
        induction each with
        | nil => exact ⟨[], by rw [Value.jsonItems]⟩
        | cons own _ ih =>
            obtain ⟨first, own⟩ := own
            obtain ⟨others, rest⟩ := ih
            exact ⟨first :: others, by rw [Value.jsonItems, own, rest]; rfl⟩
      obtain ⟨texts, parts⟩ := parts
      exact ⟨_, by rw [Value.json, parts]; rfl⟩
  | @mapping _ entries each =>
      clear plain
      have parts : ∃ texts, Value.jsonEntries entries = .ok texts := by
        induction each with
        | nil => exact ⟨[], by rw [Value.jsonEntries]⟩
        | @cons p entry _ _ both _ ih =>
            obtain ⟨name, w⟩ := entry
            obtain ⟨-, first, own⟩ := both
            obtain ⟨others, rest⟩ := ih
            exact ⟨(Text.json name ++ ":" ++ first) :: others,
              by rw [Value.jsonEntries, own, rest]; rfl⟩
      obtain ⟨texts, parts⟩ := parts
      exact ⟨_, by rw [Value.json, parts]; rfl⟩

namespace Graph

variable {g : Graph} {r c : Ref}

theorem exists_json_of_toValueWithin (plain : g.Plain r) {fuel : Nat} {v : Value}
    (h : g.toValueWithin fuel r = .ok v) : ∃ text, v.json = .ok text := by
  induction fuel generalizing r v with
  | zero => cases h
  | succ fuel ih =>
      rw [toValueWithin_succ_iff plain.own] at h
      exact (h.imp fun c part w own => ih (plain.part part) own).exists_json plain.own

theorem exists_text_of_toValueWithin (plain : g.Plain r) {fuel : Nat} {v : Value}
    (h : g.toValueWithin fuel r = .ok v) : ∃ text, v.text = .ok text := by
  obtain ⟨text, json⟩ := exists_json_of_toValueWithin plain h
  cases v with
  | null | bool | float | string => exact ⟨_, rfl⟩
  | int n =>
      rw [Value.json] at json
      exact ⟨text, json⟩
  | array | dictionary => exact ⟨text, json⟩
  | foreign object =>
      rw [Value.json] at json
      obtain _ | fuel := fuel
      · cases h
      rw [toValueWithin_succ_iff plain.own] at h
      cases node : g.node r <;> rw [node] at h <;> cases h

end Graph

/-! ## Places -/

/-- A step that leads to null leads no further. -/
theorem Value.fetch_cons_of_get {v w : Value} {step : Step} (h : v.get step = .ok w)
    (steps : List Step) : v.fetch (step :: steps) = w.fetch steps := by
  rw [fetch, h, ok_bind]
  cases null : w.isNull with
  | false => rfl
  | true =>
      rw [(isNull_iff w).1 null]
      cases steps <;> rfl

theorem exists_lookup_of_forall₂ {P : Ref → Value → Prop} {parts : List (String × Ref)}
    {entries : List (String × Value)}
    (each : List.Forall₂ (fun p entry => entry.1 = p.1 ∧ P p.2 entry.2) parts entries)
    (distinct : (parts.map (·.1)).Nodup) {name : String} {c : Ref} (member : (name, c) ∈ parts) :
    ∃ w, entries.lookup name = some w ∧ P c w := by
  induction each with
  | nil => cases member
  | @cons p entry parts entries both _ ih =>
      rw [List.map_cons, List.nodup_cons] at distinct
      rcases List.mem_cons.1 member with rfl | member
      · refine ⟨entry.2, ?_, both.2⟩
        rw [List.lookup_cons, both.1, beq_self_eq_true]
      · have other : (name == entry.1) = false := by
          rw [beq_eq_false_iff_ne, both.1]
          rintro rfl
          exact distinct.1 (List.mem_map.2 ⟨_, member, rfl⟩)
        obtain ⟨w, found, own⟩ := ih distinct.2 member
        exact ⟨w, by rw [List.lookup_cons, other]; exact found, own⟩

theorem elementAt?_eq_some_iff {α : Type} {items : List α} {position : Int} {x : α} :
    elementAt? items position = some x ↔
      ∃ place : Nat, (if position < 0 then position + items.length else position) = place ∧
        items[place]? = some x := by
  unfold elementAt?
  dsimp only
  generalize (if position < 0 then position + items.length else position) = counted
  by_cases outside : counted < 0
  · rw [if_pos outside]
    refine ⟨nofun, ?_⟩
    rintro ⟨place, rfl, -⟩
    omega
  · obtain ⟨place, rfl⟩ := Int.eq_ofNat_of_zero_le (Int.not_lt.1 outside)
    rw [if_neg outside, Int.toNat_natCast]
    refine ⟨fun found => ⟨place, rfl, found⟩, ?_⟩
    rintro ⟨other, same, found⟩
    rwa [Int.ofNat_inj.1 same]

theorem exists_elementAt?_of_forall₂ {P : Ref → Value → Prop} {items : List Ref}
    {values : List Value} (each : List.Forall₂ P items values) {position : Int} {c : Ref}
    (found : elementAt? items position = some c) :
    ∃ w, elementAt? values position = some w ∧ P c w := by
  obtain ⟨place, counted, found⟩ := elementAt?_eq_some_iff.1 found
  obtain ⟨bound, rfl⟩ := List.getElem?_eq_some_iff.1 found
  have bound' := each.length_eq ▸ bound
  rw [each.length_eq] at counted
  exact ⟨_, elementAt?_eq_some_iff.2 ⟨place, counted, List.getElem?_eq_getElem bound'⟩,
    each.get bound bound'⟩

namespace Graph

variable {g : Graph} {r c : Ref}

/-- The steps lead from an object to a place in it: by its key to what a dictionary holds, by its
position, counted from either end, to what a list holds. -/
inductive Leads (g : Graph) : Ref → List Step → Ref → Prop
  | here (r : Ref) : Leads g r [] r
  | key {r c place : Ref} {plain : Bool} {entries : List (MapKey × Ref)} {name : String}
      {steps : List Step} :
      g.node r = .mapping plain entries → (.text name, c) ∈ entries → Leads g c steps place →
      Leads g r (.key name :: steps) place
  | index {r c place : Ref} {items : List Ref} {position : Int} {steps : List Step} :
      g.node r = .list items → elementAt? items position = some c → Leads g c steps place →
      Leads g r (.index position :: steps) place

/-- What steps lead to in plain data, they lead to in its value. -/
theorem fetch_of_leads (plain : g.Plain r) {steps : List Step} {place : Ref}
    (leads : g.Leads r steps place) {fuel : Nat} {v : Value}
    (h : g.toValueWithin fuel r = .ok v) :
    ∃ w, v.fetch steps = .ok w ∧ g.Plain place ∧
      ∃ less, less ≤ fuel ∧ g.toValueWithin less place = .ok w := by
  induction leads generalizing fuel v with
  | here r => exact ⟨v, rfl, plain, fuel, Nat.le_refl fuel, h⟩
  | @key r c place flag entries name steps node member _ ih =>
      obtain _ | fuel := fuel
      · cases h
      have own := plain.own
      rw [toValueWithin_succ_iff own, node] at h
      rw [node] at own
      obtain ⟨rfl, parts, rfl, distinct⟩ := own
      have part : c ∈ (g.node r).parts := by
        rw [node]
        exact List.mem_map_of_mem member
      have held : (name, c) ∈ parts := by
        obtain ⟨p, inside, same⟩ := List.mem_map.1 member
        cases same
        exact inside
      generalize shown : ObjectNode.named parts = entries at h
      cases h with | mapping each =>
      cases ObjectNode.named_injective shown
      let P (c : Ref) (w : Value) : Prop := g.toValueWithin fuel c = .ok w
      obtain ⟨w, found, converted⟩ := exists_lookup_of_forall₂ (P := P) each distinct held
      obtain ⟨w', fetched, plain', less, shorter, own⟩ := ih (plain.part part) converted
      refine ⟨w', ?_, plain', less, by omega, own⟩
      rw [Value.fetch_cons_of_get (w := w)]
      · exact fetched
      · rw [Value.get, Value.entry, found]
        rfl
  | @index r c place items position steps node found _ ih =>
      obtain _ | fuel := fuel
      · cases h
      rw [toValueWithin_succ_iff plain.own, node] at h
      cases h with | list each =>
      have part : c ∈ (g.node r).parts := by
        rw [node]
        obtain ⟨_, -, inside⟩ := elementAt?_eq_some_iff.1 found
        exact List.mem_of_getElem? inside
      obtain ⟨w, found', converted⟩ := exists_elementAt?_of_forall₂ each found
      obtain ⟨w', fetched, plain', less, shorter, own⟩ := ih (plain.part part) converted
      refine ⟨w', ?_, plain', less, by omega, own⟩
      rw [Value.fetch_cons_of_get (w := w)]
      · exact fetched
      · rw [Value.get, Value.element, found']
        rfl

end Graph

end Templating
