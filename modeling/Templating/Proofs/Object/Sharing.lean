import Mathlib.Logic.Relation
import Templating.Object.Encoding
import Templating.Proofs.Outcome

/-!
# Shared objects

An object may be a part of several others, and of one of them in several ways.  Encoding refuses an
object that it meets again below itself, and no other, but for one kind of nesting: a record that a
provider hands out is noted twice, by what was handed out and by what it is, and is taken for an
object below itself.
-/

namespace Templating

/-! ## Objects and their parts -/

namespace ObjectNode

/-- The objects by whose values this one is encoded. -/
def parts : ObjectNode → List Ref
  | .list items | .tuple items | .set items | .frozenSet items => items
  | .mapping _ entries => entries.map (·.2)
  | .member value => [value]
  | .record _ fields => fields.filterMap (·.2.toOption)
  | .provider answer => answer.toOption.toList
  | _ => []

/-- Plain data with texts for keys, a moment, a member of an enumeration, a record whose fields can
be read, or a provider that hands something out. -/
def Supported : ObjectNode → Prop
  | .ready _ | .null | .bool _ | .int _ | .float _ | .string _ | .moment _ => True
  | .member _ | .intMember _ | .textMember .. => True
  | .list _ | .tuple _ | .set _ | .frozenSet _ => True
  | .mapping _ entries => ∀ entry ∈ entries, ∃ name, entry.1 = .text name
  | .record _ fields => ∀ field ∈ fields, ∃ r, field.2 = .ok r
  | .provider answer => ∃ r, answer = .ok r
  | _ => False

/-- The value of an object that stands for one by itself. -/
def atom? : ObjectNode → Option Value
  | .ready v => some v
  | .null => some .null
  | .bool b => some (.bool b)
  | .int n | .intMember n => some (.int n)
  | .float x => some (.float x)
  | .string s => some (.string s)
  | .textMember label _ => some (.string label)
  | .moment m => some (.string m.iso)
  | _ => none

theorem parts_of_atom {node : ObjectNode} {v : Value} (atom : node.atom? = some v) :
    node.parts = [] := by
  cases node <;> first | rfl | cases atom

def isContainer : ObjectNode → Bool
  | .list _ | .tuple _ | .set _ | .frozenSet _ | .mapping .. => true
  | _ => false

def isRecord : ObjectNode → Bool
  | .record .. => true
  | _ => false

theorem isRecord_of_isContainer {node : ObjectNode} (container : node.isContainer = true) :
    node.isRecord = false := by
  cases node <;> first | rfl | cases container

end ObjectNode

namespace Graph

variable (g : Graph)

def Holds (r c : Ref) : Prop := c ∈ (g.node r).parts

variable {g} in
theorem holds_iff {r c : Ref} {node : ObjectNode} (same : g.node r = node) :
    g.Holds r c ↔ c ∈ node.parts := by
  rw [Holds, same]

/-- The object is the other one or somewhere below it. -/
abbrev Within : Ref → Ref → Prop := Relation.ReflTransGen g.Holds

abbrev Below : Ref → Ref → Prop := Relation.TransGen g.Holds

/-- No way down from an object is longer; thus none leads back to it. -/
def Shallow : Nat → Ref → Prop
  | 0, r => (g.node r).parts = []
  | n + 1, r => ∀ c ∈ (g.node r).parts, Shallow n c

instance (g : Graph) : (n : Nat) → (r : Ref) → Decidable (g.Shallow n r)
  | 0, r => inferInstanceAs (Decidable ((g.node r).parts = []))
  | n + 1, r =>
    have (c : Ref) := instDecidableShallow g n c
    inferInstanceAs (Decidable (∀ c ∈ (g.node r).parts, g.Shallow n c))

/-- The object is a provider of a record. -/
def HandsOutRecord (r : Ref) : Prop :=
  ∃ c, g.node r = .provider (.ok c) ∧ (g.node c).isRecord = true

/-- All that is in the object can be encoded for itself, and what is in a set has a text. -/
structure Encodable (r : Ref) : Prop where
  supported : ∀ c, g.Within r c → (g.node c).Supported
  texts : ∀ s items, g.Within r s → g.node s = .set items ∨ g.node s = .frozenSet items →
    ∀ c ∈ items, ∀ v, g.encode c = .ok v → ∃ text, v.text = .ok text

variable {g} {r c : Ref}

theorem Encodable.part (h : g.Encodable r) (part : g.Holds r c) : g.Encodable c where
  supported _ within := h.supported _ (within.head part)
  texts s items within := h.texts s items (within.head part)

theorem not_holds_of_shallow (leaf : g.Shallow 0 r) (c : Ref) : ¬ g.Holds r c := by
  rw [Holds, show (g.node r).parts = [] from leaf]
  exact List.not_mem_nil

theorem not_below_self {n : Nat} (shallow : g.Shallow n r) : ¬ g.Below r r := by
  induction n generalizing r with
  | zero =>
      intro below
      obtain ⟨c, part, -⟩ := Relation.TransGen.head'_iff.1 below
      exact not_holds_of_shallow shallow c part
  | succ n ih =>
      intro below
      obtain ⟨c, part, within⟩ := Relation.TransGen.head'_iff.1 below
      exact ih (shallow c part) (Relation.TransGen.tail' within part)

/-! ## Outcomes -/

/-- The result is the value if all is clean, else an object is taken for one below itself. -/
def Meets {α : Type} (clean : Prop) (a : α) (result : Except Error α) : Prop :=
  (clean → result = .ok a) ∧ (¬ clean → ∃ path, result = .error (.encoding .circular path))

namespace Meets

variable {α β : Type} {clean : Prop} {a : α} {result : Except Error α}

theorem of_ok (h : clean) (same : result = .ok a) : Meets clean a result :=
  ⟨fun _ => same, fun not => absurd h not⟩

theorem of_circular (h : ¬ clean) {path : String}
    (same : result = .error (.encoding .circular path)) : Meets clean a result :=
  ⟨fun yes => absurd yes h, fun _ => ⟨path, same⟩⟩

theorem congr {clean' : Prop} (h : Meets clean a result) (same : clean ↔ clean') :
    Meets clean' a result := by
  rwa [← propext same]

theorem bind (h : Meets clean a result) {f : α → Except Error β} {b : β}
    (next : clean → f a = .ok b) : Meets clean b (result >>= f) := by
  refine ⟨fun yes => ?_, fun no => ?_⟩
  · rw [h.1 yes]
    exact next yes
  · obtain ⟨path, same⟩ := h.2 no
    exact ⟨path, by rw [same]; rfl⟩

theorem settle {v : Value} {result : Except Error Value} (h : Meets clean v result)
    (trail : Trail) : Meets clean v (settle trail result) := by
  refine ⟨fun yes => ?_, fun no => ?_⟩
  · rw [h.1 yes]
    rfl
  · obtain ⟨path, same⟩ := h.2 no
    exact ⟨path, by rw [same]; rfl⟩

theorem mapM {clean : α → Prop} {w : α → β} {f : α → Except Error β} {xs : List α}
    (h : ∀ x ∈ xs, Meets (clean x) (w x) (f x)) :
    Meets (∀ x ∈ xs, clean x) (xs.map w) (xs.mapM f) := by
  induction xs with
  | nil => exact of_ok (fun _ member => nomatch member) rfl
  | cons x xs ih =>
      have first := h x List.mem_cons_self
      have others := ih fun y member => h y (List.mem_cons_of_mem x member)
      rw [List.mapM_cons]
      by_cases good : clean x
      · rw [first.1 good]
        refine (others.congr ?_).bind fun _ => rfl
        simp [good]
      · obtain ⟨path, same⟩ := first.2 good
        have failed : (do
            let y ← f x
            let ys ← xs.mapM f
            return y :: ys) = .error (.encoding .circular path) := by
          rw [same]
          rfl
        exact of_circular (fun all => good (all x List.mem_cons_self)) failed

end Meets

/-! ## One object -/

/-- No provider of a record is in the object. -/
def Clean (g : Graph) (r : Ref) : Prop := ∀ c, g.Within r c → ¬ g.HandsOutRecord c

theorem clean_iff : g.Clean r ↔ ¬ g.HandsOutRecord r ∧ ∀ c, g.Holds r c → g.Clean c := by
  constructor
  · exact fun clean => ⟨clean r .refl, fun c part d within => clean d (within.head part)⟩
  · rintro ⟨own, parts⟩ d within
    rcases Relation.ReflTransGen.cases_head_iff.1 within with rfl | ⟨c, part, rest⟩
    · exact own
    · exact parts c part d rest

theorem clean_iff_parts (h : ∀ answer, g.node r ≠ .provider answer) :
    g.Clean r ↔ ∀ c, g.Holds r c → g.Clean c := by
  rw [clean_iff, and_iff_right]
  rintro ⟨c, provider, -⟩
  exact h _ provider

/-- The value of an object by itself, if it has one. -/
def valueOf (g : Graph) (r : Ref) : Value := (g.encode r).toOption.getD .null

/-- An object that is noted while its parts are encoded. -/
def Noted (g : Graph) (r : Ref) : Prop :=
  (g.node r).isContainer = true ∨ (g.node r).isRecord = true

/-- None of the objects is below the other one, or is that one where it would be noted again. -/
def Clear (g : Graph) (active : List Ref) (r : Ref) : Prop :=
  ∀ a ∈ active, ¬ g.Below r a ∧ (g.Noted r → a ≠ r)

/-- With so much fuel, the object comes to its value or is taken for one below itself, wherever it
is met. -/
def Settles (g : Graph) (enough : Nat) (r : Ref) : Prop :=
  ∀ fuel active trail, enough ≤ fuel → g.Clear active r →
    Meets (g.Clean r) (g.valueOf r) (g.encodeWithin fuel active trail r)

theorem Clear.part {active : List Ref} (clear : g.Clear active r) (part : g.Holds r c) :
    g.Clear active c := by
  intro a member
  have above := (clear a member).1
  refine ⟨fun below => above (below.head part), ?_⟩
  rintro - rfl
  exact above (.single part)

theorem Clear.part_cons {active : List Ref} (clear : g.Clear active r) (acyclic : ¬ g.Below r r)
    (part : g.Holds r c) : g.Clear (r :: active) c := by
  intro a member
  rcases List.mem_cons.1 member with rfl | member
  · refine ⟨fun below => acyclic (below.head part), ?_⟩
    rintro - rfl
    exact acyclic (.single part)
  · exact clear.part part a member

theorem Clear.absent {active : List Ref} (clear : g.Clear active r) (noted : g.Noted r) :
    r ∉ active := fun member => (clear r member).2 noted rfl

theorem encode_of_ok {v : Value} (h : g.encodeWithin depthLimit [] [] r = .ok v) :
    g.encode r = .ok v := by
  rw [encode, h]

/-- The value does not depend on where the object is met, so that it is the one by itself. -/
theorem settles_of_value {enough : Nat} (limit : enough ≤ depthLimit) {v : Value}
    (h : ∀ fuel active trail, enough ≤ fuel → g.Clear active r →
      Meets (g.Clean r) v (g.encodeWithin fuel active trail r)) : g.Settles enough r := by
  intro fuel active trail bound clear
  refine ⟨fun clean => ?_, (h fuel active trail bound clear).2⟩
  have alone := encode_of_ok ((h depthLimit [] [] limit (fun _ member => nomatch member)).1 clean)
  rw [valueOf, alone]
  exact (h fuel active trail bound clear).1 clean

theorem encodeWithin_container (container : (g.node r).isContainer = true) (fuel : Nat)
    (active : List Ref) (trail : Trail) :
    g.encodeWithin (fuel + 1) active trail r = g.partsWithin fuel active trail r := by
  cases h : g.node r <;> rw [h] at container <;> cases container
  all_goals simp only [encodeWithin, h]

theorem partsWithin_other (other : (g.node r).isContainer = false) (fuel : Nat)
    {active : List Ref} (absent : r ∉ active) (trail : Trail) :
    g.partsWithin (fuel + 1) active trail r = g.encodeWithin fuel (r :: active) trail r := by
  cases h : g.node r <;> rw [h] at other <;> cases other
  all_goals simp only [partsWithin, h, if_neg absent]

theorem exists_orderByText {values : List Value} (h : ∀ v ∈ values, ∃ text, v.text = .ok text) :
    ∃ ordered, orderByText values = .ok ordered := by
  have keyed : (values.mapM fun v => do return (← v.text, v) :
      Except Error (List (String × Value))) =
      .ok (values.map fun v => (v.text.toOption.getD "", v)) := by
    refine mapM_eq_ok_map fun v member => ?_
    obtain ⟨text, own⟩ := h v member
    rw [own]
    rfl
  exact ⟨_, by rw [orderByText, keyed]; rfl⟩

theorem exists_named {entries : List (MapKey × Ref)}
    (texts : ∀ entry ∈ entries, ∃ name, entry.1 = .text name) :
    ∃ parts : List (String × Ref), entries = parts.map fun part => (.text part.1, part.2) := by
  induction entries with
  | nil => exact ⟨[], rfl⟩
  | cons entry entries ih =>
      obtain ⟨key, c⟩ := entry
      obtain ⟨name, rfl⟩ : ∃ name, key = .text name := texts _ List.mem_cons_self
      obtain ⟨parts, rfl⟩ := ih fun other member => texts other (List.mem_cons_of_mem _ member)
      exact ⟨(name, c) :: parts, rfl⟩

/-- The fields of a record with what they hold. -/
def readFields (fields : List (String × Except Error Ref)) : List (String × Ref) :=
  fields.map fun field => (field.1, field.2.toOption.getD 0)

theorem parts_record {name : String} {fields : List (String × Except Error Ref)}
    (readable : ∀ field ∈ fields, ∃ c, field.2 = .ok c) :
    (ObjectNode.record name fields).parts = (readFields fields).map (·.2) := by
  simp only [ObjectNode.parts, readFields]
  induction fields with
  | nil => rfl
  | cons field fields ih =>
      obtain ⟨key, result⟩ := field
      obtain ⟨c, rfl⟩ : ∃ c, result = .ok c := readable _ List.mem_cons_self
      have others := ih fun other member => readable other (List.mem_cons_of_mem _ member)
      exact congrArg (c :: ·) others

theorem encodeWithin_record {name : String} {fields : List (String × Except Error Ref)}
    (node : g.node r = .record name fields) (readable : ∀ field ∈ fields, ∃ c, field.2 = .ok c)
    (fuel : Nat) (active : List Ref) (trail : Trail) :
    g.encodeWithin (fuel + 1) active trail r = settle trail
      (if r ∈ active then .error (.encoding .circular trail.text)
      else do
        let encoded ← (readFields fields).mapM fun part => do
          return (part.1, ← g.encodeWithin fuel (r :: active) (.key part.1 :: trail) part.2)
        return .ofEntries encoded) := by
  have hook : failedHook fields = .ok () := by
    unfold failedHook
    split
    · next e found =>
      obtain ⟨c, ok⟩ := readable (hookName, .error e) (mem_of_lookup found)
      cases ok
    · rfl
  have read : (fields.mapM fun field => do return (field.1, ← field.2) :
      Except Error (List (String × Ref))) = .ok (readFields fields) := by
    refine mapM_eq_ok_map fun field member => ?_
    obtain ⟨c, ok⟩ := readable field member
    rw [ok]
    rfl
  simp only [encodeWithin, node, hook, read]
  rfl

section Step

variable {b : Nat} (encodable : g.Encodable r) (acyclic : ¬ g.Below r r)
  (limit : b + 3 ≤ depthLimit) (settled : ∀ c, g.Holds r c → g.Settles b c)

include limit

theorem settles_atom {v : Value} (atom : (g.node r).atom? = some v) : g.Settles (b + 3) r := by
  have other (answer : Except Error Ref) : g.node r ≠ .provider answer := by
    intro node
    rw [node] at atom
    cases atom
  have clean : g.Clean r := by
    refine (clean_iff_parts other).2 fun c part => ?_
    rw [holds_iff rfl, ObjectNode.parts_of_atom atom] at part
    cases part
  refine settles_of_value limit (v := v) fun fuel active trail bound clear => ?_
  obtain ⟨less, rfl⟩ := Nat.exists_eq_add_of_le' (show 1 ≤ fuel by omega)
  refine .of_ok clean ?_
  cases h : g.node r <;> rw [h] at atom <;> cases atom
  all_goals simp only [encodeWithin, h]

include settled

theorem settles_member {value : Ref} (node : g.node r = .member value) :
    g.Settles (b + 3) r := by
  have part : g.Holds r value := (holds_iff node).2 List.mem_cons_self
  refine settles_of_value limit (v := g.valueOf value) fun fuel active trail bound clear => ?_
  obtain ⟨less, rfl⟩ := Nat.exists_eq_add_of_le' (show 1 ≤ fuel by omega)
  have inner := settled value part less active trail (by omega) (clear.part part)
  have same : g.Clean value ↔ g.Clean r := by
    rw [clean_iff_parts (r := r) (by simp [node])]
    simp only [holds_iff node, ObjectNode.parts, List.mem_singleton, forall_eq]
  rw [encodeWithin_of_member node]
  exact inner.congr same

include acyclic

theorem settles_items {items : List Ref}
    (node : g.node r = .list items ∨ g.node r = .tuple items) : g.Settles (b + 3) r := by
  have holds (c : Ref) : g.Holds r c ↔ c ∈ items := by
    rcases node with node | node <;> exact holds_iff node
  refine settles_of_value limit (v := .array (items.zipIdx.map fun item => g.valueOf item.1))
    fun fuel active trail bound clear => ?_
  obtain ⟨less, rfl⟩ := Nat.exists_eq_add_of_le' (show 2 ≤ fuel by omega)
  have absent : r ∉ active := clear.absent (.inl (by
    rcases node with node | node <;> rw [node] <;> rfl))
  have each : ∀ item ∈ items.zipIdx, Meets (g.Clean item.1) (g.valueOf item.1)
      (g.encodeWithin less (r :: active) (.index item.2 :: trail) item.1) := by
    intro item member
    have part := (holds item.1).2 (List.fst_mem_of_mem_zipIdx member)
    exact settled item.1 part less _ _ (by omega) (clear.part_cons acyclic part)
  have same : (∀ item ∈ items.zipIdx, g.Clean item.1) ↔ g.Clean r := by
    rw [clean_iff_parts (by rcases node with node | node <;> simp [node])]
    simp only [holds]
    refine ⟨fun all c member => ?_, fun all item member => ?_⟩
    · rw [← List.zipIdx_map_fst 0 items] at member
      obtain ⟨item, found, rfl⟩ := List.mem_map.1 member
      exact all item found
    · exact all item.1 (List.fst_mem_of_mem_zipIdx member)
  rw [encodeWithin_items node, if_neg absent]
  exact ((Meets.mapM each).congr same).bind fun _ => rfl

omit limit in
/-- The parts of a mapping or of a record, each under its name. -/
theorem meets_named {parts : List (String × Ref)} (held : (g.node r).parts = parts.map (·.2))
    (other : ∀ answer, g.node r ≠ .provider answer) {less : Nat} (enough : b ≤ less)
    {active : List Ref} (clear : g.Clear active r) (trail : Trail) :
    Meets (g.Clean r) (Value.ofEntries (parts.map fun part => (part.1, g.valueOf part.2)))
      (do
        let encoded ← parts.mapM fun part => do
          return (part.1, ← g.encodeWithin less (r :: active) (.key part.1 :: trail) part.2)
        return Value.ofEntries encoded) := by
  have each : ∀ part ∈ parts, Meets (g.Clean part.2) (part.1, g.valueOf part.2)
      (do return (part.1, ← g.encodeWithin less (r :: active) (.key part.1 :: trail) part.2)) := by
    intro part member
    have holds : g.Holds r part.2 := by
      rw [holds_iff rfl, held]
      exact List.mem_map_of_mem member
    exact (settled _ holds less _ _ enough (clear.part_cons acyclic holds)).bind fun _ => rfl
  have same : (∀ part ∈ parts, g.Clean part.2) ↔ g.Clean r := by
    rw [clean_iff_parts other]
    simp only [holds_iff rfl, held, List.forall_mem_map]
  exact ((Meets.mapM each).congr same).bind fun _ => rfl

theorem settles_entries {plain : Bool} {entries : List (MapKey × Ref)}
    (node : g.node r = .mapping plain entries)
    (texts : ∀ entry ∈ entries, ∃ name, entry.1 = .text name) : g.Settles (b + 3) r := by
  obtain ⟨parts, rfl⟩ := exists_named texts
  have held : (g.node r).parts = parts.map (·.2) := by
    rw [node]
    exact List.map_map
  refine settles_of_value limit
    (v := .ofEntries (parts.map fun part => (part.1, g.valueOf part.2)))
    fun fuel active trail bound clear => ?_
  obtain ⟨less, rfl⟩ := Nat.exists_eq_add_of_le' (show 2 ≤ fuel by omega)
  have absent : r ∉ active := clear.absent (.inl (by rw [node]; rfl))
  rw [encodeWithin_named node, if_neg absent]
  exact meets_named acyclic settled held (by simp [node]) (by omega) clear trail

theorem settles_fields {name : String} {fields : List (String × Except Error Ref)}
    (node : g.node r = .record name fields) (readable : ∀ field ∈ fields, ∃ c, field.2 = .ok c) :
    g.Settles (b + 3) r := by
  have held : (g.node r).parts = (readFields fields).map (·.2) := by
    rw [node, parts_record readable]
  refine settles_of_value limit
    (v := .ofEntries ((readFields fields).map fun part => (part.1, g.valueOf part.2)))
    fun fuel active trail bound clear => ?_
  obtain ⟨less, rfl⟩ := Nat.exists_eq_add_of_le' (show 1 ≤ fuel by omega)
  have absent : r ∉ active := clear.absent (.inr (by rw [node]; rfl))
  rw [encodeWithin_record node readable, if_neg absent]
  exact (meets_named acyclic settled held (by simp [node]) (by omega) clear trail).settle trail

include encodable

theorem settles_set {items : List Ref}
    (node : g.node r = .set items ∨ g.node r = .frozenSet items) : g.Settles (b + 3) r := by
  have holds (c : Ref) : g.Holds r c ↔ c ∈ items := by
    rcases node with node | node <;> exact holds_iff node
  have same : (∀ c ∈ items, g.Clean c) ↔ g.Clean r := by
    rw [clean_iff_parts (by rcases node with node | node <;> simp [node])]
    simp only [holds]
  let ordered := (orderByText (items.map g.valueOf)).toOption.getD []
  refine settles_of_value limit (v := .array ordered) fun fuel active trail bound clear => ?_
  obtain ⟨less, rfl⟩ := Nat.exists_eq_add_of_le' (show 2 ≤ fuel by omega)
  have absent : r ∉ active := clear.absent (.inl (by
    rcases node with node | node <;> rw [node] <;> rfl))
  have body : g.encodeWithin (less + 2) active trail r = (do
      let encoded ← items.mapM (g.encodeWithin less (r :: active) (.element :: trail))
      return .array (← orderByText encoded)) := by
    rcases node with node | node <;> simp only [encodeWithin, partsWithin, node, if_neg absent]
  have each : ∀ c ∈ items, Meets (g.Clean c) (g.valueOf c)
      (g.encodeWithin less (r :: active) (.element :: trail) c) := by
    intro c member
    have part := (holds c).2 member
    exact settled c part less _ _ (by omega) (clear.part_cons acyclic part)
  rw [body]
  refine ((Meets.mapM each).congr same).bind fun clean => ?_
  have texts : ∀ v ∈ items.map g.valueOf, ∃ text, v.text = .ok text := by
    intro v member
    obtain ⟨c, found, rfl⟩ := List.mem_map.1 member
    have part := (holds c).2 found
    have alone := encode_of_ok
      ((settled c part depthLimit [] [] (by omega) (fun _ none => (List.not_mem_nil none).elim)).1
        (same.2 clean c found))
    exact encodable.texts r items .refl node c found _ alone
  obtain ⟨found, order⟩ := exists_orderByText texts
  have value : ordered = found := by
    show (orderByText (items.map g.valueOf)).toOption.getD [] = found
    rw [order]
    rfl
  rw [value, order]
  rfl

omit acyclic in
/-- What a provider hands out is noted before it is looked at, a record once more as what it is. -/
theorem settles_provider {c : Ref} (node : g.node r = .provider (.ok c))
    (acyclic' : ¬ g.Below c c) : g.Settles (b + 3) r := by
  have holds (d : Ref) : g.Holds r d ↔ d ∈ [c] := holds_iff node
  have part : g.Holds r c := (holds c).2 List.mem_cons_self
  have same (plain : (g.node c).isRecord = false) : g.Clean c ↔ g.Clean r := by
    have own : ¬ g.HandsOutRecord r := by simp [HandsOutRecord, node, plain]
    rw [clean_iff (r := r), and_iff_right own]
    simp only [holds, List.mem_singleton, forall_eq]
  refine settles_of_value limit (v := g.valueOf c) fun fuel active trail bound clear => ?_
  obtain ⟨less, rfl⟩ := Nat.exists_eq_add_of_le' (show 3 ≤ fuel by omega)
  rw [encodeWithin_of_provider node, ok_bind]
  cases container : (g.node c).isContainer with
  | true =>
      have plain := ObjectNode.isRecord_of_isContainer container
      rw [← encodeWithin_container container]
      have inner := settled c part (less + 3) active trail (by omega) (clear.part part)
      exact (inner.congr (same plain)).settle trail
  | false =>
      have absent : c ∉ active := fun member => (clear c member).1 (.single part)
      rw [partsWithin_other container _ absent]
      cases record : (g.node c).isRecord with
      | true =>
          have dirty : ¬ g.Clean r := fun clean => clean r .refl ⟨c, node, record⟩
          have supported := encodable.supported c (.single part)
          cases h : g.node c with
          | record name fields =>
              rw [h] at supported
              rw [encodeWithin_record h supported, if_pos List.mem_cons_self]
              exact .of_circular dirty rfl
          | _ =>
              rw [h] at record
              cases record
      | false =>
          have clear' : g.Clear (c :: active) c := by
            intro a member
            have noted : ¬ g.Noted c := by simp [Noted, container, record]
            rcases List.mem_cons.1 member with rfl | member
            · exact ⟨acyclic', fun h => absurd h noted⟩
            · exact ⟨(clear.part part a member).1, fun h => absurd h noted⟩
          have inner := settled c part (less + 1) (c :: active) trail (by omega) clear'
          exact (inner.congr (same record)).settle trail

theorem settles_step (acyclic' : ∀ c, g.Holds r c → ¬ g.Below c c) : g.Settles (b + 3) r := by
  have supported := encodable.supported r .refl
  cases node : g.node r with
  | list items => exact settles_items acyclic limit settled (.inl node)
  | tuple items => exact settles_items acyclic limit settled (.inr node)
  | set items => exact settles_set encodable acyclic limit settled (.inl node)
  | frozenSet items => exact settles_set encodable acyclic limit settled (.inr node)
  | mapping plain entries =>
      rw [node] at supported
      exact settles_entries acyclic limit settled node supported
  | member value => exact settles_member limit settled node
  | record name fields =>
      rw [node] at supported
      exact settles_fields acyclic limit settled node supported
  | provider answer =>
      rw [node] at supported
      obtain ⟨c, rfl⟩ := supported
      exact settles_provider encodable limit settled node
        (acyclic' c ((holds_iff node).2 List.mem_cons_self))
  | ready | null | bool | int | float | string | moment | intMember | textMember =>
      exact settles_atom limit (congrArg ObjectNode.atom? node)
  | bytes | duration | zone | recordType | classObject | method | kindLabel | other | custom =>
      rw [node] at supported
      exact supported.elim

end Step

/-! ## Shallow graphs -/

theorem settles_of_shallow {n : Nat} (encodable : g.Encodable r) (shallow : g.Shallow n r)
    (limit : 3 * n + 3 ≤ depthLimit) : g.Settles (3 * n + 3) r := by
  induction n generalizing r with
  | zero =>
      have empty (c : Ref) (part : g.Holds r c) := not_holds_of_shallow shallow c part
      exact settles_step encodable (not_below_self shallow) limit
        (fun c part => (empty c part).elim) fun c part => (empty c part).elim
  | succ n ih =>
      exact settles_step encodable (not_below_self shallow) limit
        (fun c part => ih (encodable.part part) (shallow c part) (by omega))
        fun c part => not_below_self (shallow c part)

/-- Data at most a hundred levels deep is encoded whatever it shares, but for providers of records:
where one is met, the record is taken for one below itself. -/
theorem encode_of_shallow (encodable : g.Encodable r) (shallow : g.Shallow 100 r) :
    ((∀ c, g.Within r c → ¬ g.HandsOutRecord c) → ∃ v, g.encode r = .ok v) ∧
    ((∃ c, g.Within r c ∧ g.HandsOutRecord c) →
      ∃ path, g.encode r = .error (.encoding .circular path)) := by
  have settles := settles_of_shallow encodable shallow (by decide)
  have outcome := settles depthLimit [] [] (by decide) (fun _ member => nomatch member)
  refine ⟨fun clean => ⟨g.valueOf r, encode_of_ok (outcome.1 clean)⟩, ?_⟩
  rintro ⟨c, within, record⟩
  obtain ⟨path, same⟩ := outcome.2 fun clean => clean c within record
  exact ⟨path, by rw [encode, same]⟩

/-- A list that a mapping holds twice and a provider once more, of a text that a set holds too. -/
def sharedGraph : Graph where
  node
    | 0 => .mapping true [(.text "a", 1), (.text "b", 1), (.text "c", 2), (.text "d", 4)]
    | 1 => .list [3, 3]
    | 2 => .provider (.ok 1)
    | 3 => .string "x"
    | 4 => .set [3]
    | _ => .null

theorem encode_sharedGraph :
    sharedGraph.Encodable 0 ∧ sharedGraph.Shallow 100 0 ∧
      (∀ c, sharedGraph.Within 0 c → ¬ sharedGraph.HandsOutRecord c) ∧
      ∃ v, sharedGraph.encode 0 = .ok v := by
  have encodable : sharedGraph.Encodable 0 := by
    constructor
    · intro c _
      simp only [sharedGraph]
      split <;> simp [ObjectNode.Supported]
    · intro s items _ node c member v value
      have single : items = [3] := by
        simp only [sharedGraph] at node
        split at node <;> simp_all
      rw [single, List.mem_singleton] at member
      subst member
      cases (show sharedGraph.encode 3 = .ok (.string "x") from rfl).symm.trans value
      exact ⟨"x", rfl⟩
  have shallow : sharedGraph.Shallow 100 0 := by decide
  have clean : ∀ c, sharedGraph.Within 0 c → ¬ sharedGraph.HandsOutRecord c := by
    rintro c - ⟨d, -, record⟩
    simp only [sharedGraph] at record
    split at record <;> cases record
  exact ⟨encodable, shallow, clean, (encode_of_shallow encodable shallow).1 clean⟩

/-- A provider of a record. -/
def handedOutRecord : Graph where
  node
    | 0 => .provider (.ok 1)
    | 1 => .record "User" [("name", .ok 2)]
    | 2 => .string "Ada"
    | _ => .null

theorem handedOutRecord_taken_for_circular :
    handedOutRecord.Encodable 0 ∧ handedOutRecord.Shallow 100 0 ∧
      handedOutRecord.encode 0 = .error (.encoding .circular "$") := by
  refine ⟨⟨fun c _ => ?_, fun s items _ node => ?_⟩, by decide, rfl⟩
  · simp only [handedOutRecord]
    split <;> simp [ObjectNode.Supported]
  · simp only [handedOutRecord] at node
    split at node <;> simp_all

end Graph

end Templating
