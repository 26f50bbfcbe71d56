import Templating.Proofs.Object.Circularity

/-!
# What encoding refuses first

Lists, tuples, mappings and records make a tree of the data, with what offends encoding at its
leaves or for a key.  All that offends is listed here with its place, depth first and from left to
right.  Encoding fails with the first of the list and succeeds if there is none.  A key that is no
text belongs to the place of its mapping; where it cannot even be shown, the failure to show it
takes the place of the error, and a record around it lends it its own place.
-/

namespace Templating

/-! ## The first of several errors -/

/-- The first of the errors, or the value if there is none. -/
def firstOr {α : Type} : List Error → α → Except Error α
  | [], a => .ok a
  | e :: _, _ => .error e

section FirstOr

variable {α β : Type} {errors others : List Error} {a : α} {b : β}

theorem firstOr_bind {f : α → Except Error β} (next : f a = firstOr others b) :
    firstOr errors a >>= f = firstOr (errors ++ others) b := by
  cases errors with
  | nil => exact next
  | cons e rest => rfl

theorem firstOr_map (f : α → β) : (do return f (← firstOr errors a)) = firstOr errors (f a) := by
  cases errors <;> rfl

theorem mapM_firstOr {f : α → Except Error β} {below : α → List Error} {w : α → β} {xs : List α}
    (each : ∀ x ∈ xs, f x = firstOr (below x) (w x)) :
    xs.mapM f = firstOr (xs.flatMap below) (xs.map w) := by
  induction xs with
  | nil => rfl
  | cons x xs ih =>
      have others := ih fun y member => each y (List.mem_cons_of_mem x member)
      rw [List.mapM_cons, each x List.mem_cons_self, others, List.flatMap_cons, List.map_cons]
      exact firstOr_bind (firstOr_map (w x :: ·))

end FirstOr

/-- The error as it leaves an object at the place that hands out its own parts. -/
def Error.settledAt (trail : Trail) (e : Error) : Error :=
  if e.isSettled then e else .encodingFailed e trail.text

theorem settle_firstOr (trail : Trail) (errors : List Error) (v : Value) :
    settle trail (firstOr errors v) = firstOr (errors.map (Error.settledAt trail)) v := by
  cases errors with
  | nil => rfl
  | cons e rest => exact (apply_ite Except.error _ _ _).symm

/-! ## Offences -/

inductive Offender
  /-- An object of a class that has no value. -/
  | unsupported (found : String)
  /-- A key of a mapping that is no text. -/
  | key (ref : Ref)

/-- What offends encoding, the place that is to blame, and the place of the innermost record
around it. -/
structure Offence where
  place : Trail
  offender : Offender
  record : Option Trail

def Offence.inRecord (trail : Trail) (offence : Offence) : Offence :=
  { offence with record := offence.record.or (some trail) }

namespace ObjectNode

/-- Anything but a set and an object that hands out a value or fails when it is asked for one or for
a field. -/
def InTree : ObjectNode → Prop
  | .set _ | .frozenSet _ | .provider _ => False
  | .record _ fields => ∀ field ∈ fields, ∃ r, field.2 = .ok r
  | .custom _ _ attributes _ => failedHook attributes = .ok ()
  | _ => True

/-- The value of an object in a tree whose parts have values. -/
def valueFrom (part : Ref → Value) : ObjectNode → Value
  | .list items | .tuple items => .array (items.map part)
  | .mapping _ entries =>
    let name (entry : MapKey × Ref) : String :=
      match entry.1 with
      | .text name => name
      | .object _ => ""
    .ofEntries (entries.map fun entry => (name entry, part entry.2))
  | .record _ fields =>
    .ofEntries ((Graph.readFields fields).map fun field => (field.1, part field.2))
  | .member value => part value
  | node => node.atom?.getD .null

end ObjectNode

namespace Graph

variable (g : Graph)

/-- What offends encoding at a place, given what does below the parts of the object there. -/
def offencesOf (below : Ref → Trail → List Offence) (r : Ref) (trail : Trail) : List Offence :=
  match g.node r with
  | .list items | .tuple items =>
    items.zipIdx.flatMap fun item => below item.1 (.index item.2 :: trail)
  | .mapping _ entries =>
    entries.flatMap fun entry =>
      match entry.1 with
      | .text name => below entry.2 (.key name :: trail)
      | .object key => [⟨trail, .key key, none⟩]
  | .record _ fields =>
    (readFields fields).flatMap fun field =>
      (below field.2 (.key field.1 :: trail)).map (.inRecord trail)
  | .member value => below value trail
  | node =>
    match node.atom? with
    | some _ => []
    | none => [⟨trail, .unsupported node.typeName, none⟩]

/-- All that offends encoding in an object at a place, at most so many levels deep. -/
def offences : Nat → Ref → Trail → List Offence
  | 0 => g.offencesOf fun _ _ => []
  | n + 1 => g.offencesOf (offences n)

/-- The value of an object, at most so many levels deep. -/
def treeValue : Nat → Ref → Value
  | 0, r => (g.node r).valueFrom fun _ => .null
  | n + 1, r => (g.node r).valueFrom (treeValue n)

def errorOf (offence : Offence) : Error :=
  match offence.offender with
  | .unsupported found => .encoding (.unsupported found) offence.place.text
  | .key key =>
    match g.literal key with
    | .ok shown => .encoding (.keyNotText shown) offence.place.text
    | .error e =>
      match offence.record with
      | some trail => e.settledAt trail
      | none => e

/-- The offender is no key, or a key that has a literal. -/
def Shows : Offender → Prop
  | .unsupported _ => True
  | .key key => ∃ shown, g.literal key = .ok shown

variable {g} {r c : Ref}

theorem settledAt_settledAt (inner outer : Trail) (e : Error) :
    (e.settledAt inner).settledAt outer = e.settledAt inner := by
  by_cases settled : e.isSettled
  · rw [show e.settledAt inner = e from if_pos settled]
    exact if_pos settled
  · rw [show e.settledAt inner = .encodingFailed e inner.text from if_neg settled]
    rfl

theorem errorOf_inRecord (trail : Trail) (offence : Offence) :
    g.errorOf (offence.inRecord trail) = (g.errorOf offence).settledAt trail := by
  obtain ⟨place, offender, record⟩ := offence
  cases offender with
  | unsupported found => rfl
  | key key =>
      simp only [errorOf, Offence.inRecord]
      cases g.literal key with
      | ok shown => rfl
      | error e =>
          cases record with
          | none => rfl
          | some inner => exact (settledAt_settledAt inner trail e).symm

theorem exists_errorOf {offence : Offence} (shows : g.Shows offence.offender) :
    ∃ problem, g.errorOf offence = .encoding problem offence.place.text := by
  obtain ⟨place, offender, record⟩ := offence
  cases offender with
  | unsupported found => exact ⟨_, rfl⟩
  | key key =>
      obtain ⟨shown, literal⟩ := shows
      exact ⟨.keyNotText shown, by simp only [errorOf, literal]⟩

/-! ## One object -/

theorem map_fst_zipIdx {α : Type} (part : Ref → α) (items : List Ref) :
    items.zipIdx.map (fun item => part item.1) = items.map part := by
  conv_rhs => rw [← List.zipIdx_map_fst 0 items, List.map_map]
  rfl

/-- With so much fuel, the object comes to the first of its offences or to its value, wherever it
is met. -/
def Reports (g : Graph) (enough : Nat) (offences : Trail → List Offence) (v : Value) (r : Ref) :
    Prop :=
  ∀ fuel active trail, enough ≤ fuel → g.Clear active r →
    g.encodeWithin fuel active trail r = firstOr ((offences trail).map g.errorOf) v

section Step

variable {b : Nat} {below : Ref → Trail → List Offence} {part : Ref → Value}
  (acyclic : ¬ g.Below r r) (reports : ∀ c, g.Holds r c → g.Reports b (below c) (part c) c)

include reports in
theorem reports_member {value : Ref} (node : g.node r = .member value) :
    g.Reports (b + 2) (g.offencesOf below r) ((g.node r).valueFrom part) r := by
  have holds : g.Holds r value := (holds_iff node).2 List.mem_cons_self
  intro fuel active trail bound clear
  obtain ⟨less, rfl⟩ := Nat.exists_eq_add_of_le' (show 1 ≤ fuel by omega)
  have inner := reports value holds less active trail (by omega) (clear.part holds)
  simpa only [encodeWithin, offencesOf, ObjectNode.valueFrom, node] using inner

include acyclic reports

theorem reports_items {items : List Ref}
    (node : g.node r = .list items ∨ g.node r = .tuple items) :
    g.Reports (b + 2) (g.offencesOf below r) ((g.node r).valueFrom part) r := by
  have holds : ∀ c ∈ items, g.Holds r c := by
    rcases node with node | node <;> exact fun c => (holds_iff node).2
  intro fuel active trail bound clear
  obtain ⟨less, rfl⟩ := Nat.exists_eq_add_of_le' (show 2 ≤ fuel by omega)
  have absent : r ∉ active := clear.absent (.inl (by
    rcases node with node | node <;> rw [node] <;> rfl))
  have each : ∀ item ∈ items.zipIdx,
      g.encodeWithin less (r :: active) (.index item.2 :: trail) item.1 =
        firstOr ((below item.1 (.index item.2 :: trail)).map g.errorOf) (part item.1) := by
    intro item member
    have inside := holds item.1 (List.fst_mem_of_mem_zipIdx member)
    exact reports item.1 inside less _ _ (by omega) (clear.part_cons acyclic inside)
  rw [encodeWithin_items node, if_neg absent, mapM_firstOr each, firstOr_map Value.array,
    map_fst_zipIdx, ← List.map_flatMap]
  rcases node with node | node <;> simp only [node, offencesOf, ObjectNode.valueFrom]

theorem reports_entries {plain : Bool} {entries : List (MapKey × Ref)}
    (node : g.node r = .mapping plain entries) :
    g.Reports (b + 2) (g.offencesOf below r) ((g.node r).valueFrom part) r := by
  intro fuel active trail bound clear
  obtain ⟨less, rfl⟩ := Nat.exists_eq_add_of_le' (show 2 ≤ fuel by omega)
  have absent : r ∉ active := clear.absent (.inl (by rw [node]; rfl))
  simp only [encodeWithin, partsWithin, node, if_neg absent, offencesOf, ObjectNode.valueFrom,
    List.map_flatMap]
  rw [← firstOr_map Value.ofEntries]
  refine congrArg (· >>= _) (mapM_firstOr fun entry member => ?_)
  have holds : g.Holds r entry.2 := (holds_iff node).2 (List.mem_map_of_mem member)
  obtain ⟨key | key, c⟩ := entry
  · have inner := reports c holds less _ (.key key :: trail) (by omega)
      (clear.part_cons acyclic holds)
    simp only [inner]
    exact firstOr_map (Prod.mk key)
  -- The literal of the key is made for the error only, and its failure is the error then.
  · simp only [List.map_cons, List.map_nil, firstOr, errorOf]
    cases g.literal key <;> rfl

theorem reports_fields {name : String} {fields : List (String × Except Error Ref)}
    (node : g.node r = .record name fields) (readable : ∀ field ∈ fields, ∃ c, field.2 = .ok c) :
    g.Reports (b + 2) (g.offencesOf below r) ((g.node r).valueFrom part) r := by
  intro fuel active trail bound clear
  obtain ⟨less, rfl⟩ := Nat.exists_eq_add_of_le' (show 1 ≤ fuel by omega)
  have absent : r ∉ active := clear.absent (.inr (by rw [node]; rfl))
  have each : ∀ field ∈ readFields fields,
      (do return (field.1, ← g.encodeWithin less (r :: active) (.key field.1 :: trail) field.2)) =
        firstOr ((below field.2 (.key field.1 :: trail)).map g.errorOf)
          (field.1, part field.2) := by
    intro field member
    have holds : g.Holds r field.2 := by
      rw [holds_iff node, parts_record readable]
      exact List.mem_map_of_mem member
    rw [reports field.2 holds less _ _ (by omega) (clear.part_cons acyclic holds)]
    exact firstOr_map (Prod.mk field.1)
  rw [encodeWithin_record node readable, if_neg absent, mapM_firstOr each,
    firstOr_map Value.ofEntries, settle_firstOr]
  simp only [offencesOf, node, ObjectNode.valueFrom, List.map_flatMap, List.map_map,
    Function.comp_def, errorOf_inRecord]

theorem reports_step (tree : (g.node r).InTree) :
    g.Reports (b + 2) (g.offencesOf below r) ((g.node r).valueFrom part) r := by
  cases node : g.node r with
  | list items => exact node ▸ reports_items acyclic reports (.inl node)
  | tuple items => exact node ▸ reports_items acyclic reports (.inr node)
  | mapping plain entries => exact node ▸ reports_entries acyclic reports node
  | member value => exact node ▸ reports_member reports node
  | record name fields =>
      rw [node] at tree
      exact node ▸ reports_fields acyclic reports node tree
  | ready | null | bool | int | float | string | moment | intMember | textMember =>
      intro fuel active trail bound _
      obtain ⟨less, rfl⟩ := Nat.exists_eq_add_of_le' (show 1 ≤ fuel by omega)
      simp only [encodeWithin, node, offencesOf, ObjectNode.atom?]
      rfl
  | custom text truth attributes items =>
      rw [node] at tree
      intro fuel active trail bound _
      obtain ⟨less, rfl⟩ := Nat.exists_eq_add_of_le' (show 1 ≤ fuel by omega)
      simp only [encodeWithin, node, show failedHook attributes = .ok () from tree]
      simp only [offencesOf, node]
      rfl
  | bytes | duration | zone | recordType | classObject | method | kindLabel | other =>
      intro fuel active trail bound _
      obtain ⟨less, rfl⟩ := Nat.exists_eq_add_of_le' (show 1 ≤ fuel by omega)
      simp only [encodeWithin, node, offencesOf, ObjectNode.atom?]
      rfl
  | set | frozenSet | provider =>
      rw [node] at tree
      exact tree.elim

end Step

/-! ## Trees -/

def Tree (g : Graph) (r : Ref) : Prop := ∀ c, g.Within r c → (g.node c).InTree

theorem Tree.part (tree : g.Tree r) (part : g.Holds r c) : g.Tree c :=
  fun d within => tree d (within.head part)

theorem reports_of_shallow {n : Nat} (tree : g.Tree r) (shallow : g.Shallow n r) :
    g.Reports (2 * n + 2) (g.offences n r) (g.treeValue n r) r := by
  induction n generalizing r with
  | zero =>
      exact reports_step (not_below_self shallow)
        (fun c part => (not_holds_of_shallow shallow c part).elim) (tree r .refl)
  | succ n ih =>
      exact reports_step (not_below_self shallow)
        (fun c part => ih (tree.part part) (shallow c part)) (tree r .refl)

theorem offencesOf_eq_nil_iff {below : Ref → Trail → List Offence} {free : Ref → Prop}
    (tree : (g.node r).InTree) (parts : ∀ c, g.Holds r c → ∀ way, below c way = [] ↔ free c)
    (trail : Trail) :
    g.offencesOf below r trail = [] ↔ (g.node r).Supported ∧ ∀ c, g.Holds r c → free c := by
  simp only [Holds] at parts ⊢
  cases node : g.node r with
  | list items | tuple items =>
      rw [node] at parts
      simp only [offencesOf, node, List.flatMap_eq_nil_iff, ObjectNode.Supported, true_and]
      refine ⟨fun none c member => ?_, fun all item member => ?_⟩
      · rw [ObjectNode.parts, ← List.zipIdx_map_fst 0 items] at member
        obtain ⟨item, found, rfl⟩ := List.mem_map.1 member
        exact (parts item.1 (List.fst_mem_of_mem_zipIdx found) _).1 (none item found)
      · have inside := List.fst_mem_of_mem_zipIdx member
        exact (parts item.1 inside _).2 (all item.1 inside)
  | mapping plain entries =>
      rw [node] at parts
      simp only [ObjectNode.parts, List.forall_mem_map] at parts ⊢
      simp only [offencesOf, node, List.flatMap_eq_nil_iff, ObjectNode.Supported]
      rw [← forall₂_and]
      refine forall₂_congr fun entry member => ?_
      obtain ⟨key | key, c⟩ := entry
      · simp [parts _ member]
      · simp
  | member value =>
      rw [node] at parts
      simp [offencesOf, node, ObjectNode.Supported, ObjectNode.parts, parts value (by
        simp [ObjectNode.parts])]
  | record name fields =>
      rw [node] at tree parts
      rw [parts_record tree, List.forall_mem_map] at parts ⊢
      simp only [offencesOf, node, List.flatMap_eq_nil_iff, List.map_eq_nil_iff]
      rw [and_iff_right (show (ObjectNode.record name fields).Supported from tree)]
      exact forall₂_congr fun field member => parts field member _
  | set | frozenSet | provider =>
      rw [node] at tree
      exact tree.elim
  | _ => simp [offencesOf, node, ObjectNode.atom?, ObjectNode.Supported, ObjectNode.parts]

def Sound (g : Graph) (r : Ref) : Prop := ∀ c, g.Within r c → (g.node c).Supported

theorem sound_iff : g.Sound r ↔ (g.node r).Supported ∧ ∀ c, g.Holds r c → g.Sound c := by
  constructor
  · exact fun all => ⟨all r .refl, fun c part d rest => all d (rest.head part)⟩
  · rintro ⟨own, others⟩ c within
    rcases Relation.ReflTransGen.cases_head_iff.1 within with rfl | ⟨d, part, rest⟩
    · exact own
    · exact others d part c rest

theorem offences_eq_nil_iff {n : Nat} (tree : g.Tree r) (shallow : g.Shallow n r)
    (trail : Trail) : g.offences n r trail = [] ↔ g.Sound r := by
  induction n generalizing r trail with
  | zero =>
      rw [sound_iff]
      exact offencesOf_eq_nil_iff (tree r .refl)
        (fun c part => (not_holds_of_shallow shallow c part).elim) trail
  | succ n ih =>
      rw [sound_iff]
      exact offencesOf_eq_nil_iff (tree r .refl)
        (fun c part => ih (tree.part part) (shallow c part)) trail

theorem encode_eq_firstOr (tree : g.Tree r) (shallow : g.Shallow 100 r) :
    g.encode r =
      outermost (firstOr ((g.offences 100 r []).map g.errorOf) (g.treeValue 100 r)) :=
  congrArg outermost (reports_of_shallow tree shallow depthLimit [] [] (by decide)
    fun _ member => nomatch member)

/-- A tree at most a hundred levels deep is encoded if all in it is of a supported kind.  Else the
error is that of the first offence and tells its place, if a key that is to blame can be shown. -/
theorem encode_of_tree (tree : ∀ c, g.Within r c → (g.node c).InTree)
    (shallow : g.Shallow 100 r) :
    ((∀ c, g.Within r c → (g.node c).Supported) → g.encode r = .ok (g.treeValue 100 r)) ∧
    ((∃ c, g.Within r c ∧ ¬ (g.node c).Supported) →
      ∃ first rest, g.offences 100 r [] = first :: rest ∧
        g.encode r = outermost (.error (g.errorOf first)) ∧
        (g.Shows first.offender →
          ∃ problem, g.encode r = .error (.encoding problem first.place.text))) := by
  have encoded := encode_eq_firstOr tree shallow
  have nothing := offences_eq_nil_iff tree shallow []
  refine ⟨fun sound => ?_, fun ⟨c, within, offends⟩ => ?_⟩
  · rw [nothing.2 sound] at encoded
    exact encoded
  · cases all : g.offences 100 r [] with
    | nil => exact absurd (nothing.1 all c within) offends
    | cons first rest =>
        rw [all] at encoded
        refine ⟨first, rest, rfl, encoded, fun shows => ?_⟩
        obtain ⟨problem, error⟩ := exists_errorOf shows
        exact ⟨problem, encoded.trans (congrArg (outermost ∘ Except.error) error)⟩

/-- Two records in a tuple, the second with a field of a class that has no value, and beside them a
mapping with a key that is a number. -/
def roster : Graph where
  node
    | 0 => .mapping true [(.text "team", 1), (.text "notes", 5)]
    | 1 => .tuple [2, 3]
    | 2 => .record "User" [("name", .ok 4)]
    | 3 => .record "User" [("name", .ok 6)]
    | 4 => .string "Ada"
    | 5 => .mapping true [(.object 7, 4)]
    | 6 => .other "Widget"
    | _ => .int 7

theorem encode_roster :
    (∀ c, roster.Within 0 c → (roster.node c).InTree) ∧ roster.Shallow 100 0 ∧
      (∃ c, roster.Within 0 c ∧ ¬ (roster.node c).Supported) ∧
      roster.encode 0 = .error (.encoding (.unsupported "Widget") "$.team[1].name") := by
  have tree : ∀ c, roster.Within 0 c → (roster.node c).InTree := by
    intro c _
    simp only [roster]
    split <;> simp [ObjectNode.InTree]
  have shallow : roster.Shallow 100 0 := by decide
  have holds {r c : Ref} (part : c ∈ (roster.node r).parts) : roster.Holds r c := part
  have offends : ∃ c, roster.Within 0 c ∧ ¬ (roster.node c).Supported :=
    ⟨5, .single (holds (by decide)), by simp [roster, ObjectNode.Supported]⟩
  refine ⟨tree, shallow, offends, ?_⟩
  obtain ⟨first, rest, all, encoded, -⟩ := (encode_of_tree tree shallow).2 offends
  have listed : roster.offences 100 0 [] =
      [⟨[.key "name", .index 1, .key "team"], .unsupported "Widget", some [.index 1, .key "team"]⟩,
        ⟨[.key "notes"], .key 7, none⟩] := rfl
  cases listed.symm.trans all
  exact encoded

/-- A record that holds a mapping with a key that cannot be shown. -/
def unshownKey : Graph where
  node
    | 0 => .record "Page" [("links", .ok 1)]
    | 1 => .mapping true [(.object 2, 5)]
    | 2 => .tuple [3]
    | 3 => .member 4
    | 4 => .record "User" [("name", .error (.fault (.raised .value "lazy")))]
    | _ => .int 1

theorem unshownKey_put_at_record :
    (∀ c, unshownKey.Within 0 c → (unshownKey.node c).InTree) ∧ unshownKey.Shallow 100 0 ∧
      unshownKey.offences 100 0 [] = [⟨[.key "links"], .key 2, some []⟩] ∧
      Trail.text [.key "links"] = "$.links" ∧
      unshownKey.encode 0 = .error (.encodingFailed (.fault (.raised .value "lazy")) "$") := by
  refine ⟨fun c within => ?_, by decide, rfl, rfl, rfl⟩
  have reached : c = 0 ∨ c = 1 ∨ c = 5 := by
    induction within with
    | refl => exact .inl rfl
    | tail _ part ih =>
        rcases ih with rfl | rfl | rfl <;>
          simp_all [Holds, unshownKey, ObjectNode.parts, Except.toOption]
  rcases reached with rfl | rfl | rfl <;> simp [unshownKey, ObjectNode.InTree]

end Graph

end Templating
