import Templating.Proofs.Object.Offences

/-!
# Encoding and conversion side by side

Data of scalars, lists, tuples and mappings can be encoded and it can be converted.  Both ways lead
to the same value, and a key that is no text is refused on both of them: the first one on the way
down, which conversion names by its class, and encoding by the literal of the key.
-/

namespace Templating

namespace ObjectNode

/-- A scalar, a ready value, a list, a tuple or a mapping. -/
def IsData : ObjectNode → Prop
  | .ready _ | .null | .bool _ | .int _ | .float _ | .string _ => True
  | .intMember _ | .textMember .. => True
  | .list _ | .tuple _ | .mapping .. => True
  | _ => False

theorem IsData.inTree {node : ObjectNode} (data : node.IsData) : node.InTree := by
  cases node <;> trivial

end ObjectNode

namespace Graph

/-- Some mapping in the object has the other one for a key. -/
def HasKey (g : Graph) (r key : Ref) : Prop :=
  ∃ c plain entries, g.Within r c ∧ g.node c = .mapping plain entries ∧
    ∃ value, (.object key, value) ∈ entries

variable {g : Graph} {r c key : Ref}

def DataOnly (g : Graph) (r : Ref) : Prop := ∀ c, g.Within r c → (g.node c).IsData

theorem DataOnly.part (data : g.DataOnly r) (part : g.Holds r c) : g.DataOnly c :=
  fun d within => data d (within.head part)

theorem DataOnly.tree (data : g.DataOnly r) : g.Tree r :=
  fun c within => (data c within).inTree

theorem HasKey.of_part (part : g.Holds r c) (h : g.HasKey c key) : g.HasKey r key := by
  obtain ⟨d, plain, entries, within, node, value, entry⟩ := h
  exact ⟨d, plain, entries, within.head part, node, value, entry⟩

theorem sound_iff_of_data (data : g.DataOnly r) : g.Sound r ↔ ∀ key, ¬ g.HasKey r key := by
  constructor
  · rintro sound key ⟨c, plain, entries, within, node, value, entry⟩
    have supported := sound c within
    rw [node] at supported
    obtain ⟨name, text⟩ := supported _ entry
    cases text
  · intro none c within
    have own := data c within
    cases node : g.node c with
    | mapping plain entries =>
        rintro ⟨name | key, value⟩ entry
        · exact ⟨name, rfl⟩
        · exact absurd ⟨c, plain, entries, within, node, value, entry⟩ (none key)
    | _ =>
        rw [node] at own
        trivial

/-! ## Offences in data -/

/-- The offence is that of a key in the object, and no record is around it. -/
def ByKey (g : Graph) (r : Ref) (offence : Offence) : Prop :=
  ∃ key, g.HasKey r key ∧ offence.offender = .key key ∧ offence.record = none

theorem ByKey.of_part {offence : Offence} (part : g.Holds r c) (h : g.ByKey c offence) :
    g.ByKey r offence := by
  obtain ⟨key, has, own⟩ := h
  exact ⟨key, has.of_part part, own⟩

theorem byKey_of_offencesOf {below : Ref → Trail → List Offence} (data : (g.node r).IsData)
    (parts : ∀ c, g.Holds r c → ∀ way, ∀ offence ∈ below c way, g.ByKey c offence)
    {trail : Trail} {offence : Offence} (member : offence ∈ g.offencesOf below r trail) :
    g.ByKey r offence := by
  cases node : g.node r with
  | list items | tuple items =>
      simp only [offencesOf, node, List.mem_flatMap] at member
      obtain ⟨item, found, inside⟩ := member
      have part : g.Holds r item.1 := (holds_iff node).2 (List.fst_mem_of_mem_zipIdx found)
      exact (parts item.1 part _ offence inside).of_part part
  | mapping plain entries =>
      simp only [offencesOf, node, List.mem_flatMap] at member
      obtain ⟨⟨name | key, c⟩, found, inside⟩ := member
      · have part : g.Holds r c := (holds_iff node).2 (List.mem_map_of_mem found)
        exact (parts c part _ offence inside).of_part part
      · obtain rfl := List.mem_singleton.1 inside
        exact ⟨key, ⟨r, plain, entries, .refl, node, c, found⟩, rfl, rfl⟩
  | ready | null | bool | int | float | string | intMember | textMember =>
      simp [offencesOf, node, ObjectNode.atom?] at member
  | _ =>
      rw [node] at data
      exact data.elim

theorem byKey_of_offences {n : Nat} (data : g.DataOnly r) (shallow : g.Shallow n r)
    {trail : Trail} {offence : Offence} (member : offence ∈ g.offences n r trail) :
    g.ByKey r offence := by
  induction n generalizing r trail offence with
  | zero =>
      exact byKey_of_offencesOf (data r .refl) (fun _ _ _ _ none => (List.not_mem_nil none).elim)
        member
  | succ n ih =>
      refine byKey_of_offencesOf (data r .refl) (fun c part way offence inside => ?_) member
      exact ih (data.part part) (shallow c part) inside

/-! ## Conversion -/

/-- What conversion says to an offence.  An object of a class that has no value it lets pass. -/
def conversionError? (g : Graph) (offence : Offence) : Option Error :=
  match offence.offender with
  | .unsupported _ => none
  | .key key => some (.fault (.keyNotText (g.node key).typeName))

theorem toValueWithin_items {fuel : Nat} {below : Ref → Trail → List Offence} {part : Ref → Value}
    {items : List Ref} (converts : ∀ c ∈ items, ∀ way,
      g.toValueWithin fuel c = firstOr ((below c way).filterMap g.conversionError?) (part c))
    (trail : Trail) :
    (do return .array (← items.mapM (g.toValueWithin fuel)) : Except Error Value) =
      firstOr ((items.zipIdx.flatMap fun item => below item.1 (.index item.2 :: trail)).filterMap
        g.conversionError?) (.array (items.map part)) := by
  have each : ∀ item ∈ items.zipIdx, g.toValueWithin fuel item.1 =
      firstOr ((below item.1 (.index item.2 :: trail)).filterMap g.conversionError?)
        (part item.1) :=
    fun item member => converts item.1 (List.fst_mem_of_mem_zipIdx member) _
  have all : items.mapM (g.toValueWithin fuel) =
      items.zipIdx.mapM fun item => g.toValueWithin fuel item.1 := by
    conv_lhs => rw [← List.zipIdx_map_fst 0 items, List.mapM_map]
    rfl
  rw [all, mapM_firstOr each, firstOr_map Value.array, map_fst_zipIdx, List.filterMap_flatMap]

theorem toValueWithin_step {fuel : Nat} {below : Ref → Trail → List Offence} {part : Ref → Value}
    (data : (g.node r).IsData)
    (converts : ∀ c, g.Holds r c → ∀ way,
      g.toValueWithin fuel c = firstOr ((below c way).filterMap g.conversionError?) (part c))
    (trail : Trail) :
    g.toValueWithin (fuel + 1) r =
      firstOr ((g.offencesOf below r trail).filterMap g.conversionError?)
        ((g.node r).valueFrom part) := by
  cases node : g.node r with
  | list items | tuple items =>
      have parts : ∀ c ∈ items, g.Holds r c := by
        exact fun c => (holds_iff node).2
      simpa only [toValueWithin, node, offencesOf, ObjectNode.valueFrom]
        using toValueWithin_items (fun c inside => converts c (parts c inside)) trail
  | mapping plain entries =>
      simp only [toValueWithin, node, offencesOf, ObjectNode.valueFrom, List.filterMap_flatMap]
      rw [← firstOr_map Value.ofEntries]
      refine congrArg (· >>= _) (mapM_firstOr fun entry member => ?_)
      have holds : g.Holds r entry.2 := (holds_iff node).2 (List.mem_map_of_mem member)
      obtain ⟨name | key, c⟩ := entry
      · simp only [converts c holds (.key name :: trail)]
        exact firstOr_map (Prod.mk name)
      · rfl
  | ready | null | bool | int | float | string | intMember | textMember =>
      simp only [toValueWithin, node, offencesOf, ObjectNode.atom?]
      rfl
  | _ =>
      rw [node] at data
      exact data.elim

theorem toValueWithin_of_data {n fuel : Nat} (data : g.DataOnly r) (shallow : g.Shallow n r)
    (enough : n < fuel) (trail : Trail) :
    g.toValueWithin fuel r =
      firstOr ((g.offences n r trail).filterMap g.conversionError?) (g.treeValue n r) := by
  induction n generalizing r fuel trail with
  | zero =>
      obtain ⟨less, rfl⟩ := Nat.exists_eq_add_of_le' (show 1 ≤ fuel by omega)
      exact toValueWithin_step (data r .refl)
        (fun c part => (not_holds_of_shallow shallow c part).elim) trail
  | succ n ih =>
      obtain ⟨less, rfl⟩ := Nat.exists_eq_add_of_le' (show 1 ≤ fuel by omega)
      refine toValueWithin_step (data r .refl) (fun c part way => ?_) trail
      exact ih (data.part part) (shallow c part) (by omega) way

/-- Encoding and conversion make the same value of data at most a hundred levels deep that has no
key but texts.  Of other data they refuse the same key, except that encoding fails as the literal of
the key does where it has none. -/
theorem encode_agrees_with_toValue (data : ∀ c, g.Within r c → (g.node c).IsData)
    (shallow : g.Shallow 100 r) :
    ((∀ key, ¬ g.HasKey r key) →
      g.encode r = .ok (g.treeValue 100 r) ∧ g.toValue r = .ok (g.treeValue 100 r)) ∧
    ((∃ key, g.HasKey r key) → ∃ key, g.HasKey r key ∧
      g.toValue r = .error (.fault (.keyNotText (g.node key).typeName)) ∧
      (∀ shown, g.literal key = .ok shown →
        ∃ path, g.encode r = .error (.encoding (.keyNotText shown) path)) ∧
      (∀ e, g.literal key = .error e → g.encode r = outermost (.error e))) := by
  have tree : g.Tree r := DataOnly.tree data
  have converted : g.toValue r = _ :=
    toValueWithin_of_data (n := 100) data shallow (by decide) []
  have encoded := encode_eq_firstOr tree shallow
  have nothing := (offences_eq_nil_iff tree shallow []).trans (sound_iff_of_data data)
  refine ⟨fun none => ?_, fun ⟨key, has⟩ => ?_⟩
  · rw [nothing.2 none] at encoded converted
    exact ⟨encoded, converted⟩
  · cases all : g.offences 100 r [] with
    | nil => exact absurd has (nothing.1 all key)
    | cons first rest =>
        obtain ⟨place, offender, record⟩ := first
        obtain ⟨key, has, rfl, rfl⟩ := byKey_of_offences data shallow (all ▸ List.mem_cons_self)
        rw [all] at converted encoded
        have refused : g.encode r = outermost (.error (g.errorOf ⟨place, .key key, none⟩)) := encoded
        refine ⟨key, has, converted, fun shown literal => ⟨place.text, ?_⟩, fun e literal => ?_⟩
        · rw [refused]
          simp only [errorOf, literal]
          rfl
        · rw [refused]
          simp only [errorOf, literal]

/-- A list of two mappings, the second a view with a tuple for a key behind a text. -/
def pairKeyed : Graph where
  node
    | 0 => .list [1, 2]
    | 1 => .mapping true [(.text "a", 3)]
    | 2 => .mapping false [(.text "b", 1), (.object 4, 3)]
    | 4 => .tuple [5, 5]
    | 5 => .bool true
    | _ => .int 1

theorem encode_pairKeyed :
    (∀ c, pairKeyed.Within 0 c → (pairKeyed.node c).IsData) ∧ pairKeyed.Shallow 100 0 ∧
      pairKeyed.HasKey 0 4 ∧
      pairKeyed.toValue 0 = .error (.fault (.keyNotText "tuple")) ∧
      ∃ path, pairKeyed.encode 0 = .error (.encoding (.keyNotText "(True, True)") path) := by
  have data : ∀ c, pairKeyed.Within 0 c → (pairKeyed.node c).IsData := by
    intro c _
    simp only [pairKeyed]
    split <;> trivial
  have shallow : pairKeyed.Shallow 100 0 := by decide
  have part : pairKeyed.Holds 0 2 := by simp [Holds, pairKeyed, ObjectNode.parts]
  have has : pairKeyed.HasKey 0 4 :=
    ⟨2, false, _, .single part, rfl, 3, List.mem_cons_of_mem _ List.mem_cons_self⟩
  obtain ⟨key, ⟨c, _, entries, -, node, value, entry⟩, converted, shown, -⟩ :=
    (encode_agrees_with_toValue data shallow).2 ⟨4, has⟩
  have only : key = 4 := by
    simp only [pairKeyed] at node
    split at node <;> cases node <;> simp_all
  subst only
  exact ⟨data, shallow, has, converted, shown "(True, True)" rfl⟩

/-- A mapping with a key that has no literal. -/
def unshownRoot : Graph where
  node
    | 0 => .mapping true [(.object 1, 4)]
    | 1 => .tuple [2]
    | 2 => .member 3
    | 3 => .record "User" [("name", .error (.fault (.raised .value "lazy")))]
    | _ => .int 1

theorem encode_unshownRoot :
    (∀ c, unshownRoot.Within 0 c → (unshownRoot.node c).IsData) ∧ unshownRoot.Shallow 100 0 ∧
      unshownRoot.toValue 0 = .error (.fault (.keyNotText "tuple")) ∧
      unshownRoot.encode 0 = .error (.fault (.raised .value "lazy")) := by
  refine ⟨fun c within => ?_, by decide, rfl, rfl⟩
  have reached : c = 0 ∨ c = 4 := by
    induction within with
    | refl => exact .inl rfl
    | tail _ part ih =>
        rcases ih with rfl | rfl <;> simp_all [Holds, unshownRoot, ObjectNode.parts]
  rcases reached with rfl | rfl <;> trivial

end Graph

end Templating
