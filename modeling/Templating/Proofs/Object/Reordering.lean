import Mathlib.Data.List.Perm.Basic
import Templating.Proofs.Object.Success
import Templating.Proofs.Object.TextOrder

/-!
# Sets in other orders

A set has no order of its own, so that encoding goes through its elements in any order.  The value
is the same for all of them exactly if the texts of the elements tell their values apart; an empty
text and null, whose text is empty too, come out in the order in which they are met.
-/

namespace Templating

/-! ## Elements in other orders -/

namespace ObjectNode

def elements? : ObjectNode → Option (List Ref)
  | .set items | .frozenSet items => some items
  | _ => none

/-- The same node, but that a set may have its elements in another order. -/
inductive Reordered : ObjectNode → ObjectNode → Prop
  | refl (node : ObjectNode) : Reordered node node
  | set {items others : List Ref} : others.Perm items → Reordered (.set items) (.set others)
  | frozenSet {items others : List Ref} :
      others.Perm items → Reordered (.frozenSet items) (.frozenSet others)

variable {node other : ObjectNode} {items : List Ref}

theorem Reordered.shape_eq (h : node.Reordered other) : other.shape = node.shape := by
  cases h <;> rfl

theorem Reordered.eq_or_set (h : node.Reordered other) :
    other = node ∨ ∃ items others, node.elements? = some items ∧ other.elements? = some others ∧
      others.Perm items := by
  cases h with
  | refl => exact .inl rfl
  | set perm | frozenSet perm => exact .inr ⟨_, _, rfl, rfl, perm⟩

/-- What a set is to encoding: its elements and the order of their texts. -/
theorem of_elements? (h : node.elements? = some items) :
    node.shape = .container ∧ node.Supported ∧ node.parts = items ∧
      ∀ values, node.assemble values = (do return .array (← orderByText values)) := by
  cases node <;> cases h <;> exact ⟨rfl, trivial, rfl, fun _ => rfl⟩

theorem exists_reordered (h : node.elements? = some items) {others : List Ref}
    (perm : others.Perm items) :
    ∃ other, node.Reordered other ∧ other.elements? = some others := by
  cases node <;> cases h
  case set => exact ⟨.set others, .set perm, rfl⟩
  case frozenSet => exact ⟨.frozenSet others, .frozenSet perm, rfl⟩

end ObjectNode

namespace Graph

variable {g g' : Graph} {r : Ref} {v : Value} {fuel : Nat} {noted : List Ref}

def Reordered (g g' : Graph) : Prop := ∀ r, (g.node r).Reordered (g'.node r)

/-- Elements whose values have one text have one value. -/
def TellsApart (g : Graph) (items : List Ref) : Prop :=
  ∀ c ∈ items, ∀ d ∈ items, ∀ x y, g.encode c = .ok x → g.encode d = .ok y → x.text = y.text →
    x = y

theorem tellsApart_of_texts {items : List Ref} {value : Ref → Value}
    (encodes : ∀ c ∈ items, g.encode c = .ok (value c))
    (distinct : ∀ c ∈ items, ∀ d ∈ items, (value c).text = (value d).text → c = d) :
    g.TellsApart items := by
  intro c hc d hd x y ownX ownY tie
  cases (encodes c hc).symm.trans ownX
  cases (encodes d hd).symm.trans ownY
  rw [distinct c hc d hd tie]

theorem yields_set_iff {items : List Ref} (set : (g.node r).elements? = some items) :
    g.Yields (fuel + 2) noted r v ↔ r ∉ noted ∧ ∃ values ordered,
      List.Forall₂ (g.Yields fuel (r :: noted)) items values ∧
        orderByText values = .ok ordered ∧ v = .array ordered := by
  obtain ⟨shape, supported, parts, assemble⟩ := ObjectNode.of_elements? set
  constructor
  · intro h
    cases h with
    | container _ _ absent length each assembled =>
        rw [parts] at length each
        rw [assemble] at assembled
        obtain ⟨ordered, sorted, same⟩ := bind_eq_ok_iff.1 assembled
        cases same
        refine ⟨absent, _, ordered, List.forall₂_iff_zip.2 ⟨length, ?_⟩, sorted, rfl⟩
        exact fun inside => each _ inside
    | _ => simp_all
  · rintro ⟨absent, values, ordered, each, sorted, rfl⟩
    obtain ⟨length, each⟩ := List.forall₂_iff_zip.1 each
    refine .container shape supported absent (by rwa [parts]) ?_ ?_
    · rw [parts]
      exact fun _ inside => each inside
    · rw [assemble, sorted]
      rfl

/-- With elements that are told apart, all orders of the elements come to one. -/
theorem TellsApart.orderByText_eq {items : List Ref} (apart : g.TellsApart items)
    (limit : fuel ≤ depthLimit) {values others ordered : List Value}
    (each : List.Forall₂ (g.Yields fuel noted) items values) (perm : others.Perm values)
    (h : orderByText values = .ok ordered) : orderByText others = .ok ordered := by
  refine orderByText_of_perm perm (fun x hx y hy same => ?_) h
  obtain ⟨length, each⟩ := List.forall₂_iff_zip.1 each
  obtain ⟨c, hc, own⟩ := exists_mem_zip length hx
  obtain ⟨d, hd, own'⟩ := exists_mem_zip length hy
  exact apart c hc d hd x y ((each own).encode_eq limit) ((each own').encode_eq limit) same

theorem Yields.reordered (h : g.Yields fuel noted r v) (limit : fuel ≤ depthLimit)
    (same : g.Reordered g')
    (apart : ∀ s, g.Within r s → s ∉ noted → ∀ items, (g.node s).elements? = some items →
      g'.node s = g.node s ∨ g.TellsApart items) :
    g'.Yields fuel noted r v := by
  have shapes := fun r => (same r).shape_eq
  induction h with
  | value shape => exact .value ((shapes _).trans shape)
  | member shape _ ih =>
      refine .member ((shapes _).trans shape) (ih (by omega) fun s within => ?_)
      exact apart s (within.head (unnoted_iff.2 shape).1)
  | provider shape plain absent _ ih =>
      refine .provider ((shapes _).trans shape) (by rwa [shapes]) absent
        (ih (by omega) fun s within fresh => ?_)
      exact apart s (within.head (holds_provider shape)) (List.not_mem_of_not_mem_cons fresh)
  | provider_container shape container _ ih =>
      refine .provider_container ((shapes _).trans shape) ((shapes _).trans container)
        (ih limit fun s within => ?_)
      exact apart s (within.head (holds_provider shape))
  | @container fuel noted r values v shape supported absent length each assembled ih =>
      have below : ∀ part ∈ (g.node r).parts.zip values,
          g'.Yields fuel (r :: noted) part.1 part.2 := by
        refine fun part inside => ih part inside (by omega) fun s within fresh => ?_
        have held : g.Holds r part.1 := (List.of_mem_zip inside).1
        exact apart s (within.head held) (List.not_mem_of_not_mem_cons fresh)
      by_cases node : g'.node r = g.node r
      · rw [← node] at supported length below assembled
        exact .container ((shapes r).trans shape) supported absent length below assembled
      -- Only a set can have changed, and only by the order of its elements.
      obtain ⟨items, others, set, set', perm⟩ := (same r).eq_or_set.resolve_left node
      have told := (apart r .refl absent items set).resolve_left node
      obtain ⟨-, -, parts, assemble⟩ := ObjectNode.of_elements? set
      rw [parts] at length each below
      rw [assemble] at assembled
      obtain ⟨ordered, sorted, shown⟩ := bind_eq_ok_iff.1 assembled
      cases shown
      obtain ⟨values', each', perm'⟩ :=
        List.perm_comp_forall₂ perm (List.forall₂_iff_zip.2 ⟨length, fun inside => below _ inside⟩)
      have elements := List.forall₂_iff_zip.2 ⟨length, fun inside => each _ inside⟩
      have sorted' := told.orderByText_eq (by omega) elements perm' sorted
      exact (yields_set_iff set').2 ⟨absent, values', ordered, each', sorted', rfl⟩
  | @record fuel noted r fields parts values shape read absent length each ih =>
      refine .record ((shapes r).trans shape) read absent length fun part inside => ?_
      refine ih part inside (by omega) fun s within fresh => ?_
      obtain ⟨own, member, same⟩ := List.mem_map.1 (List.of_mem_zip inside).1
      have held : .ok (.key own.1, own.2) ∈ namedMembers parts := List.mem_map_of_mem member
      rw [← same] at within
      exact apart s (within.head (holds_of_mem_named shape read held))
        (List.not_mem_of_not_mem_cons fresh)

/-! ## Elements that are not told apart -/

/-- The graph with another node at one place. -/
def withNode (g : Graph) (r : Ref) (node : ObjectNode) : Graph where
  node c := if c = r then node else g.node c

theorem encode_set_eq_ok_iff {items : List Ref} (set : (g.node r).elements? = some items) :
    g.encode r = .ok v ↔ ∃ values ordered,
      List.Forall₂ (g.Yields (depthLimit - 2) [r]) items values ∧
        orderByText values = .ok ordered ∧ v = .array ordered := by
  have steps : depthLimit = (depthLimit - 2) + 2 := rfl
  rw [encode_eq_ok_iff, steps, yields_set_iff set]
  simp

theorem forall₂_yields_unique {items : List Ref} {values others : List Value}
    (h : List.Forall₂ (g.Yields fuel noted) items values)
    (h' : List.Forall₂ (g.Yields fuel noted) items others) : others = values := by
  induction h generalizing others with
  | nil =>
      cases h'
      rfl
  | cons first _ ih =>
      cases h' with
      | cons first' rest' =>
          have same := (first'.encodeWithin_eq []).symm.trans (first.encodeWithin_eq [])
          rw [Except.ok.inj same, ih rest']

/-- A set whose elements are not told apart has another value in another order of these. -/
theorem exists_reordered_encode_ne {items : List Ref} (set : (g.node r).elements? = some items)
    (h : g.encode r = .ok v) (told : ¬ g.TellsApart items) :
    ∃ g', g.Reordered g' ∧ g'.encode r ≠ .ok v := by
  obtain ⟨values, ordered, each, sorted, rfl⟩ := (encode_set_eq_ok_iff set).1 h
  have limit : depthLimit - 2 ≤ depthLimit := Nat.sub_le _ _
  obtain ⟨length, pairs⟩ := List.forall₂_iff_zip.1 each.flip
  have value {c : Ref} (member : c ∈ items) {x : Value} (own : g.encode c = .ok x) :
      x ∈ values := by
    obtain ⟨w, inside, pair⟩ := exists_mem_zip length member
    cases own.symm.trans (Yields.encode_eq (pairs pair) limit)
    exact inside
  simp only [TellsApart, not_forall] at told
  obtain ⟨c, hc, d, hd, x, y, ownX, ownY, tie, differ⟩ := told
  obtain ⟨others, perm, other⟩ :=
    exists_perm_orderByText_ne sorted (value hc ownX) (value hd ownY) tie differ
  -- The elements come in the order of these values, and so does the set.
  obtain ⟨items', each', perm'⟩ := List.perm_comp_forall₂ perm each.flip
  obtain ⟨node, reordered, set'⟩ := ObjectNode.exists_reordered set perm'
  have elsewhere {c : Ref} (away : c ≠ r) : (g.withNode r node).node c = g.node c := if_neg away
  have here : (g.withNode r node).node r = node := if_pos rfl
  have same : g.Reordered (g.withNode r node) := by
    intro c
    by_cases away : c = r
    · rw [away, here]
      exact reordered
    · rw [elsewhere away]
      exact .refl _
  have below : List.Forall₂ ((g.withNode r node).Yields (depthLimit - 2) [r]) items' others := by
    refine each'.flip.imp fun c w own => Yields.reordered own limit same ?_
    exact fun s _ away _ _ => .inl (elsewhere (List.ne_of_not_mem_cons away))
  refine ⟨g.withNode r node, same, fun again => other ?_⟩
  rw [← here] at set'
  obtain ⟨values', ordered', each'', sorted', same⟩ := (encode_set_eq_ok_iff set').1 again
  cases same
  rwa [forall₂_yields_unique below each''] at sorted'

/-- The encoding does not depend on the order in which sets have their elements, as long as those
sets whose order changes tell their elements apart by text.  Of a set that does not, another order
has another value. -/
theorem encode_of_reordered (h : g.encode r = .ok v) :
    (∀ g', g.Reordered g' →
        (∀ s, g.Within r s → ∀ items, (g.node s).elements? = some items →
          g'.node s = g.node s ∨ g.TellsApart items) →
        g'.encode r = .ok v) ∧
      ∀ items, (g.node r).elements? = some items → ¬ g.TellsApart items →
        ∃ g', g.Reordered g' ∧ g'.encode r ≠ .ok v := by
  refine ⟨fun g' same apart => ?_, fun items set => exists_reordered_encode_ne set h⟩
  have yields := encode_eq_ok_iff.1 h
  exact encode_eq_ok_iff.2
    (yields.reordered (Nat.le_refl _) same fun s within _ => apart s within)

/-- A set of an integer and two texts, in an order of the three. -/
def labelSet (items : List Ref) : Graph where
  node
    | 0 => .frozenSet items
    | 1 => .int 10
    | 2 => .string "a"
    | _ => .string "b"

theorem encode_labelSet :
    (labelSet [1, 2, 3]).encode 0 = .ok (.array [.int 10, .string "a", .string "b"]) ∧
      (labelSet [3, 1, 2]).encode 0 = .ok (.array [.int 10, .string "a", .string "b"]) := by
  have first : (labelSet [1, 2, 3]).encode 0 =
      .ok (.array [.int 10, .string "a", .string "b"]) := by
    refine (encode_set_eq_ok_iff rfl).2 ⟨_, _, ?_, orderByText_of_pairwise ?_ ?_, rfl⟩
    · exact .cons (.value rfl) (.cons (.value rfl) (.cons (.value rfl) .nil))
    · simp only [List.forall_mem_cons]
      exact ⟨⟨"10", by decide +kernel⟩, ⟨"a", rfl⟩, ⟨"b", rfl⟩, nofun⟩
    · decide +kernel
  have same : (labelSet [1, 2, 3]).Reordered (labelSet [3, 1, 2])
    | 0 => .frozenSet (by decide)
    | 1 | 2 => .refl _
    | _ + 3 => .refl _
  let value : Ref → Value
    | 1 => .int 10
    | 2 => .string "a"
    | _ => .string "b"
  have told : (labelSet [1, 2, 3]).TellsApart [1, 2, 3] := by
    have encodes : ∀ c ∈ [1, 2, 3], (labelSet [1, 2, 3]).encode c = .ok (value c) := by
      simp only [List.forall_mem_cons]
      exact ⟨rfl, rfl, rfl, nofun⟩
    exact tellsApart_of_texts encodes (by decide +kernel)
  refine ⟨first, (encode_of_reordered first).1 _ same fun s within items set => ?_⟩
  obtain _ | _ | _ | s := s <;> cases set
  exact .inr told

/-- A set of an empty text and null, in an order of the two. -/
def blankSet (items : List Ref) : Graph where
  node
    | 0 => .set items
    | 1 => .string ""
    | _ => .null

/-- The texts of null and of an empty text are the same, and the order in which they come shows. -/
theorem encode_blankSet :
    (blankSet [1, 2]).Reordered (blankSet [2, 1]) ∧
      (blankSet [1, 2]).encode 0 = .ok (.array [.string "", .null]) ∧
      (blankSet [2, 1]).encode 0 = .ok (.array [.null, .string ""]) := by
  have same : (blankSet [1, 2]).Reordered (blankSet [2, 1])
    | 0 => .set (by decide)
    | 1 => .refl _
    | _ + 2 => .refl _
  have asTheyCome {items : List Ref} {values : List Value}
      (each : List.Forall₂ ((blankSet items).Yields (depthLimit - 2) [0]) items values)
      (all : ∀ v ∈ values, v.text = .ok "") : (blankSet items).encode 0 = .ok (.array values) := by
    have blank : ∀ v ∈ values, v.hasText "" = true := fun v member => by
      simp [Value.hasText, all v member, Except.toOption]
    have inOrder := orderByText_of_pairwise (fun v member => ⟨"", all v member⟩)
      (pairwise_of_hasText blank)
    exact (encode_set_eq_ok_iff rfl).2 ⟨values, values, each, inOrder, rfl⟩
  refine ⟨same, asTheyCome ?_ ?_, asTheyCome ?_ ?_⟩
  · exact .cons (.value rfl) (.cons (.value rfl) .nil)
  · simp [Value.text]
  · exact .cons (.value rfl) (.cons (.value rfl) .nil)
  · simp [Value.text]

end Graph

end Templating
