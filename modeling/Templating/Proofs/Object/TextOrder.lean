import Templating.Object.Encoding
import Templating.Proofs.Outcome

/-!
# The order of texts

The elements of a set are put into the order of their texts.  Elements of one text keep the order in
which they come.  So the outcome is the same for every order in which they may come exactly if
elements of one text are one value.
-/

namespace Templating

/-- A value with the text that tells its place. -/
def Value.withText (v : Value) : String × Value := (v.text.toOption.getD "", v)

theorem map_withText (values : List Value) : (values.map Value.withText).map (·.2) = values := by
  simp [Value.withText, Function.comp_def]

def textPrecedes (a b : String × Value) : Bool := a.1 ≤ b.1

theorem textPrecedes_trans (a b c : String × Value) (first : textPrecedes a b = true)
    (second : textPrecedes b c = true) : textPrecedes a c = true :=
  decide_eq_true (String.le_trans (of_decide_eq_true first) (of_decide_eq_true second))

theorem textPrecedes_total (a b : String × Value) :
    (textPrecedes a b || textPrecedes b a) = true := by
  simpa [textPrecedes] using String.le_total a.1 b.1

/-- The values with their texts, in order. -/
def orderedWithText (values : List Value) : List (String × Value) :=
  (values.map Value.withText).mergeSort textPrecedes

theorem orderByText_eq_ok_iff {values ordered : List Value} :
    orderByText values = .ok ordered ↔
      (∀ v ∈ values, ∃ text, v.text = .ok text) ∧
        (orderedWithText values).map (·.2) = ordered := by
  have keyed (all : ∀ v ∈ values, ∃ text, v.text = .ok text) :
      (values.mapM fun v => do return (← v.text, v) : Except Error (List (String × Value))) =
        .ok (values.map Value.withText) := by
    refine mapM_eq_ok_map fun v member => ?_
    obtain ⟨text, own⟩ := all v member
    rw [Value.withText, own]
    rfl
  constructor
  · intro h
    obtain ⟨pairs, run, same⟩ := bind_eq_ok_iff.1 h
    have all : ∀ v ∈ values, ∃ text, v.text = .ok text := by
      intro v member
      obtain ⟨_, own⟩ := exists_of_mapM_eq_ok run member
      obtain ⟨text, shown, -⟩ := bind_eq_ok_iff.1 own
      exact ⟨text, shown⟩
    cases run.symm.trans (keyed all)
    cases same
    exact ⟨all, rfl⟩
  · rintro ⟨all, rfl⟩
    rw [orderByText, keyed all]
    rfl

theorem orderByText_of_pairwise {values : List Value}
    (all : ∀ v ∈ values, ∃ text, v.text = .ok text)
    (level : (values.map Value.withText).Pairwise fun a b => textPrecedes a b = true) :
    orderByText values = .ok values := by
  refine orderByText_eq_ok_iff.2 ⟨all, ?_⟩
  rw [orderedWithText, List.mergeSort_of_pairwise level, map_withText]

theorem perm_of_orderByText {values ordered : List Value} (h : orderByText values = .ok ordered) :
    ordered.Perm values := by
  obtain ⟨-, rfl⟩ := orderByText_eq_ok_iff.1 h
  have sorted := (List.mergeSort_perm (values.map Value.withText) textPrecedes).map (·.2)
  rwa [map_withText] at sorted

/-- Values of which no two have one text come out in the same order in whatever order they come. -/
theorem orderByText_of_perm {values others ordered : List Value} (perm : others.Perm values)
    (apart : ∀ v ∈ values, ∀ w ∈ values, v.text = w.text → v = w)
    (h : orderByText values = .ok ordered) : orderByText others = .ok ordered := by
  obtain ⟨all, rfl⟩ := orderByText_eq_ok_iff.1 h
  refine orderByText_eq_ok_iff.2 ⟨fun v member => all v (perm.subset member), ?_⟩
  have sorted (values : List Value) :=
    List.pairwise_mergeSort textPrecedes_trans textPrecedes_total (values.map Value.withText)
  have same : (orderedWithText others).Perm (orderedWithText values) :=
    (List.mergeSort_perm _ _).trans ((perm.map _).trans (List.mergeSort_perm _ _).symm)
  refine congrArg (List.map (·.2)) (same.eq_of_pairwise ?_ (sorted others) (sorted values))
  intro a b inOthers inValues first second
  -- Two elements that may stand in either order have one text, so that they are one value.
  obtain ⟨v, hv, rfl⟩ := List.mem_map.1 (List.mem_mergeSort.1 inOthers)
  obtain ⟨w, hw, rfl⟩ := List.mem_map.1 (List.mem_mergeSort.1 inValues)
  have hv := perm.subset hv
  obtain ⟨text, own⟩ := all v hv
  obtain ⟨text', own'⟩ := all w hw
  have same := String.le_antisymm (of_decide_eq_true first) (of_decide_eq_true second)
  simp only [Value.withText, own, own', Except.toOption, Option.getD_some] at same
  rw [apart v hv w hw (by rw [own, own', same])]

def Value.hasText (text : String) (v : Value) : Bool := v.text.toOption == some text

theorem pairwise_of_hasText {values : List Value} {text : String}
    (all : ∀ v ∈ values, v.hasText text = true) :
    (values.map Value.withText).Pairwise fun a b => textPrecedes a b = true := by
  have keyed : ∀ pair ∈ values.map Value.withText, pair.1 = text := by
    intro pair member
    obtain ⟨v, inside, rfl⟩ := List.mem_map.1 member
    have shown := all v inside
    rw [Value.hasText, beq_iff_eq] at shown
    simp [Value.withText, shown]
  refine List.pairwise_iff_forall_sublist.2 fun {a b} pair => ?_
  have ha := keyed a (pair.subset (by simp))
  have hb := keyed b (pair.subset (by simp))
  rw [textPrecedes, ha, hb]
  exact decide_eq_true (String.le_refl text)

/-- Values of one text come out as they come. -/
theorem filter_hasText_of_orderByText {values ordered : List Value}
    (h : orderByText values = .ok ordered) (text : String) :
    ordered.filter (Value.hasText text) = values.filter (Value.hasText text) := by
  have perm := perm_of_orderByText h
  obtain ⟨all, rfl⟩ := orderByText_eq_ok_iff.1 h
  let kept := values.filter (Value.hasText text)
  have level : (kept.map Value.withText).Pairwise fun a b => textPrecedes a b = true :=
    pairwise_of_hasText fun v inside => (List.mem_filter.1 inside).2
  have sublist : (kept.map Value.withText).Sublist (orderedWithText values) :=
    List.sublist_mergeSort textPrecedes_trans textPrecedes_total level
      (List.filter_sublist.map Value.withText)
  have inOrder := (sublist.map (·.2)).filter (Value.hasText text)
  simp only [map_withText, kept, List.filter_filter, Bool.and_self] at inOrder
  exact (inOrder.eq_of_length (perm.filter (Value.hasText text)).length_eq.symm).symm

/-- Two values of one text come out in the order in which they come, so that not every order gives
the same. -/
theorem exists_perm_orderByText_ne {values ordered : List Value}
    (h : orderByText values = .ok ordered) {v w : Value} (hv : v ∈ values) (hw : w ∈ values)
    (tie : v.text = w.text) (differ : v ≠ w) :
    ∃ others, others.Perm values ∧ orderByText others ≠ .ok ordered := by
  obtain ⟨text, own⟩ := (orderByText_eq_ok_iff.1 h).1 v hv
  obtain ⟨before, after, rfl⟩ := List.append_of_mem hv
  have front : (v :: (before ++ after)).Perm (before ++ v :: after) := List.perm_middle.symm
  obtain ⟨before', after', split⟩ :=
    List.append_of_mem (List.mem_of_ne_of_mem differ.symm (front.symm.subset hw))
  rw [split] at front
  have first : (v :: w :: (before' ++ after')).Perm (before ++ v :: after) :=
    (List.perm_middle.symm.cons v).trans front
  have second : (w :: v :: (before' ++ after')).Perm (before ++ v :: after) :=
    (List.Perm.swap v w _).trans first
  by_contra all
  push Not at all
  have shownV : v.hasText text = true := by simp [Value.hasText, own, Except.toOption]
  have shownW : w.hasText text = true := by simp [Value.hasText, ← tie, own, Except.toOption]
  have same := (filter_hasText_of_orderByText (all _ first) text).symm.trans
    (filter_hasText_of_orderByText (all _ second) text)
  simp only [List.filter_cons, shownV, shownW, if_true] at same
  exact differ (List.cons.inj same).1

end Templating
