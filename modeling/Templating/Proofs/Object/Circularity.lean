import Mathlib.Data.Finset.Card
import Mathlib.Data.Set.Finite.Basic
import Mathlib.Order.WellFounded
import Templating.Proofs.Object.Descent

/-!
# Circular objects

A way down that leads back to where it came from does not go on for ever: among finitely many
objects it comes to one that is noted already, unless it leads from one member of an enumeration to
the next without end.  Whatever object is met below itself, noted or not, is refused as circular.
-/

namespace Templating

namespace ObjectNode

/-- A list, a tuple, a set, a mapping, a record, or a provider. -/
def Notes (node : ObjectNode) : Prop :=
  match node.shape with
  | .container | .record _ | .provider _ => True
  | .value _ | .refused | .member _ => False

end ObjectNode

namespace Graph

/-- The object has the other one for a part and leaves no note on the way to it. -/
def Unnoted (g : Graph) (r c : Ref) : Prop := g.Holds r c ∧ ¬ (g.node r).Notes

variable {g : Graph} {r c : Ref}

/-! ## Parts by shape -/

theorem unnoted_iff : g.Unnoted r c ↔ (g.node r).shape = .member c := by
  rw [Unnoted, holds_iff rfl]
  cases g.node r with
  | member value =>
      constructor
      · rintro ⟨part, -⟩
        rw [List.mem_singleton.1 part]
        rfl
      · rintro ⟨⟩
        exact ⟨List.mem_cons_self, id⟩
  | list | tuple | set | frozenSet | mapping | record | provider =>
      exact ⟨fun h => absurd trivial h.2, nofun⟩
  | _ => exact ⟨fun h => absurd h.1 List.not_mem_nil, nofun⟩

theorem holds_provider (shape : (g.node r).shape = .provider (.ok c)) : g.Holds r c := by
  cases h : g.node r <;> rw [h] at shape <;> cases shape
  exact (holds_iff h).2 List.mem_cons_self

theorem holds_of_mem_members {trail : Trail} {part : PathPart}
    (member : .ok (part, c) ∈ g.members trail r) : g.Holds r c := by
  rw [holds_iff rfl]
  unfold members at member
  cases h : g.node r with
  | list items | tuple items =>
      simp only [h, List.mem_map] at member
      obtain ⟨item, found, same⟩ := member
      cases same
      exact List.fst_mem_of_mem_zipIdx found
  | set items | frozenSet items =>
      simp only [h, List.mem_map] at member
      obtain ⟨item, found, same⟩ := member
      cases same
      exact found
  | mapping plain entries =>
      simp only [h, List.mem_map] at member
      obtain ⟨⟨key | key, item⟩, found, same⟩ := member
      · cases same
        exact List.mem_map_of_mem (f := (·.2)) found
      · obtain ⟨shown, -, refused⟩ := bind_eq_ok_iff.1 same
        cases refused
  | _ => simp [h] at member

theorem holds_of_mem_named {fields : List (String × Except Error Ref)}
    {parts : List (String × Ref)} {part : PathPart} (shape : (g.node r).shape = .record fields)
    (read : recordParts fields = .ok parts) (member : .ok (part, c) ∈ namedMembers parts) :
    g.Holds r c := by
  obtain ⟨⟨name, d⟩, found, same⟩ := List.mem_map.1 member
  cases same
  obtain ⟨-, -, fieldwise⟩ := bind_eq_ok_iff.1 read
  obtain ⟨⟨name', answer⟩, field, own⟩ := exists_of_mem_mapM fieldwise found
  obtain ⟨d, rfl, same⟩ := bind_eq_ok_iff.1 own
  cases same
  cases h : g.node r <;> rw [h] at shape <;> cases shape
  exact (holds_iff h).2 (List.mem_filterMap.2 ⟨_, field, rfl⟩)

/-! ## An end to every descent -/

section Finite

variable {root : Ref} (finite : {c | g.Within root c}.Finite)

/-- How many objects are not noted yet. -/
noncomputable def unnoted (noted : List Ref) : Nat :=
  (finite.toFinset.filter (· ∉ noted)).card

theorem unnoted_cons_lt {noted : List Ref} (within : g.Within root r) (absent : r ∉ noted) :
    unnoted finite (r :: noted) < unnoted finite noted := by
  refine Finset.card_lt_card (Finset.ssubset_iff_of_subset ?_ |>.2 ⟨r, ?_, ?_⟩)
  · intro c
    simp
    tauto
  · simp [within, absent]
  · simp

theorem exists_parts (way : Way) (members : List Member)
    (each : ∀ part c, .ok (part, c) ∈ members →
      ∃ result visits, Encodes g (.object (way.into part) c) result visits) :
    ∃ result visits, Encodes g (.parts way members) result visits := by
  induction members with
  | nil => exact ⟨_, _, .nil⟩
  | cons member rest ih =>
      obtain e | ⟨part, c⟩ := member
      · exact ⟨_, _, .absent⟩
      · obtain ⟨result, visits, first⟩ := each part c (by simp)
        obtain ⟨others, more, later⟩ := ih fun part c member => each part c (by simp [member])
        cases result with
        | error e => exact ⟨_, _, .part_fails first⟩
        | ok v => exact ⟨_, _, .part first later⟩

/-- Noting an object leaves fewer that are not noted; that is the way to all of its parts. -/
theorem exists_noting {way : Way} (within : g.Within root r)
    (fewer : ∀ way' : Way, unnoted finite way'.noted < unnoted finite way.noted →
      ∀ c, g.Within root c → ∃ result visits, Encodes g (.object way' c) result visits) :
    ∃ result visits, Encodes g (.noting way r) result visits := by
  by_cases again : r ∈ way.noted
  · exact ⟨_, _, .again again⟩
  have less := unnoted_cons_lt finite within again
  by_cases shape : (g.node r).shape = .container
  · obtain ⟨result, visits, below⟩ :=
      exists_parts ((way.note r).past r) (g.members way.trail r)
        fun part c member => fewer _ less c (within.tail (holds_of_mem_members member))
    exact ⟨_, _, .opened shape again below⟩
  · obtain ⟨result, visits, below⟩ := fewer (way.note r) less r within
    exact ⟨_, _, .plain shape again below⟩

include finite

theorem wellFounded_unnoted
    (noted : ∀ c, g.Within root c → ¬ Relation.TransGen g.Unnoted c c) :
    WellFounded fun c r : {c // g.Within root c} => Relation.TransGen g.Unnoted r.1 c.1 := by
  have : Finite {c // g.Within root c} := finite.to_subtype
  have : IsTrans {c // g.Within root c} fun c r => Relation.TransGen g.Unnoted r.1 c.1 :=
    ⟨fun _ _ _ below above => above.trans below⟩
  have : Std.Irrefl fun c r : {c // g.Within root c} => Relation.TransGen g.Unnoted r.1 c.1 :=
    ⟨fun c => noted c.1 c.2⟩
  exact Finite.wellFounded_of_trans_of_irrefl _

/-- From note to note fewer objects are left to be noted, and in between the members of
enumerations come to an end. -/
theorem exists_object (noted : ∀ c, g.Within root c → ¬ Relation.TransGen g.Unnoted c c)
    (way : Way) (within : g.Within root r) :
    ∃ result visits, Encodes g (.object way r) result visits := by
  induction left : unnoted finite way.noted using Nat.strong_induction_on generalizing way r with
  | _ count fewer =>
      have noting (way : Way) (same : unnoted finite way.noted = count) {c : Ref}
          (within : g.Within root c) : ∃ result visits, Encodes g (.noting way c) result visits :=
        exists_noting finite within fun way' less d within' =>
          fewer _ (same ▸ less) way' within' rfl
      have start : ∃ start : {c // g.Within root c}, start.1 = r := ⟨⟨r, within⟩, rfl⟩
      obtain ⟨start, rfl⟩ := start
      induction start using (wellFounded_unnoted finite noted).induction generalizing way with
      | _ start below =>
          cases shape : (g.node start.1).shape with
          | value v => exact ⟨_, _, .value shape⟩
          | refused => exact ⟨_, _, .refused shape⟩
          | member c =>
              have step : g.Unnoted start.1 c := unnoted_iff.2 shape
              have within' : g.Within root c := within.tail step.1
              obtain ⟨_, _, value⟩ :=
                below ⟨c, within'⟩ (.single step) (way.past start.1) left within'
              exact ⟨_, _, .member shape value⟩
          | provider answer =>
              cases answer with
              | error e => exact ⟨_, _, .provider_fails shape⟩
              | ok c =>
                  obtain ⟨_, _, answer⟩ := noting (way.past start.1) left
                    (within.tail (holds_provider shape))
                  exact ⟨_, _, .provider shape answer⟩
          | container =>
              obtain ⟨_, _, contents⟩ := noting way left within
              exact ⟨_, _, .container shape contents⟩
          | record fields =>
              rcases read : recordParts fields with e | parts
              · exact ⟨_, _, .record_fails shape read⟩
              by_cases again : start.1 ∈ way.noted
              · exact ⟨_, _, .record_again shape read again⟩
              have less := unnoted_cons_lt finite within again
              obtain ⟨_, _, contents⟩ :=
                exists_parts ((way.note start.1).past start.1)
                  (namedMembers parts) fun part c member =>
                    fewer _ (left ▸ less) _
                      (within.tail (holds_of_mem_named shape read member)) rfl
              exact ⟨_, _, .record shape read again contents⟩

end Finite

/-! ## Objects below themselves -/

def IsCircular {α : Type} (result : Except Error α) : Prop :=
  ∃ place, result = .error (.encoding .circular place)

/-- Encoding the object below those noted comes to a noted one, past members of enumerations at
most. -/
inductive Circling (g : Graph) (noted : List Ref) : Ref → Prop
  | container {r : Ref} : (g.node r).shape = .container → r ∈ noted → Circling g noted r
  | record {r : Ref} {fields : List (String × Except Error Ref)} {parts : List (String × Ref)} :
      (g.node r).shape = .record fields → recordParts fields = .ok parts → r ∈ noted →
      Circling g noted r
  | provider {r c : Ref} :
      (g.node r).shape = .provider (.ok c) → c ∈ noted → Circling g noted r
  | member {r c : Ref} : (g.node r).shape = .member c → Circling g noted c → Circling g noted r

namespace Circling

variable {noted : List Ref}

theorem cons (h : g.Circling noted r) : g.Circling (c :: noted) r := by
  induction h with
  | container shape member => exact .container shape (by simp [member])
  | record shape read member => exact .record shape read (by simp [member])
  | provider shape member => exact .provider shape (by simp [member])
  | member shape _ ih => exact .member shape ih

theorem of_chain (h : g.Circling noted c) (chain : Relation.ReflTransGen g.Unnoted r c) :
    g.Circling noted r := by
  induction chain using Relation.ReflTransGen.head_induction_on with
  | refl => exact h
  | head step _ ih => exact .member (unnoted_iff.1 step) ih

theorem mem_of_container (h : g.Circling noted r) (shape : (g.node r).shape = .container) :
    r ∈ noted := by
  cases h with
  | container _ member => exact member
  | _ => simp_all

theorem isCircular {way : Way} (h : g.Circling way.noted r) {result : Except Error Value}
    {visits : List Visit} (encodes : Encodes g (.object way r) result visits) :
    IsCircular result := by
  generalize same : way.noted = noted at h
  induction h generalizing way result visits with
  | container shape member =>
      cases encodes with
      | container _ below =>
          cases below with
          | again => exact ⟨_, rfl⟩
          | _ => simp_all
      | _ => simp_all
  | record shape read member =>
      cases encodes with
      | record_again => exact ⟨_, rfl⟩
      | _ => simp_all
  | provider shape member =>
      cases encodes with
      | provider shape' below =>
          cases shape.symm.trans shape'
          cases below with
          | again => exact ⟨_, rfl⟩
          | _ => simp_all [Way.past]
      | _ => simp_all
  | member shape _ ih =>
      cases encodes with
      | member shape' below =>
          cases shape.symm.trans shape'
          exact ih below same
      | _ => simp_all

end Circling

end Graph

namespace Descent

open Templating.Graph

variable {g : Graph} {root r c : Ref} {way : Way}

/-- Whatever is on the way comes to a noted object when it is encoded again, at the latest once the
next one is noted. -/
def Guarded (g : Graph) (root : Ref) : {k : Kind} → Descent k → Prop
  | _, .object way r =>
    g.Within root r ∧
      ∀ a ∈ way.passed, g.Circling way.noted a ∨ Relation.TransGen g.Unnoted a r
  | _, .noting way r =>
    g.Within root r ∧
      ∀ a ∈ way.passed, g.Circling (r :: way.noted) a ∧
        ((g.node a).shape = .container → a ∈ way.noted)
  | _, .parts way members =>
    (∀ part c, .ok (part, c) ∈ members → g.Within root c) ∧
      ∀ a ∈ way.passed, g.Circling way.noted a

theorem guarded_start : (Descent.object .start root).Guarded g root :=
  ⟨.refl, fun _ member => nomatch member⟩

namespace Guarded

theorem value (h : (Descent.object way r).Guarded g root) (shape : (g.node r).shape = .member c) :
    (Descent.object (way.past r) c).Guarded g root := by
  have step : g.Unnoted r c := unnoted_iff.2 shape
  refine ⟨h.1.tail step.1, List.forall_mem_cons.2 ⟨.inr (.single step), fun a member => ?_⟩⟩
  exact (h.2 a member).imp_right fun chain => chain.tail step

/-- Once the object is sure to come to a noted one, so is all that is on the way. -/
theorem circling (h : (Descent.object way r).Guarded g root)
    (own : g.Circling (c :: way.noted) r) :
    ∀ a ∈ way.passed, g.Circling (c :: way.noted) a ∧
      ((g.node a).shape = .container → a ∈ way.noted) := by
  intro a member
  rcases h.2 a member with circling | chain
  · exact ⟨circling.cons, circling.mem_of_container⟩
  · refine ⟨own.of_chain chain.to_reflTransGen, fun shape => ?_⟩
    obtain ⟨d, step, -⟩ := Relation.TransGen.head'_iff.1 chain
    cases shape.symm.trans (unnoted_iff.1 step)

theorem answer (h : (Descent.object way r).Guarded g root)
    (shape : (g.node r).shape = .provider (.ok c)) :
    (Descent.noting (way.past r) c).Guarded g root := by
  have own : g.Circling (c :: way.noted) r := .provider shape (by simp)
  refine ⟨h.1.tail (holds_provider shape), List.forall_mem_cons.2 ⟨⟨own, ?_⟩, h.circling own⟩⟩
  simp [shape]

theorem opening (h : (Descent.object way r).Guarded g root)
    (shape : (g.node r).shape = .container) : (Descent.noting way r).Guarded g root :=
  ⟨h.1, h.circling (.container shape (by simp))⟩

theorem fields (h : (Descent.object way r).Guarded g root)
    {fields : List (String × Except Error Ref)} {parts : List (String × Ref)}
    (shape : (g.node r).shape = .record fields) (read : recordParts fields = .ok parts) :
    (Descent.parts ((way.note r).past r) (namedMembers parts)).Guarded g root := by
  have own : g.Circling (r :: way.noted) r := .record shape read (by simp)
  refine ⟨fun part c member => h.1.tail (holds_of_mem_named shape read member), ?_⟩
  exact List.forall_mem_cons.2 ⟨own, fun a member => (h.circling own a member).1⟩

theorem plain (h : (Descent.noting way r).Guarded g root) :
    (Descent.object (way.note r) r).Guarded g root :=
  ⟨h.1, fun a member => .inl (h.2 a member).1⟩

theorem opened (h : (Descent.noting way r).Guarded g root)
    (shape : (g.node r).shape = .container) :
    (Descent.parts ((way.note r).past r) (g.members way.trail r)).Guarded g root := by
  refine ⟨fun part c member => h.1.tail (holds_of_mem_members member), ?_⟩
  exact List.forall_mem_cons.2
    ⟨.container shape (by simp [Way.note, Way.past]), fun a member => (h.2 a member).1⟩

theorem part {part : PathPart} {rest : List Member}
    (h : (Descent.parts way (.ok (part, c) :: rest)).Guarded g root) :
    (Descent.object (way.into part) c).Guarded g root :=
  ⟨h.1 part c (by simp), fun a member => .inl (h.2 a member)⟩

theorem rest {member : Member} {rest : List Member}
    (h : (Descent.parts way (member :: rest)).Guarded g root) :
    (Descent.parts way rest).Guarded g root :=
  ⟨fun part c found => h.1 part c (by simp [found]), h.2⟩

/-- An object that is met below itself is refused, as is one below which that happens. -/
theorem meets_object (h : (Descent.object way r).Guarded g root)
    (noted : ∀ c, g.Within root c → ¬ Relation.TransGen g.Unnoted c c)
    {result : Except Error Value} {visits : List Visit}
    (encodes : Encodes g (.object way r) result visits)
    (below : (∃ visit ∈ visits, visit.ref ∈ visit.path) → IsCircular result)
    (again : ∃ visit ∈ ⟨way.passed, r⟩ :: visits, visit.ref ∈ visit.path) :
    IsCircular result := by
  obtain ⟨visit, member, again⟩ := again
  rcases List.mem_cons.1 member with rfl | member
  · rcases h.2 r again with circling | chain
    · exact circling.isCircular encodes
    · exact absurd chain (noted r h.1)
  · exact below ⟨visit, member, again⟩

theorem meets_noting (h : (Descent.noting way r).Guarded g root)
    {result : Except Error Value} {visits : List Visit}
    (encodes : Encodes g (.noting way r) result visits)
    (below : (∃ visit ∈ visits, visit.ref ∈ visit.path) → IsCircular result)
    (again : ∃ visit ∈ ⟨way.passed, r⟩ :: visits, visit.ref ∈ visit.path) :
    IsCircular result := by
  obtain ⟨visit, member, again⟩ := again
  rcases List.mem_cons.1 member with rfl | member
  · obtain ⟨circling, container⟩ := h.2 r again
    cases encodes with
    | again => exact ⟨_, rfl⟩
    | plain _ _ below =>
        refine Circling.isCircular ?_ below
        exact circling
    | opened shape absent => exact absurd (container shape) absent
  · exact below ⟨visit, member, again⟩

end Guarded

end Descent

namespace Encodes

open Templating.Graph

variable {g : Graph} {root : Ref}

/-- A descent that meets an object below itself ends there. -/
theorem isCircular_of_visit (noted : ∀ c, g.Within root c → ¬ Relation.TransGen g.Unnoted c c)
    {k : Descent.Kind} {descent : Descent k} {result : Except Error k.Result}
    {visits : List Visit} (h : Encodes g descent result visits)
    (guarded : descent.Guarded g root) (again : ∃ visit ∈ visits, visit.ref ∈ visit.path) :
    IsCircular result := by
  induction h with
  | value | refused | provider_fails | record_fails | record_again | again | nil | absent =>
      obtain ⟨visit, member, -⟩ := again
      cases member
  | member shape below ih =>
      have inner := guarded.value shape
      exact inner.meets_object noted below (ih inner) again
  | provider shape below ih =>
      have inner := guarded.answer shape
      obtain ⟨place, rfl⟩ := inner.meets_noting below (ih inner) again
      exact ⟨place, rfl⟩
  | container shape _ ih => exact ih (guarded.opening shape) again
  | record shape read _ _ ih =>
      obtain ⟨place, rfl⟩ := ih (guarded.fields shape read) again
      exact ⟨place, rfl⟩
  | plain _ _ _ ih => exact ih guarded.plain again
  | opened shape _ _ ih =>
      obtain ⟨place, rfl⟩ := ih (guarded.opened shape) again
      exact ⟨place, rfl⟩
  | part_fails below ih =>
      obtain ⟨place, same⟩ := guarded.part.meets_object noted below (ih guarded.part) again
      cases same
      exact ⟨place, rfl⟩
  | part below _ ih ih' =>
      obtain ⟨visit, member, again⟩ := again
      rcases List.mem_append.1 member with member | member
      · obtain ⟨place, same⟩ :=
          guarded.part.meets_object noted below (ih guarded.part) ⟨visit, member, again⟩
        cases same
      · obtain ⟨place, rfl⟩ := ih' guarded.rest ⟨visit, member, again⟩
        exact ⟨place, rfl⟩

end Encodes

namespace Graph

variable {g : Graph} {r : Ref}

/-- What is too deep is refused at the root. -/
def outermost : Except Error Value → Except Error Value
  | .error (.fault f) =>
    if f.kind = .recursion then .error (.encoding .tooDeep (Trail.text [])) else .error (.fault f)
  | result => result

theorem encode_eq_outermost : g.encode r = outermost (g.encodeWithin depthLimit [] [] r) :=
  rfl

/-- The encoding of finitely many objects comes to an end, however they hang together, if no member
of an enumeration stands for itself by way of nothing but members.  If it meets an object below
itself, the data is refused. -/
theorem encode_of_finite (finite : {c | g.Within r c}.Finite)
    (noted : ∀ c, g.Within r c → ¬ Relation.TransGen g.Unnoted c c) :
    ∃ result visits,
      (∀ result' visits', Encodes g (.object .start r) result' visits' ↔
        result' = result ∧ visits' = visits) ∧
      (∃ enough, ∀ fuel, enough ≤ fuel → g.encodeWithin fuel [] [] r = result) ∧
      (g.encode r = outermost result ∨ g.encode r = .error (.encoding .tooDeep "$")) ∧
      ((∃ visit ∈ visits, visit.ref ∈ visit.path) →
        (∃ place, g.encode r = .error (.encoding .circular place)) ∨
          g.encode r = .error (.encoding .tooDeep "$")) := by
  obtain ⟨result, visits, encodes⟩ := exists_object finite noted .start .refl
  have tends := encodes.tends
  have outcome : g.encode r = outermost result ∨
      g.encode r = .error (.encoding .tooDeep "$") := by
    rw [encode_eq_outermost]
    rcases tends.before depthLimit with done | short
    · exact .inl (congrArg outermost done)
    · exact .inr (congrArg outermost short)
  refine ⟨result, visits, fun result' visits' => ⟨encodes.unique, ?_⟩, tends.eventually, outcome,
    fun again => ?_⟩
  · rintro ⟨rfl, rfl⟩
    exact encodes
  · obtain ⟨place, rfl⟩ := encodes.isCircular_of_visit noted Descent.guarded_start again
    exact outcome.imp_left fun same => ⟨place, same⟩

theorem finite_of_parts {refs : List Ref} (parts : ∀ r, ∀ c ∈ (g.node r).parts, c ∈ refs)
    (r : Ref) : {c | g.Within r c}.Finite := by
  refine (List.finite_toSet (r :: refs)).subset fun c within => ?_
  rcases Relation.ReflTransGen.cases_tail_iff _ _ _ |>.1 within with rfl | ⟨d, -, part⟩
  · simp
  · simp [parts d c part]

/-- A mapping with a provider of a tuple, in which a member of an enumeration stands for the
mapping. -/
def circularGraph : Graph where
  node
    | 0 => .mapping true [(.text "a", 1), (.text "b", 2)]
    | 1 => .list [5, 5]
    | 2 => .provider (.ok 3)
    | 3 => .tuple [1, 4]
    | 4 => .member 0
    | _ => .null

theorem circularGraph_visits : ∃ result visits,
    Encodes circularGraph (.object .start 0) result visits ∧
      ∃ visit ∈ visits, visit.ref ∈ visit.path := by
  have list (way : Way) (absent : 1 ∉ way.noted) :
      ∃ v visits, Encodes circularGraph (.object way 1) (.ok v) visits := by
    have items : Encodes circularGraph
        (.parts ((way.note 1).past 1) [.ok (.index 0, 5), .ok (.index 1, 5)])
        (.ok [.null, .null]) _ :=
      .part (.value rfl) (.part (.value rfl) .nil)
    exact ⟨.array [.null, .null], _, .container rfl (.opened rfl absent items)⟩
  let top : Way := ⟨[0], [0], []⟩
  let tuple : Way := ⟨[3, 2, 0], [3, 0], [.key "b"]⟩
  have circle : Encodes circularGraph (.object (tuple.into (.index 1)) 4)
      (.error (.encoding .circular "$.b[1]")) [⟨[4, 3, 2, 0], 0⟩] :=
    .member rfl (.container rfl (.again (by decide)))
  obtain ⟨_, _, nested⟩ := list (tuple.into (.index 0)) (by decide)
  have handedOut : Encodes circularGraph (.noting ((top.into (.key "b")).past 2) 3) _ _ :=
    .opened rfl (by decide) (.part nested (.part_fails circle))
  obtain ⟨_, _, plain⟩ := list (top.into (.key "a")) (by decide)
  have root : Encodes circularGraph (.noting .start 0) _ _ :=
    .opened rfl (by decide) (.part plain (.part_fails (.provider rfl handedOut)))
  exact ⟨_, _, .container rfl root, ⟨[4, 3, 2, 0], 0⟩, by simp, by decide⟩

theorem encode_circularGraph :
    {c | circularGraph.Within 0 c}.Finite ∧
      (∀ c, circularGraph.Within 0 c → ¬ Relation.TransGen circularGraph.Unnoted c c) ∧
      ((∃ place, circularGraph.encode 0 = .error (.encoding .circular place)) ∨
        circularGraph.encode 0 = .error (.encoding .tooDeep "$")) := by
  have finite : {c | circularGraph.Within 0 c}.Finite := by
    have parts : ∀ r, ∀ c ∈ (circularGraph.node r).parts, c ∈ [0, 1, 2, 3, 4, 5] := by
      intro r c part
      simp only [circularGraph] at part
      split at part <;> simp [ObjectNode.parts, Except.toOption] at part ⊢ <;> tauto
    exact finite_of_parts parts 0
  have only (c d : Ref) (step : circularGraph.Unnoted c d) : c = 4 ∧ d = 0 := by
    have shape := unnoted_iff.1 step
    simp only [circularGraph] at shape
    split at shape <;> simp_all [ObjectNode.shape, ObjectNode.atom?]
  have noted : ∀ c, circularGraph.Within 0 c →
      ¬ Relation.TransGen circularGraph.Unnoted c c := by
    intro c _ circle
    obtain ⟨d, first, -⟩ := Relation.TransGen.head'_iff.1 circle
    obtain ⟨e, -, last⟩ := Relation.TransGen.tail'_iff.1 circle
    cases (only c d first).1.symm.trans (only e c last).2
  obtain ⟨result, visits, descent, -, -, circular⟩ := encode_of_finite finite noted
  obtain ⟨_, _, encodes, again⟩ := circularGraph_visits
  obtain ⟨-, rfl⟩ := (descent _ _).1 encodes
  exact ⟨finite, noted, circular again⟩

example : circularGraph.encode 0 = .error (.encoding .circular "$.b[1]") := by rfl

end Graph

end Templating
