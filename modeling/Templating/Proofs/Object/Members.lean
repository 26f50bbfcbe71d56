import Templating.Proofs.Object.Circularity

/-!
# Members of enumerations

A member of an enumeration is encoded as what it stands for.  With members replaced by their values
wherever they are met, data encodes to the same value, or fails in the same way and at the same
place, unless the walk past the members takes it too deep.

There are two exceptions.  A member of an enumeration of texts is encoded as the text that it shows,
which may be another one than it holds.  And a record that a provider hands out by way of a member
is encoded, while one that it hands out itself is taken for an object below itself.
-/

namespace Templating

variable {σ : Ref → Ref}

/-! ## Nodes with other parts -/

namespace ObjectNode

/-- The node with other objects in the places of its parts. -/
def redirect (σ : Ref → Ref) : ObjectNode → ObjectNode
  | .list items => .list (items.map σ)
  | .tuple items => .tuple (items.map σ)
  | .set items => .set (items.map σ)
  | .frozenSet items => .frozenSet (items.map σ)
  | .mapping plain entries => .mapping plain (entries.map (Prod.map id σ))
  | .member value => .member (σ value)
  | .record name fields => .record name (fields.map (Prod.map id (Except.map σ)))
  | .provider answer => .provider (answer.map σ)
  | .custom text truth attributes items =>
    .custom text truth (attributes.map (Prod.map id (Except.map σ)))
      (items.map (List.map (Prod.map id (Except.map σ))))
  | node => node

/-- The node with its parts replaced, or what a member of an enumeration of numbers or of texts
stands for; that of an enumeration of texts shows itself by what it holds. -/
inductive Unwrapped (σ : Ref → Ref) : ObjectNode → ObjectNode → Prop
  | parts (node : ObjectNode) : Unwrapped σ node (node.redirect σ)
  | int (n : Int) : Unwrapped σ (.intMember n) (.int n)
  | text (content : String) : Unwrapped σ (.textMember content content) (.string content)

end ObjectNode

def Shape.redirect (σ : Ref → Ref) : Shape → Shape
  | .member c => .member (σ c)
  | .provider answer => .provider (answer.map σ)
  | .record fields => .record (fields.map (Prod.map id (Except.map σ)))
  | shape => shape

theorem lookup_redirect (σ : Ref → Ref) (name : String)
    (fields : List (String × Except Error Ref)) :
    (fields.map (Prod.map id (Except.map σ))).lookup name =
      (fields.lookup name).map (Except.map σ) := by
  induction fields with
  | nil => rfl
  | cons field fields ih =>
      obtain ⟨key, answer⟩ := field
      by_cases own : name = key
      · subst own
        simp
      · simp [List.lookup_cons, beq_false_of_ne own, ih]

theorem failedHook_redirect (σ : Ref → Ref) (fields : List (String × Except Error Ref)) :
    failedHook (fields.map (Prod.map id (Except.map σ))) = failedHook fields := by
  unfold failedHook
  rw [lookup_redirect]
  rcases fields.lookup hookName with _ | _ | c <;> rfl

theorem recordParts_redirect (σ : Ref → Ref) (fields : List (String × Except Error Ref)) :
    recordParts (fields.map (Prod.map id (Except.map σ))) =
      (recordParts fields).map (List.map (Prod.map id σ)) := by
  let read (field : String × Except Error Ref) : Except Error (String × Ref) := do
    return (field.1, ← field.2)
  have fieldwise : (fields.map (Prod.map id (Except.map σ))).mapM read =
      (fields.mapM read).map (List.map (Prod.map id σ)) := by
    induction fields with
    | nil => rfl
    | cons field fields ih =>
        obtain ⟨key, _ | c⟩ := field
        · rfl
        · rw [List.map_cons, List.mapM_cons, List.mapM_cons, ih]
          cases fields.mapM read <;> rfl
  unfold recordParts
  rw [failedHook_redirect]
  cases failedHook fields with
  | error e => rfl
  | ok _ => exact fieldwise

theorem namedMembers_redirect (σ : Ref → Ref) (parts : List (String × Ref)) :
    namedMembers (parts.map (Prod.map id σ)) =
      (namedMembers parts).map (Except.map (Prod.map id σ)) := by
  simp [namedMembers, Except.map]

theorem map_fst_redirect (σ : Ref → Ref) (parts : List (String × Ref)) :
    (parts.map (Prod.map id σ)).map (·.1) = parts.map (·.1) := by
  simp

namespace ObjectNode.Unwrapped

variable {node node' : ObjectNode}

theorem shape_eq (h : node.Unwrapped σ node') : node'.shape = node.shape.redirect σ := by
  cases h with
  | parts => cases node <;> rfl
  | int | text => rfl

theorem isContainer_eq (h : node.Unwrapped σ node') : node'.isContainer = node.isContainer := by
  cases h with
  | parts => cases node <;> rfl
  | int | text => rfl

theorem refusal_eq (h : node.Unwrapped σ node') (shape : node.shape = .refused) (trail : Trail) :
    node'.refusal trail = node.refusal trail := by
  cases h with
  | parts =>
      cases node with
      | custom text truth attributes items =>
          simp only [redirect, refusal, failedHook_redirect, typeName]
      | list | tuple | set | frozenSet | mapping | member | record | provider => cases shape
      | _ => rfl
  | int | text => cases shape

theorem assemble_eq (h : node.Unwrapped σ node') (shape : node.shape = .container)
    (values : List Value) : node'.assemble values = node.assemble values := by
  cases h with
  | parts =>
      cases node with
      | mapping plain entries => simp [redirect, assemble, Function.comp_def]
      | list | tuple | set | frozenSet => rfl
      | _ => cases shape
  | int | text => cases shape

end ObjectNode.Unwrapped

namespace Graph

variable {g g' : Graph} {root r c : Ref}

/-- Below the root, the second graph has what `σ` gives in the place of every part: the part itself,
or what it stands for as a member of an enumeration.  Keys of mappings are no parts.  If a provider
is given something else to hand out, that is no record. -/
structure Unwraps (g g' : Graph) (σ : Ref → Ref) (root : Ref) : Prop where
  node : ∀ r, g.Within root r → (g.node r).Unwrapped σ (g'.node r)
  leads : ∀ r, g.Within root r → Relation.ReflTransGen g.Unnoted r (σ r)
  keys : ∀ r plain entries key c, g.Within root r → g.node r = .mapping plain entries →
    (.object key, c) ∈ entries → g'.literal key = g.literal key
  answers : ∀ r c, g.Within root r → (g.node r).shape = .provider (.ok c) →
    σ c = c ∨ (g.node (σ c)).isRecord = false

theorem Unwraps.members_eq (h : g.Unwraps g' σ root) (within : g.Within root r) (trail : Trail) :
    g'.members trail r = (g.members trail r).map (Except.map (Prod.map id σ)) := by
  have same := h.node r within
  unfold members
  generalize own : g.node r = node at same
  generalize g'.node r = node' at same ⊢
  cases same with
  | parts =>
      cases node with
      | list items | tuple items =>
          simp [ObjectNode.redirect, List.zipIdx_map, Function.comp_def, Except.map]
      | set items | frozenSet items =>
          simp [ObjectNode.redirect, Function.comp_def, Except.map]
      | mapping plain entries =>
          simp only [ObjectNode.redirect, List.map_map]
          refine List.map_congr_left fun entry inside => ?_
          obtain ⟨key | key, c⟩ := entry
          · rfl
          · have shown := h.keys r plain entries key c within own inside
            simp only [Function.comp_apply, Prod.map, id, shown]
            cases g.literal key <;> rfl
      | _ => rfl
  | int | text => rfl

/-! ## Walks that are long enough -/

/-- By no bound on the ways down from the object are so many steps enough for it. -/
def Scant (g : Graph) (fuel : Nat) (r : Ref) : Prop := ∀ n, g.Shallow n r → fuel < 3 * n + 5

theorem scant_of_lt {fuel : Nat} (few : fuel < 5) : g.Scant fuel r := fun _ _ => by omega

theorem Scant.mono {fuel less : Nat} (h : g.Scant fuel r) (le : less ≤ fuel) : g.Scant less r :=
  fun n shallow => Nat.lt_of_le_of_lt le (h n shallow)

theorem Scant.of_part {fuel : Nat} (h : g.Scant fuel c) (part : g.Holds r c) :
    g.Scant (fuel + 3) r := by
  intro n shallow
  cases n with
  | zero =>
      exact absurd part (not_holds_of_shallow shallow c)
  | succ n =>
      have few := h n (shallow c part)
      omega

/-- The same for an object that is noted first: a container is opened next, any other is looked at
again. -/
def ScantToNote (g : Graph) (fuel : Nat) (r : Ref) : Prop :=
  g.Scant (if (g.node r).isContainer then fuel + 2 else fuel - 1) r

theorem ScantToNote.of_part {fuel : Nat} (h : g.ScantToNote fuel c) (part : g.Holds r c) :
    g.Scant (fuel + 1) r := by
  refine (Scant.of_part h part).mono ?_
  split <;> omega

/-- Both walks come to the same, or the first one finds the data too deep, which may be so. -/
def Agrees {α : Type} (deep : Prop) (result other : Except Error α) : Prop :=
  deep ∧ result = .error (.fault .tooDeep) ∨ other = result

namespace Agrees

variable {α β : Type} {deep deeper : Prop} {result other : Except Error α}

theorem refl (result : Except Error α) : Agrees deep result result := .inr rfl

theorem tooDeep (h : deep) : Agrees deep (.error (.fault .tooDeep)) other := .inl ⟨h, rfl⟩

theorem imp (h : Agrees deep result other) (more : deep → deeper) : Agrees deeper result other :=
  Or.imp_left (And.imp_left more) h

theorem bind (h : Agrees deep result other) (next : α → Except Error β) :
    Agrees deep (result >>= next) (other >>= next) := by
  rcases h with ⟨deep, rfl⟩ | rfl
  · exact tooDeep deep
  · exact .refl _

theorem settle {result other : Except Error Value} (h : Agrees deep result other)
    (trail : Trail) : Agrees deep (settle trail result) (settle trail other) := by
  rcases h with ⟨deep, rfl⟩ | rfl
  · exact tooDeep deep
  · exact .refl _

theorem mapM {γ : Type} {f : γ → Except Error β} {f' : α → Except Error β} {s : γ → α}
    {xs : List γ} (each : ∀ x ∈ xs, Agrees deep (f x) (f' (s x))) :
    Agrees deep (xs.mapM f) ((xs.map s).mapM f') := by
  induction xs with
  | nil => exact .refl _
  | cons x xs ih =>
      rw [List.map_cons, List.mapM_cons, List.mapM_cons]
      rcases each x List.mem_cons_self with ⟨deep, short⟩ | same
      · rw [short]
        exact tooDeep deep
      · rw [same]
        cases f x with
        | error e => exact .refl _
        | ok y => exact (ih fun z member => each z (List.mem_cons_of_mem x member)).bind _

end Agrees

theorem agrees_again {noted : List Ref} (again : r ∈ noted) (fuel : Nat) (trail : Trail) :
    Agrees (fuel = 0) (g.partsWithin fuel noted trail r)
      (.error (.encoding .circular trail.text)) := by
  cases fuel with
  | zero => exact .tooDeep rfl
  | succ fuel => exact .inr (partsWithin_of_mem again fuel trail).symm

/-- What comes to a noted object does so before it goes into any part. -/
theorem Circling.agrees {noted : List Ref} (h : g.Circling noted r) (fuel : Nat) (trail : Trail) :
    Agrees (g.Scant fuel r) (g.encodeWithin fuel noted trail r)
      (.error (.encoding .circular trail.text)) := by
  induction h generalizing fuel with
  | container shape again =>
      obtain _ | fuel := fuel
      · exact .tooDeep (scant_of_lt (by decide))
      rw [encodeWithin_container (shape_eq_container_iff.1 shape)]
      exact (agrees_again again fuel trail).imp fun none => scant_of_lt (by omega)
  | record shape read again =>
      obtain _ | fuel := fuel
      · exact .tooDeep (scant_of_lt (by decide))
      rw [g.encodeWithin_fields _ _ _ shape, read, ok_bind, if_pos again]
      exact .refl _
  | provider shape again =>
      obtain _ | fuel := fuel
      · exact .tooDeep (scant_of_lt (by decide))
      rw [g.encodeWithin_provider _ _ _ shape, ok_bind]
      exact ((agrees_again again fuel trail).imp fun none => scant_of_lt (by omega)).settle trail
  | member shape _ ih =>
      obtain _ | fuel := fuel
      · exact .tooDeep (scant_of_lt (by decide))
      rw [g.encodeWithin_member _ _ _ shape]
      exact (ih fuel).imp fun scant => (scant.of_part (unnoted_iff.2 shape).1).mono (by omega)

/-! ## The notes of two walks -/

theorem isContainer_of_shape {shape : Shape} (own : (g.node r).shape = shape)
    (other : shape ≠ .container) : (g.node r).isContainer = false := by
  rw [← Bool.not_eq_true, ← shape_eq_container_iff, own]
  exact other

theorem eq_of_noted (noted : g.Noted r) (chain : Relation.ReflTransGen g.Unnoted r c) : c = r := by
  rcases chain.cases_head with rfl | ⟨d, step, -⟩
  · rfl
  · have shape := unnoted_iff.1 step
    cases h : g.node r <;>
      simp_all [Noted, ObjectNode.isContainer, ObjectNode.isRecord, ObjectNode.shape]

theorem isRecord_of_shape {fields : List (String × Except Error Ref)}
    (shape : (g.node r).shape = .record fields) : (g.node r).isRecord = true := by
  cases h : g.node r <;> simp_all [ObjectNode.isRecord, ObjectNode.shape, ObjectNode.atom?]

theorem Unwraps.fixed (h : g.Unwraps g' σ root) (within : g.Within root r) (noted : g.Noted r) :
    σ r = r :=
  eq_of_noted noted (h.leads r within)

/-- Two walks have noted the same containers and records.  The first comes back from all that the
second has noted, and the second has noted what stands for all that the first has noted, or is about
to. -/
structure Abreast (g : Graph) (σ : Ref → Ref) (noted noted' : List Ref)
    (returns pending : Ref → Prop) : Prop where
  same : ∀ a, g.Noted a → (a ∈ noted ↔ a ∈ noted')
  back : ∀ a ∈ noted', returns a
  forth : ∀ a ∈ noted, σ a ∈ noted' ∨ pending (σ a)

theorem Abreast.firm {noted noted' : List Ref} {returns : Ref → Prop}
    (h : Abreast g σ noted noted' returns fun a => a = r ∧ (g.node a).isContainer = true)
    (plain : (g.node r).isContainer = false) : ∀ a ∈ noted, σ a ∈ noted' := by
  intro a member
  refine (h.forth a member).resolve_right ?_
  rintro ⟨same, container⟩
  simp [same, plain] at container

/-- Object `r` of the first graph stands, by way of members at most, for the one at which the second
walk is. -/
structure AtObject (g : Graph) (σ : Ref → Ref) (noted noted' : List Ref) (r r' : Ref) : Prop
    extends Abreast g σ noted noted'
      (fun a => g.Circling noted a ∨ Relation.ReflTransGen g.Unnoted a r')
      (fun a => a = r' ∧ (g.node a).isContainer = true) where
  chain : Relation.ReflTransGen g.Unnoted r r'

/-- The walks are about to note an object that is handed out, or a container. -/
structure AtNoting (g : Graph) (σ : Ref → Ref) (noted noted' : List Ref) (r : Ref) : Prop
    extends Abreast g σ noted noted' (g.Circling (r :: noted))
      (fun a => a = r ∧ (g.node a).isContainer = true) where
  answer : σ r = r ∨ (g.node (σ r)).isRecord = false

abbrev AtParts (g : Graph) (σ : Ref → Ref) (noted noted' : List Ref) : Prop :=
  Abreast g σ noted noted' (g.Circling noted) (fun _ => False)

namespace AtObject

variable {noted noted' : List Ref} {r' : Ref}

theorem onward (h : AtObject g σ noted noted' r r') (other : r ≠ r') :
    ∃ c, (g.node r).shape = .member c ∧ AtObject g σ noted noted' c r' := by
  rcases h.chain.cases_head with same | ⟨c, step, chain⟩
  · exact absurd same other
  · exact ⟨c, unnoted_iff.1 step, { h with chain }⟩

theorem returns (h : AtObject g σ noted noted' r r) (own : g.Circling (c :: noted) r) :
    ∀ a ∈ noted', g.Circling (c :: noted) a := by
  intro a member
  rcases h.back a member with circling | chain
  · exact circling.cons
  · exact own.of_chain chain

theorem value (h : AtObject g σ noted noted' r r) (shape : (g.node r).shape = .member c)
    (leads : Relation.ReflTransGen g.Unnoted c (σ c)) : AtObject g σ noted noted' c (σ c) where
  same := h.same
  back a member := (h.back a member).imp_right fun chain =>
    (chain.tail (unnoted_iff.2 shape)).trans leads
  forth a member := .inl (h.firm (isContainer_of_shape shape nofun) a member)
  chain := leads

theorem answer (h : AtObject g σ noted noted' r r) (shape : (g.node r).shape = .provider (.ok c))
    (answer : σ c = c ∨ (g.node (σ c)).isRecord = false) : AtNoting g σ noted noted' c where
  same := h.same
  back := h.returns (.provider shape (by simp))
  forth a member := .inl (h.firm (isContainer_of_shape shape nofun) a member)
  answer := answer

theorem opening (h : AtObject g σ noted noted' r r) (shape : (g.node r).shape = .container)
    (fixed : σ r = r) : AtNoting g σ noted noted' r where
  same := h.same
  back := h.returns (.container shape (by simp))
  forth := h.forth
  answer := .inl fixed

theorem fields (h : AtObject g σ noted noted' r r) {fields : List (String × Except Error Ref)}
    {parts : List (String × Ref)} (shape : (g.node r).shape = .record fields)
    (read : recordParts fields = .ok parts) (fixed : σ r = r) :
    AtParts g σ (r :: noted) (r :: noted') where
  same a own := by simp [h.same a own]
  back := by
    have own : g.Circling (r :: noted) r := .record shape read (by simp)
    exact List.forall_mem_cons.2 ⟨own, h.returns own⟩
  forth := by
    have firm := h.firm (isContainer_of_shape shape nofun)
    refine List.forall_mem_cons.2 ⟨.inl (by simp [fixed]), fun a member => .inl ?_⟩
    exact List.mem_cons_of_mem r (firm a member)

end AtObject

namespace AtNoting

variable {noted noted' : List Ref}

theorem again (h : AtNoting g σ noted noted' r) (again : r ∈ noted) : σ r ∈ noted' := by
  rcases h.forth r again with there | ⟨same, container⟩
  · exact there
  · rw [same] at container ⊢
    exact (h.same r (.inl container)).1 again

theorem opened (h : AtNoting g σ noted noted' r) (shape : (g.node r).shape = .container)
    (fixed : σ r = r) : AtParts g σ (r :: noted) (r :: noted') where
  same a own := by simp [h.same a own]
  back := List.forall_mem_cons.2 ⟨.container shape (by simp), h.back⟩
  forth := by
    refine List.forall_mem_cons.2 ⟨.inl (by simp [fixed]), fun a member => .inl ?_⟩
    rcases h.forth a member with there | ⟨same, -⟩
    · exact List.mem_cons_of_mem r there
    · simp [same]

/-- The first walk notes the member that is handed out; the second one notes the container for which
it stands only when it opens it. -/
theorem handed (h : AtNoting g σ noted noted' r) (plain : (g.node r).isContainer = false)
    (container : (g.node (σ r)).isContainer = true)
    (leads : Relation.ReflTransGen g.Unnoted r (σ r)) :
    AtObject g σ (r :: noted) noted' r (σ r) where
  same a own := by
    have other : a ≠ r := by
      rintro rfl
      rw [eq_of_noted own leads, plain] at container
      cases container
    simp [other, h.same a own]
  back a member := .inl (h.back a member)
  forth := List.forall_mem_cons.2
    ⟨.inr ⟨rfl, container⟩, fun a member => .inl (h.firm plain a member)⟩
  chain := leads

theorem plain (h : AtNoting g σ noted noted' r) (plain : (g.node r).isContainer = false)
    (plain' : (g.node (σ r)).isContainer = false)
    (leads : Relation.ReflTransGen g.Unnoted r (σ r)) :
    AtObject g σ (r :: noted) (σ r :: noted') r (σ r) where
  same a own := by
    by_cases fixed : σ r = r
    · simp [fixed, h.same a own]
    · have free : ¬ g.Noted (σ r) := by simp [Noted, plain', h.answer.resolve_left fixed]
      have other : a ≠ r := by
        rintro rfl
        exact fixed (eq_of_noted own leads)
      have other' : a ≠ σ r := by
        rintro rfl
        exact free own
      simp [other, other', h.same a own]
  back := List.forall_mem_cons.2 ⟨.inr .refl, fun a member => .inl (h.back a member)⟩
  forth := List.forall_mem_cons.2 ⟨.inl (by simp), fun a member =>
    .inl (List.mem_cons_of_mem (σ r) (h.firm plain a member))⟩
  chain := leads

end AtNoting

theorem AtParts.part {noted noted' : List Ref} (h : AtParts g σ noted noted')
    (leads : Relation.ReflTransGen g.Unnoted c (σ c)) : AtObject g σ noted noted' c (σ c) where
  same := h.same
  back a member := .inl (h.back a member)
  forth a member := (h.forth a member).imp_right False.elim
  chain := leads

/-! ## The walks -/

/-- The first walk, with so many steps, finds the data too deep or comes to what the second one
comes to with as many. -/
structure Follows (g g' : Graph) (σ : Ref → Ref) (root : Ref) (fuel : Nat) : Prop where
  object : ∀ {fuel' noted noted' trail r r'}, fuel ≤ fuel' → g.Within root r →
    AtObject g σ noted noted' r r' →
    Agrees (g.Scant fuel r) (g.encodeWithin fuel noted trail r)
      (g'.encodeWithin fuel' noted' trail r')
  noting : ∀ {fuel' noted noted' trail r}, fuel ≤ fuel' → g.Within root r →
    AtNoting g σ noted noted' r →
    Agrees (g.ScantToNote fuel r) (g.partsWithin fuel noted trail r)
      (g'.partsWithin fuel' noted' trail (σ r))

namespace Follows

variable {fuel fuel' : Nat} {noted noted' : List Ref} {trail : Trail}

theorem parts (h : Follows g g' σ root fuel) (more : fuel ≤ fuel') (unwraps : g.Unwraps g' σ root)
    (abreast : AtParts g σ noted noted') {members : List Member}
    (within : g.Within root r) (held : ∀ part c, .ok (part, c) ∈ members → g.Holds r c) :
    Agrees (g.Scant (fuel + 3) r) ((Descent.parts ⟨[], noted, trail⟩ members).run g fuel)
      ((Descent.parts ⟨[], noted', trail⟩ (members.map (Except.map (Prod.map id σ)))).run
        g' fuel') := by
  refine Agrees.mapM fun member inside => ?_
  obtain e | ⟨part, c⟩ := member
  · exact .refl _
  · have part := held part c inside
    have below := within.tail part
    exact (h.object more below (abreast.part (unwraps.leads c below))).imp (Scant.of_part · part)

theorem succ_record (h : Follows g g' σ root fuel) (more : fuel ≤ fuel')
    (unwraps : g.Unwraps g' σ root) (within : g.Within root r)
    (abreast : AtObject g σ noted noted' r r) {fields : List (String × Except Error Ref)}
    (shape : (g.node r).shape = .record fields)
    (shape' : (g'.node r).shape = .record (fields.map (Prod.map id (Except.map σ)))) :
    Agrees (g.Scant (fuel + 1) r) (g.encodeWithin (fuel + 1) noted trail r)
      (g'.encodeWithin (fuel' + 1) noted' trail r) := by
  rw [g.encodeWithin_fields _ _ _ shape, g'.encodeWithin_fields _ _ _ shape', recordParts_redirect]
  refine Agrees.settle ?_ trail
  cases read : recordParts fields with
  | error e => exact .refl _
  | ok parts =>
      have recorded : g.Noted r := .inr (isRecord_of_shape shape)
      have same := abreast.same r recorded
      by_cases again : r ∈ noted
      · simp only [Except.map, ok_bind, if_pos again, if_pos (same.1 again)]
        exact .refl _
      · have fixed := unwraps.fixed within recorded
        simp only [Except.map, ok_bind, if_neg again, if_neg (mt same.2 again),
          namedMembers_redirect, map_fst_redirect]
        refine Agrees.bind ?_ _
        exact (h.parts more unwraps (abreast.fields shape read fixed) within
          fun part c inside => holds_of_mem_named shape read inside).imp
          fun scant => scant.mono (by omega)

theorem succ_object (h : Follows g g' σ root fuel) (more : fuel + 1 ≤ fuel')
    (unwraps : g.Unwraps g' σ root) (within : g.Within root r) {r' : Ref}
    (abreast : AtObject g σ noted noted' r r') :
    Agrees (g.Scant (fuel + 1) r) (g.encodeWithin (fuel + 1) noted trail r)
      (g'.encodeWithin fuel' noted' trail r') := by
  by_cases here : r = r'
  -- Both walks are at one object, with the same shape but for the places of its parts.
  · subst here
    obtain ⟨fuel', rfl⟩ := Nat.exists_eq_add_of_le' (show 1 ≤ fuel' by omega)
    have more' : fuel ≤ fuel' := by omega
    have same := unwraps.node r within
    have shape' := same.shape_eq
    cases shape : (g.node r).shape with
    | value v =>
        rw [shape] at shape'
        rw [g.encodeWithin_value _ _ _ shape, g'.encodeWithin_value _ _ _ shape']
        exact .refl _
    | refused =>
        rw [shape] at shape'
        rw [g.encodeWithin_refused _ _ _ shape, g'.encodeWithin_refused _ _ _ shape',
          same.refusal_eq shape]
        exact .refl _
    | member c =>
        rw [shape] at shape'
        rw [g.encodeWithin_member _ _ _ shape, g'.encodeWithin_member _ _ _ shape']
        have part : g.Holds r c := (unnoted_iff.2 shape).1
        have below := within.tail part
        exact (h.object more' below (abreast.value shape (unwraps.leads c below))).imp
          fun scant => (scant.of_part part).mono (by omega)
    | provider answer =>
        rw [shape] at shape'
        rw [g.encodeWithin_provider _ _ _ shape, g'.encodeWithin_provider _ _ _ shape']
        cases answer with
        | error e => exact .refl _
        | ok c =>
            have part := holds_provider shape
            have handed := abreast.answer shape (unwraps.answers r c within shape)
            exact ((h.noting more' (within.tail part) handed).imp (·.of_part part)).settle trail
    | container =>
        rw [shape] at shape'
        have container := shape_eq_container_iff.1 shape
        have fixed := unwraps.fixed within (.inl container)
        rw [encodeWithin_container container,
          encodeWithin_container (shape_eq_container_iff.1 shape')]
        have opened : Agrees _ (g.partsWithin fuel noted trail r)
            (g'.partsWithin fuel' noted' trail (σ r)) :=
          h.noting more' within (abreast.opening shape fixed)
        rw [fixed] at opened
        refine opened.imp fun scant => Scant.mono scant ?_
        rw [if_pos container]
        omega
    | record fields =>
        rw [shape] at shape'
        exact h.succ_record more' unwraps within abreast shape shape'
  -- The first walk is still at a member; the second one waits.
  · obtain ⟨c, shape, next⟩ := abreast.onward here
    rw [g.encodeWithin_member _ _ _ shape]
    have part : g.Holds r c := (unnoted_iff.2 shape).1
    exact (h.object (by omega) (within.tail part) next).imp
      fun scant => (scant.of_part part).mono (by omega)

theorem succ_noting (h : Follows g g' σ root fuel) (more : fuel + 1 ≤ fuel')
    (unwraps : g.Unwraps g' σ root) (within : g.Within root r)
    (abreast : AtNoting g σ noted noted' r) :
    Agrees (g.ScantToNote (fuel + 1) r) (g.partsWithin (fuel + 1) noted trail r)
      (g'.partsWithin fuel' noted' trail (σ r)) := by
  obtain ⟨fuel', rfl⟩ := Nat.exists_eq_add_of_le' (show 1 ≤ fuel' by omega)
  have more' : fuel ≤ fuel' := by omega
  have leads := unwraps.leads r within
  have within' : g.Within root (σ r) :=
    within.trans (Relation.ReflTransGen.mono (fun _ _ step => step.1) _ _ leads)
  have kept := (unwraps.node (σ r) within').isContainer_eq
  by_cases again : r ∈ noted
  · rw [partsWithin_of_mem again, partsWithin_of_mem (abreast.again again)]
    exact .refl _
  cases container : (g.node r).isContainer with
  | true =>
      have fixed := unwraps.fixed within (.inl container)
      have shape := shape_eq_container_iff.2 container
      rw [fixed, container] at kept
      rw [fixed, g.partsWithin_opened _ _ _ shape again,
        g'.partsWithin_opened _ _ _ (shape_eq_container_iff.2 kept)
          (mt (abreast.same r (.inl container)).2 again),
        unwraps.members_eq within, funext ((unwraps.node r within).assemble_eq shape)]
      refine Agrees.bind ?_ _
      rw [ScantToNote, if_pos container]
      exact h.parts more' unwraps (abreast.opened shape fixed) within
        fun part c inside => holds_of_mem_members inside
  | false =>
      have deep : g.ScantToNote (fuel + 1) r = g.Scant fuel r := by simp [ScantToNote, container]
      rw [deep, partsWithin_other container fuel again]
      by_cases there : σ r ∈ noted'
      -- The first walk comes back as well, past the members up to there.
      · rw [partsWithin, if_pos there]
        exact ((abreast.back _ there).of_chain leads).agrees fuel trail
      cases container' : (g.node (σ r)).isContainer with
      | true =>
          -- Only the second walk opens a container now, as if it had just met it.
          rw [← encodeWithin_container (kept.trans container')]
          exact h.object (by omega) within (abreast.handed container container' leads)
      | false =>
          rw [partsWithin_other (kept.trans container') fuel' there]
          exact h.object more' within (abreast.plain container container' leads)

end Follows

theorem follows (unwraps : g.Unwraps g' σ root) (fuel : Nat) : Follows g g' σ root fuel := by
  induction fuel with
  | zero =>
      refine ⟨fun _ _ _ => .tooDeep (scant_of_lt (by decide)), fun _ _ _ => .tooDeep ?_⟩
      exact scant_of_lt (by split <;> decide)
  | succ fuel ih =>
      exact ⟨fun more within abreast => ih.succ_object more unwraps within abreast,
        fun more within abreast => ih.succ_noting more unwraps within abreast⟩

theorem not_scant (shallow : g.Shallow 300 r) : ¬ g.Scant depthLimit r := fun scant =>
  absurd (scant 300 shallow) (by decide)

/-- Data encodes as it does with members of enumerations replaced by their values, which holds of
errors and their places as well.  At most it is found too deep, and only if it goes down by more
than 300 steps.  A member of an enumeration of texts has the value that it holds exactly if it shows
itself by that. -/
theorem encode_of_unwraps (h : g.Unwraps g' σ r) :
    (g'.encode (σ r) = g.encode r ∨
        g.encode r = .error (.encoding .tooDeep "$") ∧ ¬ g.Shallow 300 r) ∧
      ∀ s label content, g.node s = .textMember label content →
        (g.encode s = .ok (.string content) ↔ label = content) := by
  refine ⟨?_, fun s label content node => ?_⟩
  · have start : AtParts g σ [] [] := ⟨fun _ _ => Iff.rfl, nofun, nofun⟩
    have walks : Agrees _ (g.encodeWithin depthLimit [] [] r)
        (g'.encodeWithin depthLimit [] [] (σ r)) :=
      (follows h depthLimit).object (Nat.le_refl _) .refl (start.part (h.leads r .refl))
    rw [encode_eq_outermost, encode_eq_outermost]
    rcases walks with ⟨scant, short⟩ | same
    · rw [short]
      exact .inr ⟨rfl, fun shallow => not_scant shallow scant⟩
    · exact .inl (congrArg outermost same)
  · have shape : (g.node s).shape = .value (.string label) := by rw [node]; rfl
    rw [encode_of_ok (g.encodeWithin_value 999 [] [] shape)]
    simp

/-- A mapping in which a member of an enumeration stands for a list, by itself and handed out by a
provider.  In the list are members of enumerations of numbers and of texts. -/
def palette : Graph where
  node
    | 0 => .mapping true [(.text "main", 1), (.text "rest", 2)]
    | 1 => .member 3
    | 2 => .provider (.ok 1)
    | 3 => .list [4, 5, 4]
    | 4 => .intMember 2
    | 5 => .textMember "red" "red"
    | _ => .null

/-- The same with the value of every member in its place. -/
def plainPalette : Graph where
  node
    | 0 => .mapping true [(.text "main", 3), (.text "rest", 2)]
    | 1 => .member 3
    | 2 => .provider (.ok 3)
    | 3 => .list [4, 5, 4]
    | 4 => .int 2
    | 5 => .string "red"
    | _ => .null

theorem encode_palette :
    palette.Shallow 300 0 ∧ plainPalette.encode 0 = palette.encode 0 ∧
      palette.encode 0 = .ok (.dictionary
        [("main", .array [.int 2, .string "red", .int 2]),
          ("rest", .array [.int 2, .string "red", .int 2])]) := by
  let σ : Ref → Ref
    | 1 => 3
    | r => r
  have unwraps : palette.Unwraps plainPalette σ 0 := by
    refine ⟨fun r _ => ?_, fun r _ => ?_, fun r plain entries key c _ own inside => ?_,
      fun r c _ shape => ?_⟩
    · obtain _ | _ | _ | _ | _ | _ | r := r
      · exact .parts _
      · exact .parts _
      · exact .parts _
      · exact .parts _
      · exact .int _
      · exact .text _
      · exact .parts _
    · obtain _ | _ | r := r
      · exact .refl
      · exact .single (unnoted_iff.2 rfl)
      · exact .refl
    · obtain _ | _ | _ | _ | _ | _ | r := r <;> cases own
      simp at inside
    · obtain _ | _ | _ | _ | _ | _ | r := r <;> cases shape
      exact .inr rfl
  have shallow : palette.Shallow 300 0 := by decide +kernel
  have same : plainPalette.encode 0 = palette.encode 0 :=
    (encode_of_unwraps unwraps).1.resolve_right fun deep => deep.2 shallow
  exact ⟨shallow, same, rfl⟩

/-- A member of an enumeration of texts that shows itself by its name is encoded as that. -/
theorem encode_namedMember :
    (single (.textMember "Color.RED" "abc")).encode 0 = .ok (.string "Color.RED") ∧
      (single (.string "abc")).encode 0 = .ok (.string "abc") :=
  ⟨rfl, rfl⟩

end Graph

end Templating
