import Templating.Proofs.Object.Sharing

/-!
# The descent into objects

Encoding goes down into an object part by part, from left to right, and stops at the first failure.
The rules below say so without a bound on the depth, and record which objects are met under which
others.  The bounded encoding gives what the rules derive once its bound suffices, and finds the
data too deep before.
-/

namespace Templating

/-! ## Ways down -/

/-- The way down to an object: the objects on it and those that are noted, latest first, and the
path that an error shows. -/
structure Way where
  passed : List Ref
  noted : List Ref
  trail : Trail

namespace Way

def start : Way := ⟨[], [], []⟩

def past (way : Way) (r : Ref) : Way := { way with passed := r :: way.passed }

def note (way : Way) (r : Ref) : Way := { way with noted := r :: way.noted }

def into (way : Way) (part : PathPart) : Way := { way with trail := part :: way.trail }

end Way

/-- An object that is met, and those above it, latest first. -/
structure Visit where
  path : List Ref
  ref : Ref

/-- A part with the step that leads to it, or the reason why there is none. -/
abbrev Member := Except Error (PathPart × Ref)

/-- What encoding tells objects apart by. -/
inductive Shape
  | value (v : Value)
  | member (value : Ref)
  | provider (answer : Except Error Ref)
  | record (fields : List (String × Except Error Ref))
  | container
  /-- Neither plain data nor an object that hands anything out. -/
  | refused

namespace ObjectNode

def shape (node : ObjectNode) : Shape :=
  match node with
  | .member value => .member value
  | .provider answer => .provider answer
  | .record _ fields => .record fields
  | .list _ | .tuple _ | .set _ | .frozenSet _ | .mapping .. => .container
  | _ =>
    match node.atom? with
    | some v => .value v
    | none => .refused

def refusal (trail : Trail) (node : ObjectNode) : Except Error Value :=
  let refused : Except Error Value := .error (.encoding (.unsupported node.typeName) trail.text)
  match node with
  | .custom _ _ attributes _ => settle trail (do failedHook attributes; refused)
  | _ => refused

/-- The values of a container's parts put together. -/
def assemble : ObjectNode → List Value → Except Error Value
  | .set _, values | .frozenSet _, values => do return .array (← orderByText values)
  | .mapping _ entries, values =>
    let name (entry : MapKey × Ref) : String :=
      match entry.1 with
      | .text name => name
      | .object _ => ""
    .ok (.ofEntries ((entries.map name).zip values))
  | _, values => .ok (.array values)

end ObjectNode

/-- What the fields of a record hold, by name. -/
def recordParts (fields : List (String × Except Error Ref)) :
    Except Error (List (String × Ref)) := do
  failedHook fields
  fields.mapM fun field => do return (field.1, ← field.2)

def namedMembers (parts : List (String × Ref)) : List Member :=
  parts.map fun part => .ok (.key part.1, part.2)

namespace Graph

/-- The parts of a container in order. -/
def members (g : Graph) (trail : Trail) (r : Ref) : List Member :=
  match g.node r with
  | .list items | .tuple items => items.zipIdx.map fun item => .ok (.index item.2, item.1)
  | .set items | .frozenSet items => items.map fun c => .ok (.element, c)
  | .mapping _ entries =>
    entries.map fun entry =>
      match entry.1 with
      | .text name => .ok (.key name, entry.2)
      | .object key => do
        let shown ← g.literal key
        .error (.encoding (.keyNotText shown) trail.text)
  | _ => []

end Graph

/-! ## Rules -/

inductive Descent.Kind
  | one
  | many

abbrev Descent.Kind.Result : Descent.Kind → Type
  | one => Value
  | many => List Value

inductive Descent : Descent.Kind → Type
  | object (way : Way) (r : Ref) : Descent .one
  /-- The object is noted before it is looked at. -/
  | noting (way : Way) (r : Ref) : Descent .one
  | parts (way : Way) (members : List Member) : Descent .many

/-- A descent comes to a result; the objects met below its start are in order. -/
inductive Encodes (g : Graph) :
    {k : Descent.Kind} → Descent k → Except Error k.Result → List Visit → Prop
  | value {way : Way} {r : Ref} {v : Value} :
      (g.node r).shape = .value v → Encodes g (.object way r) (.ok v) []
  | refused {way : Way} {r : Ref} :
      (g.node r).shape = .refused → Encodes g (.object way r) ((g.node r).refusal way.trail) []
  | member {way : Way} {r c : Ref} {result : Except Error Value} {visits : List Visit} :
      (g.node r).shape = .member c → Encodes g (.object (way.past r) c) result visits →
      Encodes g (.object way r) result (⟨r :: way.passed, c⟩ :: visits)
  | provider_fails {way : Way} {r : Ref} {e : Error} :
      (g.node r).shape = .provider (.error e) →
      Encodes g (.object way r) (settle way.trail (.error e)) []
  | provider {way : Way} {r c : Ref} {result : Except Error Value} {visits : List Visit} :
      (g.node r).shape = .provider (.ok c) → Encodes g (.noting (way.past r) c) result visits →
      Encodes g (.object way r) (settle way.trail result) (⟨r :: way.passed, c⟩ :: visits)
  | container {way : Way} {r : Ref} {result : Except Error Value} {visits : List Visit} :
      (g.node r).shape = .container → Encodes g (.noting way r) result visits →
      Encodes g (.object way r) result visits
  | record_fails {way : Way} {r : Ref} {fields : List (String × Except Error Ref)} {e : Error} :
      (g.node r).shape = .record fields → recordParts fields = .error e →
      Encodes g (.object way r) (settle way.trail (.error e)) []
  | record_again {way : Way} {r : Ref} {fields : List (String × Except Error Ref)}
      {parts : List (String × Ref)} :
      (g.node r).shape = .record fields → recordParts fields = .ok parts → r ∈ way.noted →
      Encodes g (.object way r) (.error (.encoding .circular way.trail.text)) []
  | record {way : Way} {r : Ref} {fields : List (String × Except Error Ref)}
      {parts : List (String × Ref)} {result : Except Error (List Value)} {visits : List Visit} :
      (g.node r).shape = .record fields → recordParts fields = .ok parts → r ∉ way.noted →
      Encodes g (.parts ((way.note r).past r) (namedMembers parts)) result visits →
      Encodes g (.object way r)
        (settle way.trail
          (result.map fun values => .ofEntries ((parts.map (·.1)).zip values))) visits
  | again {way : Way} {r : Ref} :
      r ∈ way.noted → Encodes g (.noting way r) (.error (.encoding .circular way.trail.text)) []
  | plain {way : Way} {r : Ref} {result : Except Error Value} {visits : List Visit} :
      (g.node r).shape ≠ .container → r ∉ way.noted →
      Encodes g (.object (way.note r) r) result visits →
      Encodes g (.noting way r) result visits
  | opened {way : Way} {r : Ref} {result : Except Error (List Value)} {visits : List Visit} :
      (g.node r).shape = .container → r ∉ way.noted →
      Encodes g (.parts ((way.note r).past r) (g.members way.trail r)) result visits →
      Encodes g (.noting way r) (result.bind (g.node r).assemble) visits
  | nil {way : Way} : Encodes g (.parts way []) (.ok []) []
  | absent {way : Way} {e : Error} {rest : List Member} :
      Encodes g (.parts way (.error e :: rest)) (.error e) []
  | part_fails {way : Way} {part : PathPart} {c : Ref} {rest : List Member} {e : Error}
      {visits : List Visit} :
      Encodes g (.object (way.into part) c) (.error e) visits →
      Encodes g (.parts way (.ok (part, c) :: rest)) (.error e) (⟨way.passed, c⟩ :: visits)
  | part {way : Way} {part : PathPart} {c : Ref} {rest : List Member} {v : Value}
      {others : Except Error (List Value)} {visits more : List Visit} :
      Encodes g (.object (way.into part) c) (.ok v) visits →
      Encodes g (.parts way rest) others more →
      Encodes g (.parts way (.ok (part, c) :: rest)) (others.map (v :: ·))
        (⟨way.passed, c⟩ :: visits ++ more)

namespace Encodes

variable {g : Graph}

theorem unique {k : Descent.Kind} {descent : Descent k} {result result' : Except Error k.Result}
    {visits visits' : List Visit} (h : Encodes g descent result visits)
    (h' : Encodes g descent result' visits') : result' = result ∧ visits' = visits := by
  induction h generalizing visits' with
  | value shape => cases h' <;> simp_all
  | refused shape => cases h' <;> simp_all
  | provider_fails shape => cases h' <;> simp_all
  | record_fails shape failed => cases h' <;> simp_all
  | record_again shape read again => cases h' <;> simp_all
  | again member => cases h' <;> simp_all
  | nil => cases h'; simp
  | absent => cases h'; simp
  | member shape _ ih =>
      cases h' with
      | member shape' below =>
          cases shape.symm.trans shape'
          obtain ⟨rfl, rfl⟩ := ih below
          simp
      | _ => simp_all
  | provider shape _ ih =>
      cases h' with
      | provider shape' below =>
          cases shape.symm.trans shape'
          obtain ⟨rfl, rfl⟩ := ih below
          simp
      | _ => simp_all
  | container shape _ ih =>
      cases h' with
      | container _ below => exact ih below
      | _ => simp_all
  | record shape read absent _ ih =>
      cases h' with
      | record shape' read' _ below =>
          cases shape.symm.trans shape'
          cases read.symm.trans read'
          obtain ⟨rfl, rfl⟩ := ih below
          simp
      | _ => simp_all
  | plain shape absent _ ih =>
      cases h' with
      | plain _ _ below => exact ih below
      | _ => contradiction
  | opened shape absent _ ih =>
      cases h' with
      | opened _ _ below =>
          obtain ⟨rfl, rfl⟩ := ih below
          simp
      | _ => contradiction
  | part_fails _ ih =>
      cases h' with
      | part_fails below =>
          obtain ⟨⟨⟩, rfl⟩ := ih below
          simp
      | part below => cases (ih below).1
  | part _ _ ih ih' =>
      cases h' with
      | part_fails below => cases (ih below).1
      | part below rest =>
          obtain ⟨⟨⟩, rfl⟩ := ih below
          obtain ⟨rfl, rfl⟩ := ih' rest
          simp

end Encodes

/-! ## The bounded encoding -/

/-- The runs give the result from some bound on, and find the data too deep before. -/
structure Tends {α : Type} (run : Nat → Except Error α) (result : Except Error α) : Prop where
  eventually : ∃ enough, ∀ fuel, enough ≤ fuel → run fuel = result
  before : ∀ fuel, run fuel = result ∨ run fuel = .error (.fault .tooDeep)

namespace Tends

variable {α β : Type} {run : Nat → Except Error α} {result : Except Error α}

theorem const (result : Except Error α) : Tends (fun _ => result) result :=
  ⟨⟨0, fun _ _ => rfl⟩, fun _ => .inl rfl⟩

theorem succ (h : Tends run result) {run' : Nat → Except Error α}
    (zero : run' 0 = .error (.fault .tooDeep)) (more : ∀ fuel, run' (fuel + 1) = run fuel) :
    Tends run' result := by
  obtain ⟨enough, same⟩ := h.eventually
  refine ⟨⟨enough + 1, fun fuel bound => ?_⟩, fun fuel => ?_⟩
  · obtain ⟨less, rfl⟩ := Nat.exists_eq_add_of_le' (show 1 ≤ fuel by omega)
    rw [more, same less (by omega)]
  · cases fuel with
    | zero => exact .inr zero
    | succ less =>
        rw [more]
        exact h.before less

theorem map (h : Tends run result) {f : Except Error α → Except Error β}
    (keeps : f (.error (.fault .tooDeep)) = .error (.fault .tooDeep)) :
    Tends (fun fuel => f (run fuel)) (f result) := by
  obtain ⟨enough, same⟩ := h.eventually
  refine ⟨⟨enough, fun fuel bound => by rw [same fuel bound]⟩, fun fuel => ?_⟩
  rcases h.before fuel with done | short
  · exact .inl (by rw [done])
  · exact .inr (by rw [short, keeps])

theorem bind_of_error {e : Error} (h : Tends run (.error e)) {next : Nat → α → Except Error β} :
    Tends (fun fuel => run fuel >>= next fuel) (.error e) := by
  obtain ⟨enough, same⟩ := h.eventually
  refine ⟨⟨enough, fun fuel bound => by rw [same fuel bound, error_bind]⟩, fun fuel => ?_⟩
  rcases h.before fuel with done | short
  · exact .inl (by rw [done, error_bind])
  · exact .inr (by rw [short, error_bind])

theorem cons {v : α} {others : Nat → Except Error (List α)} {rest : Except Error (List α)}
    (h : Tends run (.ok v)) (h' : Tends others rest) :
    Tends (fun fuel => do
      let first ← run fuel
      let more ← others fuel
      return first :: more) (rest.map (v :: ·)) := by
  have put (more : Except Error (List α)) :
      (do
        let first ← (.ok v : Except Error α)
        return first :: (← more)) = more.map (v :: ·) := by
    cases more <;> rfl
  obtain ⟨enough, same⟩ := h.eventually
  obtain ⟨enough', same'⟩ := h'.eventually
  refine ⟨⟨max enough enough', fun fuel bound => ?_⟩, fun fuel => ?_⟩
  · rw [same fuel (by omega), same' fuel (by omega), put]
  · rcases h.before fuel with done | short
    · rcases h'.before fuel with done' | short'
      · exact .inl (by rw [done, done', put])
      · exact .inr (by rw [done, short', put]; rfl)
    · exact .inr (by rw [short]; rfl)

end Tends

namespace Descent

/-- The encoding that is bounded by its fuel. -/
def run (g : Graph) (fuel : Nat) : {k : Kind} → Descent k → Except Error k.Result
  | _, .object way r => g.encodeWithin fuel way.noted way.trail r
  | _, .noting way r => g.partsWithin fuel way.noted way.trail r
  | _, .parts way members =>
    members.mapM fun member => do
      let part ← member
      g.encodeWithin fuel way.noted (part.1 :: way.trail) part.2

end Descent

namespace Graph

variable {g : Graph} {r c : Ref} (fuel : Nat) (noted : List Ref) (trail : Trail)

theorem encodeWithin_value {v : Value} (shape : (g.node r).shape = .value v) :
    g.encodeWithin (fuel + 1) noted trail r = .ok v := by
  cases h : g.node r <;> rw [h] at shape <;> cases shape
  all_goals simp only [encodeWithin, h]

theorem encodeWithin_refused (shape : (g.node r).shape = .refused) :
    g.encodeWithin (fuel + 1) noted trail r = (g.node r).refusal trail := by
  cases h : g.node r <;> rw [h] at shape <;> cases shape
  all_goals
    simp only [encodeWithin, h]
    rfl

theorem encodeWithin_member (shape : (g.node r).shape = .member c) :
    g.encodeWithin (fuel + 1) noted trail r = g.encodeWithin fuel noted trail c := by
  cases h : g.node r <;> rw [h] at shape <;> cases shape
  exact encodeWithin_of_member h fuel noted trail

theorem encodeWithin_provider {answer : Except Error Ref}
    (shape : (g.node r).shape = .provider answer) :
    g.encodeWithin (fuel + 1) noted trail r =
      settle trail (do g.partsWithin fuel noted trail (← answer)) := by
  cases h : g.node r <;> rw [h] at shape <;> cases shape
  exact encodeWithin_of_provider h fuel noted trail

theorem shape_eq_container_iff : (g.node r).shape = .container ↔ (g.node r).isContainer = true := by
  cases g.node r with
  | list | tuple | set | frozenSet | mapping => exact ⟨fun _ => rfl, fun _ => rfl⟩
  | _ => exact ⟨nofun, nofun⟩

/-- Names that go with the values of a traversal can be put to them afterwards. -/
theorem mapM_named {α : Type} {f : α → Except Error (String × Value)} {n : α → String}
    {h : α → Except Error Value} {xs : List α}
    (each : ∀ x, f x = (do return (n x, ← h x)))
    (k : List (String × Value) → Except Error Value) :
    xs.mapM f >>= k = xs.mapM h >>= fun values => k ((xs.map n).zip values) := by
  have zipped : xs.mapM f = (do return (xs.map n).zip (← xs.mapM h)) := by
    induction xs with
    | nil => rfl
    | cons x xs ih =>
        rw [List.mapM_cons, List.mapM_cons, each, ih]
        simp
  rw [zipped, bind_assoc]
  rfl

theorem encodeWithin_fields {fields : List (String × Except Error Ref)}
    (shape : (g.node r).shape = .record fields) :
    g.encodeWithin (fuel + 1) noted trail r =
      settle trail (do
        let parts ← recordParts fields
        if r ∈ noted then .error (.encoding .circular trail.text)
        else
          return .ofEntries ((parts.map (·.1)).zip
            (← (Descent.parts ⟨[], r :: noted, trail⟩ (namedMembers parts)).run g fuel))) := by
  cases h : g.node r with
  | record name fields' =>
      rw [h] at shape
      cases shape
      simp only [encodeWithin, h, recordParts, bind_assoc]
      congr 1
      refine bind_congr fun _ => bind_congr fun parts => ?_
      split
      · rfl
      · simp only [Descent.run, namedMembers, List.mapM_map]
        exact mapM_named (fun _ => rfl) _
  | _ =>
      rw [h] at shape
      cases shape

theorem partsWithin_opened (shape : (g.node r).shape = .container) (absent : r ∉ noted) :
    g.partsWithin (fuel + 1) noted trail r =
      (Descent.parts ⟨[], r :: noted, trail⟩ (g.members trail r)).run g fuel >>=
        (g.node r).assemble := by
  cases h : g.node r with
  | list items | tuple items | set items | frozenSet items =>
      simp only [partsWithin, h, if_neg absent, members, Descent.run, List.mapM_map]
      rfl
  | mapping plain entries =>
      simp only [partsWithin, h, if_neg absent, members, Descent.run, List.mapM_map]
      refine mapM_named (fun entry => ?_) _
      obtain ⟨key | key, c⟩ := entry
      · rfl
      · cases shown : g.literal key <;> simp [shown] <;> rfl
  | _ =>
      rw [h] at shape
      cases shape

end Graph

open Templating.Graph in
theorem Encodes.tends {g : Graph} {k : Descent.Kind} {descent : Descent k}
    {result : Except Error k.Result} {visits : List Visit} (h : Encodes g descent result visits) :
    Tends (fun fuel => descent.run g fuel) result := by
  induction h with
  | value shape =>
      exact (Tends.const _).succ rfl fun fuel => g.encodeWithin_value fuel _ _ shape
  | refused shape =>
      exact (Tends.const _).succ rfl fun fuel => g.encodeWithin_refused fuel _ _ shape
  | member shape _ ih => exact ih.succ rfl fun fuel => g.encodeWithin_member fuel _ _ shape
  | provider_fails shape =>
      exact (Tends.const _).succ rfl fun fuel => g.encodeWithin_provider fuel _ _ shape
  | @provider way _ _ _ _ shape _ ih =>
      refine (ih.map (f := settle way.trail) rfl).succ rfl fun fuel => ?_
      exact g.encodeWithin_provider fuel _ _ shape
  | container shape _ ih =>
      refine ih.succ rfl fun fuel => ?_
      exact encodeWithin_container (shape_eq_container_iff.1 shape) fuel _ _
  | record_fails shape failed =>
      refine (Tends.const _).succ rfl fun fuel => ?_
      simp only [Descent.run, g.encodeWithin_fields fuel _ _ shape, failed]
      rfl
  | record_again shape read again =>
      refine (Tends.const _).succ rfl fun fuel => ?_
      simp only [Descent.run, g.encodeWithin_fields fuel _ _ shape, read, ok_bind, if_pos again]
      rfl
  | @record way _ _ parts _ _ shape read absent _ ih =>
      let named (values : List Value) : Value := .ofEntries ((parts.map (·.1)).zip values)
      refine (ih.map (f := fun values => settle way.trail (values.map named)) rfl).succ rfl
        fun fuel => ?_
      simp only [Descent.run, g.encodeWithin_fields fuel _ _ shape, read, ok_bind, if_neg absent]
      exact congrArg (settle way.trail) (bind_pure_comp named _)
  | again member =>
      exact (Tends.const _).succ rfl fun fuel => partsWithin_of_mem member fuel _
  | plain shape absent _ ih =>
      refine ih.succ rfl fun fuel => ?_
      exact partsWithin_other (by simpa [shape_eq_container_iff] using shape) fuel absent _
  | @opened _ r _ _ shape absent _ ih =>
      refine (ih.map (f := fun values => values.bind (g.node r).assemble) rfl).succ rfl
        fun fuel => ?_
      exact g.partsWithin_opened fuel _ _ shape absent
  | nil => exact .const _
  | absent => exact .const _
  | part_fails _ ih =>
      simp only [Descent.run, List.mapM_cons]
      exact ih.bind_of_error
  | part _ _ ih ih' =>
      simp only [Descent.run, List.mapM_cons]
      exact ih.cons ih'

end Templating
