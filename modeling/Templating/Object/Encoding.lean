import Templating.Error.Report
import Templating.Object.Conversion
import Templating.Value.Path

/-!
# Encoding of objects

`Object.encode` turns the data of an application into a value: scalars as they are, mappings with
text keys, lists and tuples in order, sets ordered by the texts of their elements, records field by
field, members of enumerations by their value, dates and times in standard form, and providers by
what they hand out. An object that is met again on the way down to itself is refused, and so is
whatever is of no such kind; the error names the place by its path from the root.
-/

namespace Templating

inductive PathPart
  | key (name : String)
  | index (position : Nat)
  | element
deriving DecidableEq, Repr

def PathPart.text : PathPart → String
  | .key name => "." ++ name
  | .index position => s!"[{position}]"
  | .element => "[*]"

/-- The path to an object, its last part first. -/
abbrev Trail := List PathPart

def Trail.text (trail : Trail) : String := String.join ("$" :: trail.reverse.map PathPart.text)

/-- An error that already tells where in the data it arose, or that the data is too deep. -/
def Error.isSettled : Error → Bool
  | .encoding .. | .encodingFailed .. => true
  | .fault f => f.kind == .recursion
  | _ => false

/-- A failure of an object that hands out its own parts, put at the place of the object. -/
def settle (trail : Trail) : Except Error Value → Except Error Value
  | .ok v => .ok v
  | .error e => if e.isSettled then .error e else .error (.encodingFailed e trail.text)

/-- The attribute under which an object may hold a way to hand out its value. -/
def hookName : String := "__context_value__"

/-- Fails if the hook of an object cannot be read; that there is none is no failure. -/
def failedHook (attributes : List (String × Except Error Ref)) : Except Error Unit :=
  match attributes.lookup hookName with
  | some (.error e) => if e.hidesAttribute then .ok () else .error e
  | _ => .ok ()

/-- Values in the order of their texts; values of one text keep their order. -/
def orderByText (values : List Value) : Except Error (List Value) := do
  let keyed ← values.mapM fun v => do return (← v.text, v)
  return (keyed.mergeSort fun a b => a.1 ≤ b.1).map (·.2)

namespace Graph

mutual

/-- The value of the object at a reference, at most `fuel` steps deep, below the objects
`active`. -/
def encodeWithin (g : Graph) : Nat → List Ref → Trail → Ref → Except Error Value
  | 0, _, _, _ => .error (.fault .tooDeep)
  | fuel + 1, active, trail, r =>
    match g.node r with
    | .ready v => .ok v
    | .null => .ok .null
    | .bool b => .ok (.bool b)
    | .int n | .intMember n => .ok (.int n)
    | .float x => .ok (.float x)
    | .string s => .ok (.string s)
    | .textMember label _ => .ok (.string label)
    | .member value => encodeWithin g fuel active trail value
    | .moment m => .ok (.string m.iso)
    | .provider answer =>
      settle trail (do partsWithin g fuel active trail (← answer))
    | .record _ fields =>
      settle trail (do
        failedHook fields
        let parts ← fields.mapM fun field => do return (field.1, ← field.2)
        if r ∈ active then .error (.encoding .circular trail.text)
        else do
          let encoded ← parts.mapM fun part => do
            return (part.1, ← encodeWithin g fuel (r :: active) (.key part.1 :: trail) part.2)
          return .ofEntries encoded)
    | .list _ | .tuple _ | .set _ | .frozenSet _ | .mapping .. => partsWithin g fuel active trail r
    | .custom _ _ attributes _ =>
      settle trail (do
        failedHook attributes
        .error (.encoding (.unsupported (g.node r).typeName) trail.text))
    | node => .error (.encoding (.unsupported node.typeName) trail.text)

def partsWithin (g : Graph) : Nat → List Ref → Trail → Ref → Except Error Value
  | 0, _, _, _ => .error (.fault .tooDeep)
  | fuel + 1, active, trail, r =>
    if r ∈ active then .error (.encoding .circular trail.text)
    else
      match g.node r with
      | .mapping _ entries => do
        let encoded ← entries.mapM fun entry =>
          match entry.1 with
          | .text name => do
            return (name, ← encodeWithin g fuel (r :: active) (.key name :: trail) entry.2)
          | .object key => do
            let shown ← g.literal key
            .error (.encoding (.keyNotText shown) trail.text)
        return .ofEntries encoded
      | .set items | .frozenSet items => do
        let encoded ← items.mapM (encodeWithin g fuel (r :: active) (.element :: trail))
        return .array (← orderByText encoded)
      | .list items | .tuple items => do
        let encoded ← items.zipIdx.mapM fun item =>
          encodeWithin g fuel (r :: active) (.index item.2 :: trail) item.1
        return .array encoded
      | _ => encodeWithin g fuel (r :: active) trail r

end

section

variable {g : Graph} {r : Ref}

theorem encodeWithin_of_member {value : Ref} (node : g.node r = .member value) (fuel : Nat)
    (active : List Ref) (trail : Trail) :
    g.encodeWithin (fuel + 1) active trail r = g.encodeWithin fuel active trail value := by
  simp only [encodeWithin, node]

theorem encodeWithin_of_provider {answer : Except Error Ref} (node : g.node r = .provider answer)
    (fuel : Nat) (active : List Ref) (trail : Trail) :
    g.encodeWithin (fuel + 1) active trail r =
      settle trail (do g.partsWithin fuel active trail (← answer)) := by
  simp only [encodeWithin, node]

theorem partsWithin_of_mem {active : List Ref} (again : r ∈ active) (fuel : Nat) (trail : Trail) :
    g.partsWithin (fuel + 1) active trail r = .error (.encoding .circular trail.text) :=
  if_pos again

theorem encodeWithin_items {items : List Ref}
    (node : g.node r = .list items ∨ g.node r = .tuple items) (fuel : Nat) (active : List Ref)
    (trail : Trail) :
    g.encodeWithin (fuel + 2) active trail r =
      if r ∈ active then .error (.encoding .circular trail.text)
      else do
        let values ← items.zipIdx.mapM fun item =>
          g.encodeWithin fuel (r :: active) (.index item.2 :: trail) item.1
        return .array values := by
  rcases node with node | node <;> simp only [encodeWithin, partsWithin, node]

/-- A mapping whose keys are texts. -/
theorem encodeWithin_named {plain : Bool} {parts : List (String × Ref)}
    (node : g.node r = .mapping plain (parts.map fun part => (.text part.1, part.2))) (fuel : Nat)
    (active : List Ref) (trail : Trail) :
    g.encodeWithin (fuel + 2) active trail r =
      if r ∈ active then .error (.encoding .circular trail.text)
      else do
        let entries ← parts.mapM fun part => do
          return (part.1, ← g.encodeWithin fuel (r :: active) (.key part.1 :: trail) part.2)
        return .ofEntries entries := by
  simp only [encodeWithin, partsWithin, node, List.mapM_map, Function.comp_def]

end

def encode (g : Graph) (r : Ref) : Except Error Value :=
  match g.encodeWithin depthLimit [] [] r with
  | .error (.fault f) =>
    if f.kind = .recursion then .error (.encoding .tooDeep (Trail.text [])) else .error (.fault f)
  | result => result

end Graph

namespace Object

def encode (object : Object) : Except Error Value := object.graph.encode object.root

end Object

/-- The class of what lies behind an encoding error, if something does. -/
def Error.causeClass? : Error → Option String
  | .encodingFailed cause _ => some cause.className
  | .encoding .tooDeep _ => some FaultClass.recursion.name
  | _ => none

end Templating
