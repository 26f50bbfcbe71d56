import Templating.Object.Attribute
import Templating.Object.Identity

/-!
# Conversion of plain data

`Graph.toValue` turns scalars, mappings with text keys, lists and tuples into values and leaves a
ready value as it is. Anything else becomes an object known by its answers.
-/

namespace Templating

namespace Graph

/-- The step that leads to the item under a key, if a path can name it. -/
def stepOfKey? (g : Graph) : MapKey → Option Step
  | .text name => some (.key name)
  | .object key =>
    match g.node key with
    | .string s => some (.key s)
    | .int n => some (.index n)
    | .bool b => some (.index (if b then 1 else 0))
    | .float (.finite negative significand exponent) =>
      let split := Binary64.parts significand exponent
      if split.2.1 = 0 then some (.index (Binary64.signed negative split.1)) else none
    | _ => none

def entryAt? {α : Type} (g : Graph) (entries : List (MapKey × α)) (step : Step) : Option α :=
  (entries.find? fun entry => g.stepOfKey? entry.1 == some step).map (·.2)

def positionOf? : Step → Option Int
  | .index position => some position
  | .key _ => none

/-- The value that an object is equal to, if it is a scalar. -/
def scalar? (g : Graph) (r : Ref) : Option Value :=
  match g.node r with
  | .null => some .null
  | .bool b => some (.bool b)
  | .int n | .intMember n => some (.int n)
  | .float x => some (.float x)
  | .string s | .textMember _ s => some (.string s)
  | _ => none

/-- The object at a reference, with its attributes and items given. -/
def plainForeign (g : Graph) (r : Ref) (named : String → Option (Except Error Value))
    (item : Step → Option (Except Error Value)) : Foreign :=
  ⟨g.content r, g.text r, g.json r, g.literal r, g.truth r, g.unhashable? r,
    (g.node r).qualifiedTypeName, g.scalar? r, named, item⟩

/-- The item of an object at a step: a part of the graph, or something that stands for itself. -/
def itemAt? (g : Graph) (r : Ref) (step : Step) : Option (Except Error Attribute) :=
  match g.node r with
  | .string s | .textMember _ s =>
    (positionOf? step).bind fun position =>
      (elementAt? s.toList position).map fun c => .ok (.leaf (.string c.toString))
  | .bytes content =>
    (positionOf? step).bind fun position =>
      (elementAt? content position).map fun b => .ok (.leaf (.int b.toNat))
  | .list items | .tuple items =>
    (positionOf? step).bind fun position =>
      (elementAt? items position).map fun part => .ok (.part part)
  | .mapping _ entries => (g.entryAt? entries step).map fun part => .ok (.part part)
  | .custom _ _ _ (some items) => (g.entryAt? items step).map (·.map .part)
  | _ => none

mutual

/-- The value of the object at a reference, at most `fuel` steps deep. -/
def toValueWithin (g : Graph) : Nat → Ref → Except Error Value
  | 0, _ => .error (.fault .tooDeep)
  | fuel + 1, r =>
    match g.node r with
    | .ready v => .ok v
    | .null => .ok .null
    | .bool b => .ok (.bool b)
    | .int n | .intMember n => .ok (.int n)
    | .float x => .ok (.float x)
    | .string s => .ok (.string s)
    | .textMember label _ => .ok (.string label)
    | .list items | .tuple items => do return .array (← items.mapM (toValueWithin g fuel))
    | .mapping _ entries => do
      let converted ← entries.mapM fun entry =>
        match entry.1 with
        | .text name => do return (name, ← toValueWithin g fuel entry.2)
        | .object key => .error (.fault (.keyNotText (g.node key).typeName))
      return .ofEntries converted
    | _ => .ok (.foreign (foreignWithin g fuel r))

def foreignWithin (g : Graph) : Nat → Ref → Foreign
  | 0, r => plainForeign g r (fun _ => none) (fun _ => none)
  | fuel + 1, r =>
    let answer (reply : Except Error Attribute) : Except Error Value :=
      match reply with
      | .ok (.part part) => toValueWithin g fuel part
      | .ok (.leaf node) => toValueWithin (.single node) fuel 0
      | .error e => .error e
    plainForeign g r (fun name => (g.attribute? r name).map answer)
      (fun step => (g.itemAt? r step).map answer)

end

def toForeign (g : Graph) (r : Ref) : Foreign := g.foreignWithin depthLimit r

def toValue (g : Graph) (r : Ref) : Except Error Value := g.toValueWithin depthLimit r

end Graph

namespace Object

def toValue (object : Object) : Except Error Value := object.graph.toValue object.root

@[simp] theorem toValue_ofValue (v : Value) : (ofValue v).toValue = .ok v := rfl

@[simp] theorem toValue_ofString (s : String) : (ofString s).toValue = .ok (.string s) := rfl

@[simp] theorem toValue_none : none.toValue = .ok .null := rfl

end Object

end Templating
