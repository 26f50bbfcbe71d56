import Templating.Object
import Templating.Value.Text

/-!
# Texts of objects

The forms in which an object shows itself: as a literal, as plain text, and inside JSON. Each walks
the graph and gives up below `depthLimit`.
-/

namespace Templating

namespace Graph

def commaList (opening closing : String) (parts : List String) : String :=
  Value.bracketed opening closing ", " parts

/-- The literal of a dictionary, `shown` being that of its parts. -/
def entriesLiteral (shown : Ref → Except Error String) (entries : List (MapKey × Ref)) :
    Except Error String := do
  let texts ← entries.mapM fun entry => do
    let key ←
      match entry.1 with
      | .text name => .ok (Text.literal name)
      | .object key => shown key
    return key ++ ": " ++ (← shown entry.2)
  return commaList "\x7b" "\x7d" texts

def cycleMark? : ObjectNode → Option String
  | .list _ => some "[...]"
  | .tuple _ => some "(...)"
  | .set _ => some "set(...)"
  | .frozenSet _ => some "frozenset(...)"
  | .mapping plain _ => some (if plain then "\x7b...\x7d" else "mappingproxy(\x7b...\x7d)")
  | .record .. => some "..."
  | _ => none

/-- The literal of the object at a reference, at most `fuel` levels deep, below the objects
`active`. -/
def literalWithin (g : Graph) : Nat → List Ref → Ref → Except Error String
  | 0, _, _ => .error (.fault .tooDeep)
  | fuel + 1, active, r =>
    let below := literalWithin g fuel (r :: active)
    let parts (items : List Ref) := items.mapM below
    match (if r ∈ active then cycleMark? (g.node r) else none) with
    | some mark => .ok mark
    | none =>
      match g.node r with
      | .ready v => v.describe
      | .null => .ok "None"
      | .bool b => .ok (if b then "True" else "False")
      | .int n => Value.integerText n
      | .float x => .ok x.text
      | .string s => .ok (Text.literal s)
      | .bytes content => .ok (Text.literalBytes content)
      | .list items => do return commaList "[" "]" (← parts items)
      | .tuple [item] => do return s!"({← below item},)"
      | .tuple items => do return commaList "(" ")" (← parts items)
      | .set [] => .ok "set()"
      | .set items => do return commaList "\x7b" "\x7d" (← parts items)
      | .frozenSet [] => .ok "frozenset()"
      | .frozenSet items => do return commaList "frozenset(\x7b" "\x7d)" (← parts items)
      | .mapping plain entries => do
        let body ← entriesLiteral below entries
        return if plain then body else s!"mappingproxy({body})"
      | .moment m => .ok m.literal
      | .duration d => .ok d.literal
      | .zone offset => .ok (zoneLiteral offset)
      | .member value => do return s!"<Color.RED: {← below value}>"
      | .intMember n => do return s!"<Color.RED: {← Value.integerText n}>"
      | .textMember label content => .ok s!"<{label}: {Text.literal content}>"
      | .record name fields => do
        let shown ← fields.mapM fun field => do
          let part ← field.2
          return field.1 ++ "=" ++ (← below part)
        return name ++ commaList "(" ")" shown
      | .recordType name => .ok s!"<class 'types.{name}'>"
      | .classObject _ shown => .ok shown
      | .method className name => .ok s!"<built-in method {name} of {className} object>"
      | .kindLabel kind => .ok s!"<{kind.label}: {Text.literal kind.name}>"
      | .custom text .. => .ok text
      | node => .ok s!"<{node.typeName} object>"

def literal (g : Graph) (r : Ref) : Except Error String := g.literalWithin depthLimit [] r

/-- What an object shows when it is written; a view of a dictionary shows the dictionary. -/
def text (g : Graph) (r : Ref) : Except Error String :=
  match g.node r with
  | .ready v => v.text
  | .string s => .ok s
  | .mapping false entries => entriesLiteral (g.literalWithin depthLimit [r]) entries
  | .moment m => .ok m.display
  | .duration d => .ok d.text
  | .zone offset => .ok (zoneText offset)
  | .member _ => .ok "Color.RED"
  | .intMember n => Value.integerText n
  | .textMember label _ => .ok label
  | .kindLabel kind => .ok kind.label
  | _ => g.literal r

/-- A key of a mapping inside JSON; a key that is neither text nor a plain scalar is refused. -/
def jsonKey (g : Graph) : MapKey → Except Error String
  | .text name => .ok name
  | .object key =>
    match g.node key with
    | .null => .ok "null"
    | .bool b => .ok (Value.boolText b)
    | .int n => Value.integerText n
    | .float x => .ok x.json
    | node =>
      .error (.fault (.raised .type
        s!"keys must be str, int, float, bool or None, not {node.qualifiedTypeName}"))

/-- The object inside JSON: plain data as such, anything else as the string of its text. A
collection that is inside itself has no such form. -/
def jsonWithin (g : Graph) : Nat → List Ref → Ref → Except Error String
  | 0, _, _ => .error (.fault .tooDeep)
  | fuel + 1, active, r =>
    let below := jsonWithin g fuel (r :: active)
    let guarded (form : Except Error String) : Except Error String :=
      if r ∈ active then .error (.fault (.raised .value "Circular reference detected")) else form
    match g.node r with
    | .null => .ok "null"
    | .bool b => .ok (Value.boolText b)
    | .int n | .intMember n => Value.integerText n
    | .float x => .ok x.json
    | .string s | .textMember _ s => .ok (Text.json s)
    | .list items | .tuple items =>
      guarded (do return Value.bracketed "[" "]" "," (← items.mapM below))
    | .mapping true entries =>
      guarded (do
        let shown ← entries.mapM fun entry => do
          let key ← g.jsonKey entry.1
          return Text.json key ++ ":" ++ (← below entry.2)
        return Value.bracketed "\x7b" "\x7d" "," shown)
    | _ => do return Text.json (← g.text r)

def json (g : Graph) (r : Ref) : Except Error String := g.jsonWithin depthLimit [] r

end Graph

end Templating
