import Templating.Object.Literal
import Templating.Value.Equality

/-!
# Identity and truth of objects

Which objects are equal, which are true, and which cannot be in a set. Plain data is equal by what
it holds, an object of an application only to itself. `Graph.content` is a text that two objects
share exactly if they are equal.
-/

namespace Templating

namespace Graph

/-- A text that two pieces of plain data share exactly if they are equal: numbers by their value
whatever their type, mappings and sets whatever their order. What is inside itself is named by its
reference there. -/
def contentWithin (g : Graph) : Nat → List Ref → Ref → String
  | 0, _, _ => ""
  | fuel + 1, active, r =>
    let below := contentWithin g fuel (r :: active)
    let sorted := Value.sortedTexts
    if r ∈ active then s!"@{r}"
    else
      match g.node r with
      | .null => "null"
      | .bool b => if b then "#1" else "#0"
      | .int n | .intMember n => s!"#{n}"
      | .float x => Value.numberContent x
      | .string s | .textMember _ s => Text.json s
      | .bytes content => Text.literalBytes content
      | .list items => commaList "[" "]" (items.map below)
      | .tuple items => commaList "(" ")" (items.map below)
      | .set items | .frozenSet items => commaList "set(" ")" (sorted (items.map below))
      | .mapping _ entries =>
        commaList "\x7b" "\x7d" (sorted (entries.map fun entry =>
          (match entry.1 with
            | .text name => Text.json name
            | .object key => below key) ++ ":" ++ below entry.2))
      | .moment m => m.content
      | .duration d => d.literal
      | .zone offset => zoneLiteral offset
      | .classObject _ shown => shown
      | .method className name => s!"method {className}.{name}"
      | .kindLabel kind => kind.label
      | .ready v => v.content
      | .member _ | .record .. | .recordType _ | .provider _ | .other _ | .custom .. => s!"@{r}"

def content (g : Graph) (r : Ref) : String := g.contentWithin depthLimit [] r

def keyContent (g : Graph) : MapKey → String
  | .text name => Text.json name
  | .object key => g.content key

/-- The entries of a mapping with `key` bound to `x`: in the place of an equal key if there is one,
which stays as it is, else at the end. -/
def bindKey {α : Type} (g : Graph) (key : MapKey) (x : α) : List (MapKey × α) → List (MapKey × α)
  | [] => [(key, x)]
  | (k, y) :: rest =>
    if g.keyContent k == g.keyContent key then (k, x) :: rest else (k, y) :: bindKey g key x rest

/-- The objects without those that are equal to an earlier one. -/
def distinct (g : Graph) : List Ref → List Ref
  | [] => []
  | r :: rest => r :: (distinct g rest).filter fun other => g.content other != g.content r

def truth (g : Graph) (r : Ref) : Except Error Bool :=
  match g.node r with
  | .ready v => v.truthy
  | .null => .ok false
  | .bool b => .ok b
  | .int n | .intMember n => .ok (n != 0)
  | .float x => .ok !x.isZero
  | .string s | .textMember _ s => .ok (s != "")
  | .bytes content => .ok !content.isEmpty
  | .list items | .tuple items | .set items | .frozenSet items => .ok !items.isEmpty
  | .mapping _ entries => .ok !entries.isEmpty
  | .duration d => .ok !d.isZero
  | .custom _ truth _ _ => .ok truth
  | _ => .ok true

/-- The type that keeps an object out of sets, if one does. -/
def unhashableWithin (g : Graph) : Nat → Ref → Option String
  | 0, _ => none
  | fuel + 1, r =>
    match g.node r with
    | .ready v => v.unhashable?
    | .tuple items => items.findSome? (unhashableWithin g fuel)
    | .list _ | .set _ | .mapping .. | .record .. => some (g.node r).typeName
    | _ => none

def unhashable? (g : Graph) (r : Ref) : Option String := g.unhashableWithin depthLimit r

/-- Refuses an object that cannot be in a set. -/
def requireHashable (g : Graph) (r : Ref) : Except Error Unit :=
  match g.unhashable? r with
  | some found => .error (.fault (.notHashable found))
  | none => .ok ()

end Graph

end Templating
