import Templating.Value.Text

/-!
# Paths into values

A step that leads nowhere leads to null, and nothing leads on from there. An array takes a text
that reads as an integer for an index, a dictionary an integer for its decimal text. In an object a
name is first looked up among the attributes and then, like any other step, among the items; an
attribute that is missing and an item that cannot be had are null, but any other failure of the
object is a failure of the path.

A step may also be given by a value (`follow`): a text or an integer is the step that it says, and
an array refuses what is no position.
-/

namespace Templating

def Error.hidesAttribute : Error → Bool
  | .fault f => f.kind == .attribute
  | _ => false

def Error.hidesItem : Error → Bool
  | .fault f => f.kind == .key || f.kind == .index || f.kind == .type
  | _ => false

namespace Foreign

def getItem (object : Foreign) (step : Step) : Except Error Value :=
  match object.item step with
  | none => .ok .null
  | some (.ok v) => .ok v
  | some (.error e) => if e.hidesItem then .ok .null else .error e

def get (object : Foreign) : Step → Except Error Value
  | .index position => object.getItem (.index position)
  | .key name =>
    match object.named name with
    | none => object.getItem (.key name)
    | some (.ok v) => .ok v
    | some (.error e) => if e.hidesAttribute then object.getItem (.key name) else .error e

end Foreign

namespace Value

def element (items : List Value) (position : Int) : Value := (elementAt? items position).getD .null

def entry (entries : List (String × Value)) (key : String) : Value :=
  (entries.lookup key).getD .null

def get : Value → Step → Except Error Value
  | .dictionary entries, .key name => .ok (entry entries name)
  | .dictionary entries, .index position => do return entry entries (← integerText position)
  | .array items, .index position => .ok (element items position)
  | .array items, .key name =>
    match Number.readInteger name.toList with
    | .integer position => .ok (element items position)
    | .tooLong _ | .malformed => .ok .null
  | .foreign object, step => object.get step
  | _, _ => .ok .null

def fetch (v : Value) : List Step → Except Error Value
  | [] => .ok v
  | step :: rest => do
    let next ← v.get step
    if next.isNull then return .null else next.fetch rest

/-- Whether a number lies among the positions of a list of `count` elements, counted from either
end. -/
def amongPositions (count : Nat) : Binary64 → Bool
  | .finite negative significand exponent =>
    let x := Binary64.ratio significand exponent
    let least := -((count * x.2 : Nat) : Int)
    decide (least ≤ Binary64.signed negative x.1 ∧ Binary64.signed negative x.1 < -least)
  | _ => false

/-- An array takes nothing but integers and texts for positions. -/
def refusedPosition (items : List Value) (step : Value) : Except Error Value :=
  let refuse (found : String) : Except Error Value :=
    .error (.fault (.raised .type s!"'<=' not supported between instances of 'int' and '{found}'"))
  match step with
  | .float x =>
    if amongPositions items.length x then
      .error (.fault (.raised .type "tuple indices must be integers or slices, not float"))
    else .ok .null
  | .null => refuse "NoneType"
  | .array _ => refuse "tuple"
  | .dictionary _ => refuse "mappingproxy"
  | .foreign object => refuse object.typeName
  | _ => .ok .null

/-- The text that names an entry of a dictionary in place of a value that is no text. -/
def keyText : Value → Except Error String
  | .array items => do
    let parts ← items.mapM Value.describe
    let closing := if parts.length = 1 then ",)" else ")"
    return "(" ++ String.intercalate ", " parts ++ closing
  | .dictionary entries => do
    let parts ← entries.mapM fun entry => do
      return Text.literal entry.1 ++ ": " ++ (← entry.2.describe)
    return "\x7b" ++ String.intercalate ", " parts ++ "\x7d"
  | .foreign object => object.text
  | v => v.literal

/-- What a value leads to by another one: a text names an entry, an integer or a truth a position;
in a dictionary everything else names an entry by its text. -/
def followPlain (v step : Value) : Except Error Value :=
  match v, step with
  | _, .string name => v.get (.key name)
  | _, .int position => v.get (.index position)
  | .dictionary entries, _ => do return Value.entry entries (← keyText step)
  | _, .bool b => v.get (.index (if b then 1 else 0))
  | .array items, _ => refusedPosition items step
  | _, _ => .ok .null

/-- What a value leads to by another one; an object that is a scalar counts as that scalar. -/
def follow (v : Value) : Value → Except Error Value
  | .foreign object => v.followPlain (object.scalar.getD (.foreign object))
  | step => v.followPlain step

/-- What a value leads to by the others in turn; nothing leads on from null. -/
def followAll (v : Value) : List Value → Except Error Value
  | [] => .ok v
  | step :: rest => if v.isNull then .ok v else do followAll (← v.follow step) rest

end Value

end Templating
