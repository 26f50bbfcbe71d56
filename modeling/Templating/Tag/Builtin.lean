import Templating.Calendar.Format
import Templating.Tag.Registry
import Templating.Text.Case
import Templating.Value.Equality
import Templating.Value.Numeric

/-!
# Built-in tags

The tags that every template can use: output, conditions, loops, bindings, inclusion of other
templates, blocks that are not evaluated, and functions of values.
-/

namespace Templating.Builtin

open Invocation

def text (s : String) : Object := Object.ofString s

def value (v : Value) : Object := Object.ofValue v

/-- Hands out its parameter; what `{{ … }}` stands for. -/
def output (i : Invocation) : Plan Object := do
  i.requireCount 1 none
  i.requireNoBody
  return value (← i.param 0)

/-- Renders the body if the parameter counts as true, else the other branch. -/
def condition (i : Invocation) : Plan Object := do
  i.requireCount 1 none
  i.requireBody
  if ← Plan.ofExcept (← i.param 0).truthy then return text (← renderBody none)
  else return text (← renderElse none)

/-- The elements of a collection; those of a dictionary are its entries. -/
def elements : Value → Except Error (List Value)
  | .array items => .ok items
  | .dictionary entries =>
    .ok (entries.map fun entry => .dictionary [("key", .string entry.1), ("value", entry.2)])
  | .null => .ok []
  | v => .error (.fault (.notIterable v.kind))

def loopValue (length place : Nat) : Value :=
  .dictionary
    [("index", .int (place + 1)), ("index0", .int place), ("first", .bool (place == 0)),
      ("last", .bool (place + 1 == length)), ("length", .int length)]

def roundContext (i : Invocation) (name : String) (length place : Nat) (element : Value) : Value :=
  i.bind [(name, element), ("loop", loopValue length place)]

/-- The rounds of a loop from one place on, after what is `written` already. -/
def rounds (i : Invocation) (name : String) (length : Nat) :
    Nat → String → List Value → Plan String
  | _, written, [] => .done written
  | place, written, element :: rest => do
    let next ← renderBody (some (roundContext i name length place element))
    rounds i name length (place + 1) (written ++ next) rest

def optionalText (i : Invocation) (place : Nat) (otherwise : String) : Plan String :=
  match i.params[place]? with
  | some v => Plan.ofExcept v.text
  | none => .done otherwise

/-- Renders the body once for each element, or the other branch if there is none. -/
def loop (i : Invocation) : Plan Object := do
  i.requireCount 1 (some 2)
  i.requireBody
  let items ← Plan.ofExcept (elements (← i.param 0))
  let name ← optionalText i 1 "item"
  if items.isEmpty then return text (← renderElse none)
  else return text (← rounds i name items.length 0 "" items)

def binding (i : Invocation) : Plan Object := do
  i.requireCount 2 none
  i.requireBody
  let name ← Plan.ofExcept (← i.param 1).text
  return text (← renderBody (some (i.bind [(name, ← i.param 0)])))

def inclusion (i : Invocation) : Plan Object := do
  i.requireCount 1 none
  i.requireNoBody
  let path ← Plan.ofExcept (← i.param 0).text
  return text (← .path path i.context .done)

def rawBlock (i : Invocation) : Plan Object := do
  i.requireCount 0 none
  i.requireBody
  return text (String.join ((i.body.getD []).map Node.rawText))

def comment (_ : Invocation) : Plan Object := return Object.none

def count (i : Invocation) : Plan Object := do
  i.requireCount 1 none
  return value (.int (← Plan.ofExcept (← i.param 0).count))

def contains (i : Invocation) : Plan Object := do
  i.requireCount 2 none
  let haystack ← i.param 0
  let needle ← i.param 1
  return value (.bool (← Plan.ofExcept (haystack.contains needle)))

/-- The text of a value transformed; null stays null. -/
def transform (f : String → String) (i : Invocation) : Plan Object := do
  i.requireCount 1 none
  let v ← i.param 0
  if v.isNull then return value v else return text (f (← Plan.ofExcept v.text))

/-- The value, or another one in place of null. -/
def fallback (i : Invocation) : Plan Object := do
  i.requireCount 2 none
  let v ← i.param 0
  if v.isNull then return value (← i.param 1) else return value v

def join (i : Invocation) : Plan Object := do
  i.requireCount 1 (some 2)
  let v ← i.param 0
  let separator ← optionalText i 1 ", "
  match v with
  | .null => return text ""
  | .array items =>
    let parts ← Plan.ofExcept (items.mapM Value.text)
    return text (String.intercalate separator parts)
  | _ => .fail (.fault (.notJoinable v.kind))

def defaultDateFormat : String := "%Y-%m-%d %H:%M:%S"

def date (i : Invocation) : Plan Object := do
  i.requireCount 1 (some 2)
  let v ← i.param 0
  match ← Plan.ofExcept v.asFloat? with
  | none => .fail (.fault (.notTimestamp v.kind))
  | some timestamp =>
    let format ← optionalText i 1 defaultDateFormat
    let time ← Plan.ofExcept (Calendar.ofTimestamp timestamp)
    return text (Calendar.format time format)

def object (className : String) (handler : Handler) : TagEntry := ⟨.object className, handler⟩

def function (name : String) (handler : Handler) : TagEntry := ⟨.function name, handler⟩

/-- The built-in tags in the order in which they are listed. -/
def entries : List (String × TagEntry) :=
  [("get", object "Get" output), ("if", object "If" condition), ("for", object "For" loop),
    ("with", object "With" binding), ("include", object "Include" inclusion),
    ("raw", object "RawBlock" rawBlock), ("comment", object "Comment" comment),
    ("count", function "count" count), ("contains", function "contains" contains),
    ("lowercase", function "string_transform(str.lower)" (transform Text.lower)),
    ("uppercase", function "string_transform(str.upper)" (transform Text.upper)),
    ("capitalize", function "string_transform(str.capitalize)" (transform Text.capitalize)),
    ("default", function "default" fallback), ("join", function "join" join),
    ("date", function "date" date)]

def registry : Registry := ⟨entries⟩

end Templating.Builtin
