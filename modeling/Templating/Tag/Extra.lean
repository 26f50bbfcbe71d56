import Templating.Error.Raised
import Templating.Tag.Builtin

/-!
# Tags that an application may add

Tags beyond the built-in ones: some inspect the render they run in, some render their branches in
other ways, and some hand out results of every kind, so that a registry can be tried out.
-/

namespace Templating.Extra

open Invocation Builtin

def shout (i : Invocation) : Plan Object := do
  return text (Text.upper (← Plan.ofExcept (← i.param 0).text) ++ "!")

/-- The second parameter, after as many pauses as the first says, of which nothing is seen. -/
def pause (i : Invocation) : Plan Object := do
  match ← Plan.ofExcept (← i.param 0).asInt? with
  | none => .fail (.fault (.raised .type "'NoneType' object cannot be interpreted as an integer"))
  | some _ => return text (← Plan.ofExcept (← i.param 1).text)

def shownFrame (f : Frame) (line : Int) : String :=
  let chain := f.chain.map fun entry => s!"{entry.1}:{entry.2}"
  let label := f.label.getD "None"
  s!"{label}@{f.depth}/{f.limit}:{line}[" ++ String.intercalate "," chain ++ "]"

def whereabouts (_ : Invocation) : Plan Object :=
  .ask fun current =>
    match current with
    | none => .done (text "none")
    | some (f, line) => .done (text (shownFrame f line))

def record (i : Invocation) : Plan Object := do
  let note ← Plan.ofExcept (← i.param 0).text
  .note note (.done Object.none)

/-- Fails with an error of the class named first, given the texts of the other parameters. -/
def fail (i : Invocation) : Plan Object := do
  let name ← Plan.ofExcept (← i.param 0).text
  let texts ← Plan.ofExcept ((i.params.drop 1).mapM Value.text)
  .fail ((Error.ofClass? name texts).getD (.fault (.tagMissing name)))

def twice (_ : Invocation) : Plan Object := do
  let first ← renderBody none
  let second ← renderBody none
  return text (first ++ second)

/-- The body with the parameter, or null, bound to `v`. -/
def withBinding (i : Invocation) : Plan Object := do
  return text (← renderBody (some (i.bind [("v", (i.params.head?).getD .null)])))

def otherwise (_ : Invocation) : Plan Object := do
  let body ← renderBody none
  let orelse ← renderElse none
  return text ("<" ++ body ++ "|" ++ orelse ++ ">")

/-- The branches in the other order, against the parameter. -/
def swap (i : Invocation) : Plan Object := do
  let context ← i.param 0
  let orelse ← renderElse (some context)
  let body ← renderBody (some context)
  return text (orelse ++ body)

/-- The text of the first parameter rendered as a template, under the label of the second. -/
def sub (i : Invocation) : Plan Object := do
  let source ← Plan.ofExcept (← i.param 0).text
  let label ← Plan.ofExcept (← i.param 1).text
  return text (← .source (Text.Utf8.encode source) i.context label .done)

def kind (i : Invocation) : Plan Object := do return text (← i.param 0).kind.name

def orNull (v : Option Value) : Object := value (v.getD .null)

def toInteger (i : Invocation) : Plan Object := do
  return orNull ((← Plan.ofExcept (← i.param 0).asInt?).map .int)

/-- A number read from a text at a place. Two that are not numbers differ if their places do. -/
def readAt (p : Position) : Binary64 → Binary64
  | .nan _ => .nan ((1 <<< 64) + (p.line.toNat <<< 32) + p.column.toNat)
  | x => x

def toNumber (i : Invocation) : Plan Object := do
  let v ← i.param 0
  let number ← Plan.ofExcept v.asFloat?
  let fresh : Binary64 → Binary64 := if v.kind = .string then readAt i.position else id
  return orNull (number.map fun x => .float (fresh x))

def list (i : Invocation) : Plan Object := return value (.array i.params)

def pair (i : Invocation) : Plan Object := do
  let first ← i.param 0
  let second ← i.param 1
  return value (.dictionary [("a", first), ("b", .array [second, .float (Binary64.ofInt 1)])])

def nothing (_ : Invocation) : Plan Object := return Object.none

def yes (_ : Invocation) : Plan Object := return value (.bool true)

/-- A mapping with a key that is no text, which has no value. -/
def badKey (_ : Invocation) : Plan Object :=
  return ⟨⟨fun r => if r = 0 then .mapping true [(.object 1, 1)] else .int 1⟩, 0⟩

def fetch (i : Invocation) : Plan Object := do
  return value (← Plan.ofExcept (i.context.followAll i.params))

def place (i : Invocation) : Plan Object :=
  return text s!"{i.name}@{i.position.line}:{i.position.column}"

def strict (i : Invocation) : Plan Object := do
  i.requireCount 1 (some 2)
  i.requireNoBody
  return text "ok"

def entries : List (String × TagEntry) :=
  [("shout", function "shout" shout), ("pause", function "pause" pause),
    ("where", function "where" whereabouts), ("record", function "record" record),
    ("raise", function "raise" fail), ("twice", function "twice" twice),
    ("scoped", function "scoped" withBinding), ("otherwise", function "otherwise" otherwise),
    ("swap", function "swap" swap), ("sub", function "sub" sub), ("kind", function "kind" kind),
    ("toint", function "toint" toInteger), ("tofloat", function "tofloat" toNumber),
    ("list", function "list" list), ("pair", function "pair" pair),
    ("nothing", function "nothing" nothing), ("yes", function "yes" yes),
    ("badkey", function "badkey" badKey), ("fetch", function "fetch" fetch),
    ("at", function "at" place), ("strict", function "strict" strict)]

end Templating.Extra
