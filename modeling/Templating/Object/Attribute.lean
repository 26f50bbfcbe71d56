import Templating.Object
import Templating.Value.Numeric
import Templating.Value.Text

/-!
# Attributes of objects

What an object answers when it is asked for an attribute by name. Numbers have their parts, moments
and durations theirs, members of an enumeration a name and a value, records their fields, and values
what can be asked of a value. Every object has a class, and objects of the common classes have
methods; of a method nothing is known but its name.
-/

namespace Templating

/-- What an attribute leads to: a part of the graph, or something that stands for itself. -/
inductive Attribute
  | part (ref : Ref)
  | leaf (node : ObjectNode)

namespace ObjectNode

/-- The names of the methods of an object, with blanks between them. -/
def methods : ObjectNode → String
  | .bool _ | .int _ | .intMember _ =>
    "as_integer_ratio bit_count bit_length conjugate from_bytes to_bytes"
  | .float _ => "as_integer_ratio conjugate fromhex hex is_integer"
  | .string _ | .textMember .. =>
    "capitalize casefold center count encode endswith expandtabs find format format_map index " ++
      "isalnum isalpha isascii isdecimal isdigit isidentifier islower isnumeric isprintable " ++
      "isspace istitle isupper join ljust lower lstrip maketrans partition removeprefix " ++
      "removesuffix replace rfind rindex rjust rpartition rsplit rstrip split splitlines " ++
      "startswith strip swapcase title translate upper zfill"
  | .bytes _ =>
    "capitalize center count decode endswith expandtabs find fromhex hex index isalnum isalpha " ++
      "isascii isdigit islower isspace istitle isupper join ljust lower lstrip maketrans " ++
      "partition removeprefix removesuffix replace rfind rindex rjust rpartition rsplit rstrip " ++
      "split splitlines startswith strip swapcase title translate upper zfill"
  | .list _ => "append clear copy count extend index insert pop remove reverse sort"
  | .tuple _ => "count index"
  | .set _ =>
    "add clear copy difference difference_update discard intersection intersection_update " ++
      "isdisjoint issubset issuperset pop remove symmetric_difference " ++
      "symmetric_difference_update union update"
  | .frozenSet _ =>
    "copy difference intersection isdisjoint issubset issuperset symmetric_difference union"
  | .mapping true _ => "clear copy fromkeys get items keys pop popitem setdefault update values"
  | .mapping false _ => "copy get items keys values"
  | .moment (.date _) =>
    "ctime fromisocalendar fromisoformat fromordinal fromtimestamp isocalendar isoformat " ++
      "isoweekday replace strftime timetuple today toordinal weekday"
  | .moment (.time _) => "dst fromisoformat isoformat replace strftime tzname utcoffset"
  | .moment (.dateTime ..) =>
    "astimezone combine ctime date dst fromisocalendar fromisoformat fromordinal fromtimestamp " ++
      "isocalendar isoformat isoweekday now replace strftime strptime time timestamp timetuple " ++
      "timetz today toordinal tzname utcfromtimestamp utcnow utcoffset utctimetuple weekday"
  | .duration _ => "total_seconds"
  | .zone _ => "dst fromutc tzname utcoffset"
  | .recordType _ | .classObject .. => "mro"
  | .ready _ =>
    "array as_dict as_float as_int as_list boolean dictionary fetch get integer number of " ++
      "opaque string to_python"
  | _ => ""

def hasMethod (node : ObjectNode) (name : String) : Bool := (node.methods.splitOn " ").contains name

def wholePart? (n : Int) : String → Option ObjectNode
  | "real" | "numerator" => some (.int n)
  | "imag" => some (.int 0)
  | "denominator" => some (.int 1)
  | _ => none

def numberPart? (x : Binary64) : String → Option ObjectNode
  | "real" => some (.float x)
  | "imag" => some (.float (.zero false))
  | _ => none

def durationPart? (d : Duration) : String → Option ObjectNode
  | "days" => some (.int d.days)
  | "seconds" => some (.int d.seconds)
  | "microseconds" => some (.int d.micros)
  | "min" => some (.duration .least)
  | "max" => some (.duration .greatest)
  | "resolution" => some (.duration .microsecond)
  | _ => none

def zonePart? : String → Option ObjectNode
  | "utc" => some (.zone 0)
  | "min" => some (.zone (-greatestOffset))
  | "max" => some (.zone greatestOffset)
  | _ => none

def momentPart? (m : Moment) : String → Option ObjectNode
  | "min" => some (.moment m.least)
  | "max" => some (.moment m.greatest)
  | "resolution" => some (.duration m.resolution)
  | "tzinfo" => m.clock?.map fun c => (c.offset.map ObjectNode.zone).getD .null
  | name => (m.parts.lookup name).map fun (part : Nat) => .int part

/-- The name and the value of a member of an enumeration, under either spelling. -/
def memberPart? (label : String) (value : Attribute) : String → Option Attribute
  | "name" | "_name_" => some (.leaf (.string label))
  | "value" | "_value_" => some value
  | _ => none

def memberLabel : String := "RED"

def kindName (kind : Kind) : String := String.ofList (kind.label.toList.drop 5)

def valuePart? (v : Value) : String → Option (Except Error ObjectNode)
  | "kind" => some (.ok (.kindLabel v.kind))
  | "value" => some (.ok (.ready v))
  | "is_null" => some (.ok (.bool v.isNull))
  | "truthy" => some (v.truthy.map .bool)
  | "text" => some (v.text.map .string)
  | _ => none

end ObjectNode

namespace Graph

/-- The attribute of an object's own by a name. -/
def ownAttribute? (g : Graph) (r : Ref) (name : String) : Option (Except Error Attribute) :=
  let leaf (node : Option ObjectNode) := node.map fun node => .ok (.leaf node)
  let member (value : Attribute) : Option (Except Error Attribute) :=
    if name = ObjectNode.memberLabel then some (.ok (.part r))
    else (ObjectNode.memberPart? ObjectNode.memberLabel value name).map .ok
  match g.node r with
  | .bool b => leaf (ObjectNode.wholePart? (if b then 1 else 0) name)
  | .int n => leaf (ObjectNode.wholePart? n name)
  | .float x => leaf (ObjectNode.numberPart? x name)
  | .moment m => leaf (ObjectNode.momentPart? m name)
  | .duration d => leaf (ObjectNode.durationPart? d name)
  | .zone _ => leaf (ObjectNode.zonePart? name)
  | .member value => member (.part value)
  | .intMember n => (member (.leaf (.int n))).or (leaf (ObjectNode.wholePart? n name))
  | .textMember _ content => member (.leaf (.string content))
  | .kindLabel kind =>
    (ObjectNode.memberPart? (ObjectNode.kindName kind) (.leaf (.string kind.name)) name).map .ok
  | .record _ fields => (fields.lookup name).map (·.map .part)
  | .custom _ _ attributes _ => (attributes.lookup name).map (·.map .part)
  | .ready v => (ObjectNode.valuePart? v name).map (·.map .leaf)
  | .recordType className | .classObject className _ =>
    if name = "__name__" then leaf (some (.string className)) else none
  | _ => none

def attribute? (g : Graph) (r : Ref) (name : String) : Option (Except Error Attribute) :=
  let node := g.node r
  let common : Option ObjectNode :=
    if name = "__class__" then some (.classObject node.typeName node.classShown)
    else if node.hasMethod name then some (.method node.typeName name)
    else none
  (g.ownAttribute? r name).or (common.map fun node => .ok (.leaf node))

end Graph

end Templating
