import Templating.Object.Moment
import Templating.Value

/-!
# Objects of an application

The data that an application hands to a template is a graph: `Graph.node` gives for every reference
what stands there, with its parts given by reference. Parts may be shared, and a graph may lead
back to where it came from. An `Object` is a graph with the reference of its root.
-/

namespace Templating

abbrev Ref := Nat

inductive MapKey
  | text (name : String)
  | object (ref : Ref)
deriving DecidableEq, Repr

inductive ObjectNode
  | ready (value : Value)
  | null
  | bool (b : Bool)
  | int (n : Int)
  | float (x : Binary64)
  | string (s : String)
  | bytes (content : List UInt8)
  | list (items : List Ref)
  | tuple (items : List Ref)
  | set (items : List Ref)
  | frozenSet (items : List Ref)
  /-- A dictionary, or if it is not `plain` a read-only view of one. -/
  | mapping (plain : Bool) (entries : List (MapKey × Ref))
  | moment (m : Moment)
  | duration (d : Duration)
  /-- A time zone, by its offset from universal time in seconds. -/
  | zone (offset : Int)
  | member (value : Ref)
  | intMember (n : Int)
  /-- A member of an enumeration of texts; it shows itself by its label. -/
  | textMember (label content : String)
  | record (name : String) (fields : List (String × Except Error Ref))
  /-- A class of records, itself taken for an object. -/
  | recordType (name : String)
  | classObject (name shown : String)
  | method (className name : String)
  | kindLabel (kind : Kind)
  /-- An object that hands out its own value. -/
  | provider (answer : Except Error Ref)
  /-- An object of a class about which nothing else is known. -/
  | other (className : String)
  /-- An object that answers for itself, and may hold items. -/
  | custom (text : String) (truth : Bool) (attributes : List (String × Except Error Ref))
      (items : Option (List (MapKey × Except Error Ref)))

structure Graph where
  node : Ref → ObjectNode

structure Object where
  graph : Graph
  root : Ref

def Graph.single (node : ObjectNode) : Graph := ⟨fun _ => node⟩

namespace Object

def single (node : ObjectNode) : Object := ⟨.single node, 0⟩

def ofValue (v : Value) : Object := single (.ready v)

def none : Object := single .null

def ofString (s : String) : Object := single (.string s)

def node (object : Object) : ObjectNode := object.graph.node object.root

end Object

/-- How deep a walk through a graph may go. Every step of a path counts, so that data of a hundred
levels, each of a few steps, is well within. -/
def depthLimit : Nat := 1000

namespace ObjectNode

def typeName : ObjectNode → String
  | .ready _ => "ContextValue"
  | .null => "NoneType"
  | .bool _ => "bool"
  | .int _ => "int"
  | .float _ => "float"
  | .string _ => "str"
  | .bytes _ => "bytes"
  | .list _ => "list"
  | .tuple _ => "tuple"
  | .set _ => "set"
  | .frozenSet _ => "frozenset"
  | .mapping plain _ => if plain then "dict" else "mappingproxy"
  | .moment m => m.typeName
  | .duration _ => "timedelta"
  | .zone _ => "timezone"
  | .member _ | .intMember _ | .textMember .. => "Color"
  | .record name _ => name
  | .recordType _ => "type"
  | .classObject .. => "type"
  | .method .. => "builtin_function_or_method"
  | .kindLabel _ => "Kind"
  | .provider _ => "Hook"
  | .other className => className
  | .custom .. => "Thing"

/-- The name of the class with its module, where the class goes by both. -/
def qualifiedTypeName (node : ObjectNode) : String :=
  match node with
  | .moment _ | .duration _ | .zone _ => "datetime." ++ node.typeName
  | _ => node.typeName

def classShown (node : ObjectNode) : String :=
  match node with
  | .member _ | .intMember _ | .textMember .. | .kindLabel _ => s!"<enum '{node.typeName}'>"
  | .record name _ => s!"<class 'types.{name}'>"
  | _ => s!"<class '{node.qualifiedTypeName}'>"

end ObjectNode

end Templating
