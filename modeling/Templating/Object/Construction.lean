import Templating.Object.Conversion
import Templating.Value.Numeric

/-!
# Values of a wanted kind

Each constructor makes a value of one kind of whatever object it is given, or tells why there is
none: a truth of any object, an integer or a number of a number or of a text that reads as one, a
text of any object, an array of whatever can be gone through, a dictionary of a mapping.
-/

namespace Templating

def shownLimit : Nat := 200

def clip (text : String) : String := String.ofList (text.toList.take shownLimit)

namespace Graph

def raise {α : Type} (kind : FaultClass) (message : String) : Except Error α :=
  .error (.fault (.raised kind message))

/-- The characters of bytes that are read as ASCII; no number holds what stands for other bytes. -/
def asciiText (content : List UInt8) : List Char :=
  content.map fun b => if b < 128 then Char.ofNat b.toNat else '?'

def toBoolean (g : Graph) (r : Ref) : Except Error Value := do return .bool (← g.truth r)

def notInteger {α : Type} (shown : String) : Except Error α :=
  raise .value s!"invalid literal for int() with base 10: {shown}"

def notNumber {α : Type} (shown : String) : Except Error α :=
  raise .value s!"could not convert string to float: {shown}"

/-- An integer from a text, which is shown as given if it is none. -/
def integerOfText (chars : List Char) (shown : String) : Except Error Value :=
  match Number.readInteger chars with
  | .integer n => .ok (.int n)
  | .tooLong digits => .error (.fault (.integerTextTooLong digits))
  | .malformed => notInteger shown

/-- An integer from bytes; of bytes that are none so many are shown. -/
def integerOfBytes (content : List UInt8) : Except Error Value :=
  integerOfText (asciiText content) (clip (Text.literalBytes (content.take shownLimit)))

def toInteger (g : Graph) (r : Ref) : Except Error Value :=
  match g.node r with
  | .bool b => .ok (.int (if b then 1 else 0))
  | .int n | .intMember n => .ok (.int n)
  | .float x => do return .int (← Value.truncate x)
  | .string s | .textMember _ s => do integerOfText s.toList (clip (← g.literal r))
  | .bytes content => integerOfBytes content
  | node =>
    raise .type
      ("int() argument must be a string, a bytes-like object or a real number, " ++
        s!"not '{node.qualifiedTypeName}'")

def numberOfText (chars : List Char) (shown : String) : Except Error Value :=
  match Number.readNumber chars with
  | some x => .ok (.float x)
  | none => notNumber shown

def numberOfBytes (content : List UInt8) : Except Error Value :=
  numberOfText (asciiText content) (Text.literalBytes content)

def toNumber (g : Graph) (r : Ref) : Except Error Value :=
  match g.node r with
  | .bool b => .ok (.float (Binary64.ofInt (if b then 1 else 0)))
  | .int n | .intMember n => do return .float (← Value.integerAsFloat n)
  | .float x => .ok (.float x)
  | .string s | .textMember _ s => do numberOfText s.toList (← g.literal r)
  | .bytes content => numberOfBytes content
  | node =>
    raise .type
      s!"float() argument must be a string or a real number, not '{node.qualifiedTypeName}'"

def toText (g : Graph) (r : Ref) : Except Error Value := do return .string (← g.text r)

def keyValue (g : Graph) : MapKey → Except Error Value
  | .text name => .ok (.string name)
  | .object key => g.toValue key

def endsSequence : Error → Bool
  | .fault f => f.kind == .index
  | _ => false

/-- The items from a position on, up to the one that ends the sequence; there are at most `fuel`. -/
def sequenceFrom (g : Graph) (items : List (MapKey × Except Error Ref)) :
    Nat → Nat → Except Error (List Value)
  | 0, _ => .ok []
  | fuel + 1, position =>
    match g.entryAt? items (.index position) with
    | none => raise .key (toString position)
    | some (.error e) => if endsSequence e then .ok [] else .error e
    | some (.ok part) => do
      let first ← g.toValue part
      return first :: (← sequenceFrom g items fuel (position + 1))

def toArray (g : Graph) (r : Ref) : Except Error Value :=
  match g.node r with
  | .list items | .tuple items | .set items | .frozenSet items => do
    return .array (← items.mapM g.toValue)
  | .string s | .textMember _ s => .ok (.array (s.toList.map fun c => .string c.toString))
  | .bytes content => .ok (.array (content.map fun b => .int b.toNat))
  | .mapping _ entries => do return .array (← entries.mapM fun entry => g.keyValue entry.1)
  | .custom _ _ _ (some items) => do
    return .array (← g.sequenceFrom items (items.length + 1) 0)
  | node => raise .type s!"'{node.qualifiedTypeName}' object is not iterable"

def attributeMissing (node : ObjectNode) (name : String) : String :=
  match node with
  | .recordType className => s!"type object '{className}' has no attribute '{name}'"
  | .custom .. => name
  | _ => s!"'{node.qualifiedTypeName}' object has no attribute '{name}'"

/-- Asks an object for its entries, which only a mapping has. -/
def toDictionary (g : Graph) (r : Ref) : Except Error Value :=
  match g.node r with
  | .mapping .. => g.toValue r
  | node =>
    match g.attribute? r "items" with
    | none => raise .attribute (attributeMissing node "items")
    | some (.error e) => .error e
    | some (.ok (.part part)) =>
      match g.node part with
      | .recordType className => raise .type s!"'{className}' object is not iterable"
      | found => raise .type s!"'{found.qualifiedTypeName}' object is not callable"
    | some (.ok (.leaf found)) =>
      raise .type s!"'{found.qualifiedTypeName}' object is not callable"

end Graph

end Templating
