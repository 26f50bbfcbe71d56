/-!
# Kinds of values
-/

namespace Templating

inductive Kind
  | null
  | bool
  | int
  | float
  | string
  | array
  | dictionary
  | foreign
deriving DecidableEq, Repr

def Kind.name : Kind → String
  | .null => "null"
  | .bool => "bool"
  | .int => "int"
  | .float => "float"
  | .string => "string"
  | .array => "array"
  | .dictionary => "dictionary"
  | .foreign => "opaque"

/-- The name of a kind as a label of its own. -/
def Kind.label : Kind → String
  | .null => "Kind.NULL"
  | .bool => "Kind.BOOL"
  | .int => "Kind.INT"
  | .float => "Kind.FLOAT"
  | .string => "Kind.STRING"
  | .array => "Kind.ARRAY"
  | .dictionary => "Kind.DICTIONARY"
  | .foreign => "Kind.OPAQUE"

end Templating
