import Templating.Tag.Plan
import Templating.Text.Quoted

/-!
# Registries of tags

A registry gives the handlers of tags by name. Names are texts and not empty. A handler is a
function, which is described by its name, or an object, which is described by its class.
-/

namespace Templating

inductive HandlerForm
  | function (name : String)
  | object (className : String)
deriving DecidableEq, Repr

structure TagEntry where
  form : HandlerForm
  handler : Handler

def TagEntry.describe (entry : TagEntry) : String :=
  match entry.form with
  | .function name => s!"<FunctionTag {Text.literal name}>"
  | .object className => className

/-- The name of a tag, or what stands in its place as it is shown. -/
abbrev TagName := Except String String

/-- What is offered as a tag: a name, and a handler or what stands in its place by its type. -/
structure TagOffer where
  name : TagName
  handler : Except String TagEntry

structure Registry where
  entries : List (String × TagEntry)

namespace Registry

def empty : Registry := ⟨[]⟩

def accept (offer : TagOffer) : Except Error (String × TagEntry) :=
  match offer.name with
  | .error shown => .error (.fault (.tagNameInvalid shown))
  | .ok "" => .error (.fault (.tagNameInvalid (Text.literal "")))
  | .ok name =>
    match offer.handler with
    | .error found => .error (.fault (.tagInvalid name found))
    | .ok entry => .ok (name, entry)

def TagOffer.sameName (a b : TagOffer) : Bool :=
  match a.name, b.name with
  | .ok m, .ok n => m == n
  | .error m, .error n => m == n
  | _, _ => false

/-- The offers with one more, which takes the place of one of the same name. -/
def enlist (offer : TagOffer) : List TagOffer → List TagOffer
  | [] => [offer]
  | other :: rest =>
    if TagOffer.sameName other offer then offer :: rest else other :: enlist offer rest

def TagOffer.ofEntry (entry : String × TagEntry) : TagOffer := ⟨.ok entry.1, .ok entry.2⟩

/-- The registry with further tags, which replace those of the same name. The first that cannot be
accepted is the error. -/
def merged (r : Registry) (offers : List TagOffer) : Except Error Registry := do
  let all := offers.foldl (fun list offer => enlist offer list) (r.entries.map TagOffer.ofEntry)
  return ⟨← all.mapM accept⟩

def ofOffers (offers : List TagOffer) : Except Error Registry := empty.merged offers

/-- The registry with further tags that are known to be acceptable. -/
def merge (r : Registry) (entries : List (String × TagEntry)) : Registry :=
  ⟨bindEntries r.entries entries⟩

def lookup (r : Registry) (name : String) : Option TagEntry := r.entries.lookup name

def fetch (r : Registry) (name : String) : Except Error TagEntry :=
  match r.lookup name with
  | some entry => .ok entry
  | none => .error (.fault (.tagMissing name))

/-- The tag of a name; what is no text names none. -/
def lookupNamed (r : Registry) (name : TagName) : Option TagEntry := name.toOption.bind r.lookup

def fetchNamed (r : Registry) : TagName → Except Error TagEntry
  | .ok name => r.fetch name
  | .error shown => .error (.fault (.raised .key shown))

def keys (r : Registry) : List String := r.entries.map (·.1)

def names (r : Registry) : List String := r.keys.mergeSort fun a b => a ≤ b

def size (r : Registry) : Nat := r.entries.length

def text (r : Registry) : String :=
  let shown := String.intercalate ", " (r.names.map Text.literal)
  s!"<TagRegistry [{shown}]>"

end Registry

end Templating
