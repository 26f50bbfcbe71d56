import Templating.Value

/-!
# Loaders

A loader finds the bytes of the template at a path, or finds that there is none.
-/

namespace Templating

abbrev Loader := String → Except Error (Option (List UInt8))

namespace Loader

/-- Templates held in a table; the last entry of a path counts. -/
def table (entries : List (String × List UInt8)) : Loader :=
  fun path => .ok ((bindEntries [] entries).lookup path)

def paths (entries : List (String × List UInt8)) : List String :=
  ((bindEntries [] entries).map (·.1)).mergeSort fun a b => a ≤ b

def ofFunction (find : String → Option (List UInt8)) : Loader := fun path => .ok (find path)

/-- The loaders in turn; the first that finds something wins. -/
def choice : List Loader → Loader
  | [] => fun _ => .ok none
  | loader :: rest => fun path => do
    match ← loader path with
    | some data => return some data
    | none => choice rest path

end Loader

end Templating
