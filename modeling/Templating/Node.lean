import Templating.Source.Position
import Templating.Value

/-!
# Syntax trees

A template is a list of nodes. A tag without a body is inline, one with a body is a block, and a
block may have an else branch. Constants, identifiers and inline tags are also the parameters of
tags.
-/

namespace Templating

inductive Node
  | raw (position : Position) (text : String)
  | constant (position : Position) (value : Value)
  | identifier (position : Position) (path : List Step)
  | tag (position : Position) (name : String) (params : List Node)
      (body orelse : Option (List Node))
  /-- A node of a tree made by hand that nothing can evaluate. -/
  | bare (position : Position)

namespace Node

def position : Node → Position
  | raw p _ | constant p _ | identifier p _ | tag p .. | bare p => p

/-- The text of a node that is text, else nothing. -/
def rawText : Node → String
  | raw _ text => text
  | _ => ""

end Node

end Templating
