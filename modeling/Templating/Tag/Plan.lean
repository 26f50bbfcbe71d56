import Templating.Node
import Templating.Object.Conversion
import Templating.Render.Frame
import Templating.Value.Path

/-!
# Plans of tags

What the handler of a tag does is a plan: it may render a branch of its block, render another
template, make a note, ask for the frame it runs in, fail, and in the end hand out a result. A plan
says nothing of how these steps are carried out.
-/

namespace Templating

inductive Branch
  | body
  | orelse
deriving DecidableEq, Repr

inductive Plan (α : Type) : Type
  | done (result : α)
  | fail (error : Error)
  | note (text : String) (next : Plan α)
  /-- Goes on with the frame and the line of the current render, none outside of any. -/
  | ask (next : Option (Frame × Int) → Plan α)
  /-- Renders a branch, against another context if one is given. -/
  | branch (which : Branch) (context : Option Value) (next : String → Plan α)
  | path (path : String) (context : Value) (next : String → Plan α)
  | source (data : List UInt8) (context : Value) (label : String) (next : String → Plan α)

namespace Plan

def bind {α β : Type} : Plan α → (α → Plan β) → Plan β
  | done result, f => f result
  | fail error, _ => fail error
  | note text next, f => note text (next.bind f)
  | ask next, f => ask fun frame => (next frame).bind f
  | branch which context next, f => branch which context fun text => (next text).bind f
  | path p context next, f => path p context fun text => (next text).bind f
  | source data context label next, f => source data context label fun text => (next text).bind f

instance : Monad Plan where
  pure := done
  bind := bind

def ofExcept {α : Type} : Except Error α → Plan α
  | .ok result => done result
  | .error error => fail error

theorem bind_assoc {α β γ : Type} (plan : Plan α) (f : α → Plan β) (g : β → Plan γ) :
    (plan.bind f).bind g = plan.bind fun a => (f a).bind g := by
  induction plan <;> simp_all [bind]

end Plan

/-- A tag as its handler sees it, the parameters evaluated. -/
structure Invocation where
  name : String
  params : List Value
  /-- The nodes of the branches, none for an inline tag and for a block without an else. -/
  body : Option (List Node)
  orelse : Option (List Node)
  /-- What the template around the tag renders against. -/
  context : Value
  position : Position

abbrev Handler := Invocation → Plan Object

namespace Invocation

def renderBody (context : Option Value) : Plan String := .branch .body context .done

def renderElse (context : Option Value) : Plan String := .branch .orelse context .done

def fetch (i : Invocation) (path : List Step) : Except Error Value := i.context.fetch path

/-- The current context with further bindings; a context that is no dictionary is given up for
them. -/
def bind (i : Invocation) (bindings : List (String × Value)) : Value :=
  .dictionary (bindEntries (i.context.asEntries?.getD []) bindings)

/-- A breach of the contract of a tag, placed in the current template. -/
def breach {α : Type} (i : Invocation) (problem : ContractProblem) : Plan α :=
  .ask fun current =>
    .fail (.contract problem
      { template := current.bind fun c => c.1.label
        line := if i.position.line = 0 then none else some i.position.line })

/-- Requires so many parameters, or between so many and so many. -/
def requireCount (i : Invocation) (minimum : Int) (maximum : Option Int) : Plan Unit :=
  let upper := maximum.getD minimum
  if minimum ≤ i.params.length ∧ i.params.length ≤ upper then .done ()
  else i.breach (.parameterCount i.name minimum upper i.params.length)

def requireBody (i : Invocation) : Plan Unit :=
  if i.body.isSome then .done () else i.breach (.bodyRequired i.name)

def requireNoBody (i : Invocation) : Plan Unit :=
  if i.body.isSome then i.breach (.bodyRefused i.name) else .done ()

def param (i : Invocation) (place : Nat) : Plan Value :=
  match i.params[place]? with
  | some v => .done v
  | none => .fail (.fault .parameterMissing)

end Invocation

end Templating
