import Templating.Cache
import Templating.Tag.Registry

/-!
# Evaluation of trees

Nodes are evaluated in document order against a context. The parameters of a tag come first, from
left to right, then its handler runs. A failure is reported by the innermost tag under evaluation,
and by no other; an unknown tag is reported before its parameters are looked at.
-/

namespace Templating

/-- Something that a render leaves behind for its observers. -/
inductive Event
  | note (text : String)
  | parsed (label : String) (data : List UInt8)
  | loaded (path : String)
  | encoded
deriving DecidableEq, Repr

structure State where
  /-- The line of the tag under evaluation in the current render. -/
  line : Int
  cache : Option (Cache String (List Node))
  /-- The events, latest first. -/
  journal : List Event

abbrev Run (α : Type) := ExceptT Error (StateM State) α

namespace Run

def ofExcept {α : Type} : Except Error α → Run α
  | .ok a => pure a
  | .error e => throw e

def observe (event : Event) : Run Unit := modify fun s => { s with journal := event :: s.journal }

def setLine (line : Int) : Run Unit := modify fun s => { s with line := line }

/-- Runs with a line of its own; the line before comes back afterwards, even after a failure. -/
def withOwnLine {α : Type} (action : Run α) : Run α := fun s =>
  let (result, after) := action { s with line := 0 }
  (result, { after with line := s.line })

def mapErrors {α : Type} (f : Error → Error) (action : Run α) : Run α := fun s =>
  let (result, after) := action s
  (result.mapError f, after)

end Run

structure Host where
  registry : Registry
  /-- The frame of the current render, none outside of any. -/
  frame : Option Frame
  renderPath : String → Value → Run String
  renderSource : List UInt8 → Value → String → Run String

namespace Host

def label (host : Host) : Option String := host.frame.bind Frame.label

def chain (host : Host) : List (String × Int) := (host.frame.map Frame.chain).getD []

def site (host : Host) (line : Int) : Site :=
  { template := host.label, line := some line, chain := host.chain }

/-- An error as the tag reports it, unless a tag has already done so. -/
def report (host : Host) (name : String) (line : Int) (e : Error) : Error :=
  if e.namesTag then e else .tagFailed name e (host.site line)

def unknownTag (host : Host) (name : String) (line : Int) : Error :=
  .unknownTag name host.registry.names { template := host.label, line := some line }

/-- A tag that runs its handler notes its line in the current render. -/
def enterTag (host : Host) (line : Int) : Run Unit :=
  if host.frame.isSome then Run.setLine line else pure ()

end Host

/-- Carries out a plan; `branch` renders a branch of the tag's block. -/
def Plan.run {α : Type} (host : Host) (branch : Branch → Option Value → Run String) :
    Plan α → Run α
  | .done result => pure result
  | .fail error => throw error
  | .note text next => do
    Run.observe (.note text)
    next.run host branch
  | .ask next => do
    let line := (← get).line
    (next (host.frame.map fun f => (f, line))).run host branch
  | .branch which context next => do (next (← branch which context)).run host branch
  | .path target context next => do (next (← host.renderPath target context)).run host branch
  | .source data context label next => do
    (next (← host.renderSource data context label)).run host branch

mutual

def renderNodes (host : Host) (context : Value) : List Node → Run String
  | [] => pure ""
  | node :: rest => do
    let v ← evaluate host context node
    let first ← Run.ofExcept v.text
    let others ← renderNodes host context rest
    return first ++ others

def evaluate (host : Host) (context : Value) : Node → Run Value
  | .raw _ text => pure (.string text)
  | .constant _ v => pure v
  | .identifier _ path => Run.ofExcept (context.fetch path)
  | .bare _ => throw (.fault .bareNode)
  | .tag p name params body orelse =>
    match host.registry.lookup name with
    | none => throw (host.unknownTag name p.line)
    | some entry =>
      Run.mapErrors (host.report name p.line) do
        let values ← evaluateAll host context params
        host.enterTag p.line
        let branch (which : Branch) (other : Option Value) : Run String :=
          match which with
          | .body => renderBranch host (other.getD context) body
          | .orelse => renderBranch host (other.getD context) orelse
        let object ← (entry.handler ⟨name, values, body, orelse, context, p⟩).run host branch
        Run.ofExcept object.toValue

def evaluateAll (host : Host) (context : Value) : List Node → Run (List Value)
  | [] => pure []
  | node :: rest => do
    let first ← evaluate host context node
    let others ← evaluateAll host context rest
    return first :: others

def renderBranch (host : Host) (context : Value) : Option (List Node) → Run String
  | none => pure ""
  | some nodes => renderNodes host context nodes

end

end Templating
