import Templating.Render.Renderer
import Templating.Tag.Builtin

/-!
# Sessions

A session is one renderer at work: requests are answered one after the other, and what one leaves in
the cache the next one finds there.
-/

namespace Templating

inductive Target
  | path (path : String)
  | source (data : List UInt8) (label : String)
deriving DecidableEq, Repr

structure Session where
  renderer : Renderer
  state : State

inductive Request
  | render (target : Target) (context : Object)
  | gather (jobs : List (Target × Object))
  | resolve (path : String)
  | isCached (data : List UInt8)
  | clear
  | useLoader (loader : Loader)
  | setEnding (ending : String)
  | setDirectory (directory : String)
  | setLimit (limit : Int)

inductive Reply
  | rendered (result : Except Error String)
  | gathered (results : List (Except Error String))
  | resolved (path : String)
  | cached (is : Bool)
  | done

/-- Which events are of interest besides notes. -/
structure Tracing where
  parses : Bool
  loads : Bool
  encodings : Bool
deriving DecidableEq, Repr

/-- The line of a log for an event, if it is of interest. -/
def Tracing.show? (tracing : Tracing) : Event → Option String
  | .note text => some text
  | .parsed label _ => if tracing.parses then some ("parse:" ++ label) else none
  | .loaded path => if tracing.loads then some ("load:" ++ path) else none
  | .encoded => if tracing.encodings then some "encode" else none

namespace Session

def start (renderer : Renderer) (cache : Option (Cache String (List Node))) : Session :=
  ⟨renderer, ⟨0, cache, []⟩⟩

def renderRun (r : Renderer) (target : Target) (context : Object) : Run String := do
  let v ← Renderer.contextOf context
  match target with
  | .path path => r.renderPath path v
  | .source data label => r.renderSource data v label

def render (s : Session) (target : Target) (context : Object) : Except Error String × Session :=
  let (result, state) := renderRun s.renderer target context s.state
  (result, { s with state := state })

def gather (s : Session) : List (Target × Object) → List (Except Error String) × Session
  | [] => ([], s)
  | job :: rest =>
    let (first, after) := s.render job.1 job.2
    let (others, last) := after.gather rest
    (first :: others, last)

def isCached (s : Session) (data : List UInt8) : Bool :=
  s.state.cache.any fun cache => cache.contains (Digest.text data)

def clear (s : Session) : Session :=
  { s with state := { s.state with cache := s.state.cache.map Cache.clear } }

def perform (s : Session) : Request → Reply × Session
  | .render target context =>
    let (result, after) := s.render target context
    (.rendered result, after)
  | .gather jobs =>
    let (results, after) := s.gather jobs
    (.gathered results, after)
  | .resolve path => (.resolved (s.renderer.resolve path), s)
  | .isCached data => (.cached (s.isCached data), s)
  | .clear => (.done, s.clear)
  | .useLoader loader => (.done, { s with renderer := { s.renderer with loader := loader } })
  | .setEnding ending => (.done, { s with renderer := { s.renderer with ending := ending } })
  | .setDirectory directory =>
    (.done, { s with renderer := { s.renderer with directory := directory } })
  | .setLimit limit => (.done, { s with renderer := { s.renderer with limit := limit } })

/-- The log since the journal was last taken, and the session with an empty journal. -/
def takeLog (s : Session) (tracing : Tracing) : List String × Session :=
  (s.state.journal.reverse.filterMap tracing.show?,
    { s with state := { s.state with journal := [] } })

end Session

end Templating
