import Templating.Render.Session

/-!
# Evaluation as a relation

Renders that begin within each other are bounded by the room that is left in a frame.  The rules of
evaluation below know of no such room: a render looks at the frame around it and at nothing else.
What the rules derive is what a run gives, and there is a derivation for every run, so that every
render comes to an end.
-/

namespace Templating

/-! ## Places and incidents -/

/-- A render around another one: its template, and the tag of it that began the next render. -/
structure Enclosing where
  label : String
  tree : List Node
  tag : Invocation

/-- Where evaluation takes place.  It looks at the frame alone; the rest records which template is
rendered and which renders are around it, outermost first. -/
structure Place where
  frame : Frame
  label : String
  tree : List Node
  enclosing : List Enclosing

inductive Incident
  | begins (place : Place)
  /-- The handler of a tag starts while the current render is at a line. -/
  | starts (place : Place) (line : Int) (tag : Invocation)

/-- The renders around one that a tag begins; none are around one that no tag begins. -/
def around : Option (Place × Invocation) → List Enclosing
  | none => []
  | some (place, tag) => place.enclosing ++ [⟨place.label, place.tree, tag⟩]

/-! ## Tasks -/

/-- What a task results in. -/
inductive Task.Kind
  | text
  | value
  | values
  | object

abbrev Task.Kind.Result : Task.Kind → Type
  | text => String
  | value => Value
  | values => List Value
  | object => Object

inductive Task : Task.Kind → Type
  /-- A render outside of any other. -/
  | root (target : Target) (context : Object) : Task .text
  | render (current : Option (Place × Invocation)) (target : Target) (context : Value) : Task .text
  | nodes (place : Place) (context : Value) (nodes : List Node) : Task .text
  | node (place : Place) (context : Value) (node : Node) : Task .value
  | all (place : Place) (context : Value) (nodes : List Node) : Task .values
  | plan (place : Place) (tag : Invocation) (plan : Plan Object) : Task .object

def Invocation.branch (i : Invocation) : Branch → Option (List Node)
  | .body => i.body
  | .orelse => i.orelse

namespace Renderer

/-- The bytes of what is to be rendered, and the label that they go by. -/
def locate (r : Renderer) : Target → Run (String × List UInt8)
  | .path path => r.load path
  | .source data label => pure (label, data)

def fetch (r : Renderer) (target : Target) : Run (String × List Node) := do
  let (label, data) ← r.locate target
  return (label, ← treeOf label data)

/-- The surroundings of a tree in a frame. -/
def hostIn (r : Renderer) (frame : Frame) : Host :=
  r.host (some frame) (r.renderWithin frame.remaining frame)

/-- A render within a frame, or outside of any. -/
def renderIn (r : Renderer) (current : Option Frame) (target : Target) (context : Value) :
    Run String := do
  let (label, tree) ← r.fetch target
  let s ← get
  let frame ← Run.ofExcept (Frame.enter (current.map fun f => (f, s.line)) label r.limit)
  r.renderTree frame context tree

end Renderer

def Task.run (r : Renderer) : {k : Task.Kind} → Task k → Run k.Result
  | _, .root target context => Session.renderRun r target context
  | _, .render current target context => r.renderIn (current.map fun c => c.1.frame) target context
  | _, .nodes place context tree => renderNodes (r.hostIn place.frame) context tree
  | _, .node place context single => evaluate (r.hostIn place.frame) context single
  | _, .all place context params => evaluateAll (r.hostIn place.frame) context params
  | _, .plan place tag steps =>
    steps.run (r.hostIn place.frame) fun which other =>
      renderBranch (r.hostIn place.frame) (other.getD tag.context) (tag.branch which)

/-! ## Rules -/

/-- A task begun in a state comes to a result and leaves a state; the incidents are in order. -/
inductive Evaluates (r : Renderer) :
    {k : Task.Kind} → Task k → State → Except Error k.Result → State → List Incident → Prop
  | root_fails {target : Target} {context : Object} {s after : State} {e : Error} :
      Renderer.contextOf context s = (.error e, after) →
      Evaluates r (.root target context) s (.error e) after []
  | root {target : Target} {context : Object} {s mid after : State} {v : Value}
      {result : Except Error String} {trace : List Incident} :
      Renderer.contextOf context s = (.ok v, mid) →
      Evaluates r (.render none target v) mid result after trace →
      Evaluates r (.root target context) s result after trace
  | render_fails {current : Option (Place × Invocation)} {target : Target} {context : Value}
      {s after : State} {e : Error} :
      r.fetch target s = (.error e, after) →
      Evaluates r (.render current target context) s (.error e) after []
  | render_refused {current : Option (Place × Invocation)} {target : Target} {context : Value}
      {s after : State} {label : String} {tree : List Node} {e : Error} :
      r.fetch target s = (.ok (label, tree), after) →
      Frame.enter (current.map fun c => (c.1.frame, after.line)) label r.limit = .error e →
      Evaluates r (.render current target context) s (.error e) after []
  | render {current : Option (Place × Invocation)} {target : Target} {context : Value}
      {s mid after : State} {label : String} {tree : List Node} {frame : Frame}
      {result : Except Error String} {trace : List Incident} :
      r.fetch target s = (.ok (label, tree), mid) →
      Frame.enter (current.map fun c => (c.1.frame, mid.line)) label r.limit = .ok frame →
      Evaluates r (.nodes ⟨frame, label, tree, around current⟩ context tree) { mid with line := 0 }
        result after trace →
      Evaluates r (.render current target context) s result { after with line := mid.line }
        (.begins ⟨frame, label, tree, around current⟩ :: trace)
  | nil {place : Place} {context : Value} {s : State} :
      Evaluates r (.nodes place context []) s (.ok "") s []
  | cons_fails {place : Place} {context : Value} {node : Node} {rest : List Node}
      {s after : State} {e : Error} {trace : List Incident} :
      Evaluates r (.node place context node) s (.error e) after trace →
      Evaluates r (.nodes place context (node :: rest)) s (.error e) after trace
  | cons_textless {place : Place} {context v : Value} {node : Node} {rest : List Node}
      {s after : State} {e : Error} {trace : List Incident} :
      Evaluates r (.node place context node) s (.ok v) after trace → v.text = .error e →
      Evaluates r (.nodes place context (node :: rest)) s (.error e) after trace
  | cons {place : Place} {context v : Value} {node : Node} {rest : List Node}
      {s mid after : State} {first : String} {others : Except Error String}
      {trace more : List Incident} :
      Evaluates r (.node place context node) s (.ok v) mid trace → v.text = .ok first →
      Evaluates r (.nodes place context rest) mid others after more →
      Evaluates r (.nodes place context (node :: rest)) s (others.map (first ++ ·)) after
        (trace ++ more)
  | raw {place : Place} {context : Value} {p : Position} {text : String} {s : State} :
      Evaluates r (.node place context (.raw p text)) s (.ok (.string text)) s []
  | constant {place : Place} {context v : Value} {p : Position} {s : State} :
      Evaluates r (.node place context (.constant p v)) s (.ok v) s []
  | identifier {place : Place} {context : Value} {p : Position} {path : List Step} {s : State} :
      Evaluates r (.node place context (.identifier p path)) s (context.fetch path) s []
  | bare {place : Place} {context : Value} {p : Position} {s : State} :
      Evaluates r (.node place context (.bare p)) s (.error (.fault .bareNode)) s []
  | tag_unknown {place : Place} {context : Value} {p : Position} {name : String}
      {params : List Node} {body orelse : Option (List Node)} {s : State} :
      r.registry.lookup name = none →
      Evaluates r (.node place context (.tag p name params body orelse)) s
        (.error ((r.hostIn place.frame).unknownTag name p.line)) s []
  | tag_fails {place : Place} {context : Value} {p : Position} {name : String}
      {params : List Node} {body orelse : Option (List Node)} {entry : TagEntry}
      {s after : State} {e : Error} {trace : List Incident} :
      r.registry.lookup name = some entry →
      Evaluates r (.all place context params) s (.error e) after trace →
      Evaluates r (.node place context (.tag p name params body orelse)) s
        (.error ((r.hostIn place.frame).report name p.line e)) after trace
  | tag {place : Place} {context : Value} {p : Position} {name : String}
      {params : List Node} {body orelse : Option (List Node)} {entry : TagEntry}
      {values : List Value} {s mid after : State} {result : Except Error Object}
      {trace more : List Incident} :
      r.registry.lookup name = some entry →
      Evaluates r (.all place context params) s (.ok values) mid trace →
      Evaluates r
        (.plan place ⟨name, values, body, orelse, context, p⟩
          (entry.handler ⟨name, values, body, orelse, context, p⟩))
        { mid with line := p.line } result after more →
      Evaluates r (.node place context (.tag p name params body orelse)) s
        ((result.bind Object.toValue).mapError ((r.hostIn place.frame).report name p.line)) after
        (trace ++ .starts place p.line ⟨name, values, body, orelse, context, p⟩ :: more)
  | all_nil {place : Place} {context : Value} {s : State} :
      Evaluates r (.all place context []) s (.ok []) s []
  | all_fails {place : Place} {context : Value} {node : Node} {rest : List Node}
      {s after : State} {e : Error} {trace : List Incident} :
      Evaluates r (.node place context node) s (.error e) after trace →
      Evaluates r (.all place context (node :: rest)) s (.error e) after trace
  | all_cons {place : Place} {context v : Value} {node : Node} {rest : List Node}
      {s mid after : State} {others : Except Error (List Value)} {trace more : List Incident} :
      Evaluates r (.node place context node) s (.ok v) mid trace →
      Evaluates r (.all place context rest) mid others after more →
      Evaluates r (.all place context (node :: rest)) s (others.map (v :: ·)) after
        (trace ++ more)
  | done {place : Place} {tag : Invocation} {object : Object} {s : State} :
      Evaluates r (.plan place tag (.done object)) s (.ok object) s []
  | fail {place : Place} {tag : Invocation} {e : Error} {s : State} :
      Evaluates r (.plan place tag (.fail e)) s (.error e) s []
  | note {place : Place} {tag : Invocation} {text : String} {next : Plan Object}
      {s after : State} {result : Except Error Object} {trace : List Incident} :
      Evaluates r (.plan place tag next) { s with journal := .note text :: s.journal } result after
        trace →
      Evaluates r (.plan place tag (.note text next)) s result after trace
  | ask {place : Place} {tag : Invocation} {next : Option (Frame × Int) → Plan Object}
      {s after : State} {result : Except Error Object} {trace : List Incident} :
      Evaluates r (.plan place tag (next (some (place.frame, s.line)))) s result after trace →
      Evaluates r (.plan place tag (.ask next)) s result after trace
  | branch_fails {place : Place} {tag : Invocation} {which : Branch} {context : Option Value}
      {next : String → Plan Object} {s after : State} {e : Error} {trace : List Incident} :
      Evaluates r (.nodes place (context.getD tag.context) ((tag.branch which).getD [])) s
        (.error e) after trace →
      Evaluates r (.plan place tag (.branch which context next)) s (.error e) after trace
  | branch {place : Place} {tag : Invocation} {which : Branch} {context : Option Value}
      {next : String → Plan Object} {s mid after : State} {text : String}
      {result : Except Error Object} {trace more : List Incident} :
      Evaluates r (.nodes place (context.getD tag.context) ((tag.branch which).getD [])) s
        (.ok text) mid trace →
      Evaluates r (.plan place tag (next text)) mid result after more →
      Evaluates r (.plan place tag (.branch which context next)) s result after (trace ++ more)
  | path_fails {place : Place} {tag : Invocation} {path : String} {context : Value}
      {next : String → Plan Object} {s after : State} {e : Error} {trace : List Incident} :
      Evaluates r (.render (some (place, tag)) (.path path) context) s (.error e) after trace →
      Evaluates r (.plan place tag (.path path context next)) s (.error e) after trace
  | path {place : Place} {tag : Invocation} {path : String} {context : Value}
      {next : String → Plan Object} {s mid after : State} {text : String}
      {result : Except Error Object} {trace more : List Incident} :
      Evaluates r (.render (some (place, tag)) (.path path) context) s (.ok text) mid trace →
      Evaluates r (.plan place tag (next text)) mid result after more →
      Evaluates r (.plan place tag (.path path context next)) s result after (trace ++ more)
  | source_fails {place : Place} {tag : Invocation} {data : List UInt8} {context : Value}
      {label : String} {next : String → Plan Object} {s after : State} {e : Error}
      {trace : List Incident} :
      Evaluates r (.render (some (place, tag)) (.source data label) context) s (.error e) after
        trace →
      Evaluates r (.plan place tag (.source data context label next)) s (.error e) after trace
  | source {place : Place} {tag : Invocation} {data : List UInt8} {context : Value}
      {label : String} {next : String → Plan Object} {s mid after : State} {text : String}
      {result : Except Error Object} {trace more : List Incident} :
      Evaluates r (.render (some (place, tag)) (.source data label) context) s (.ok text) mid
        trace →
      Evaluates r (.plan place tag (next text)) mid result after more →
      Evaluates r (.plan place tag (.source data context label next)) s result after
        (trace ++ more)

namespace Evaluates

variable {r : Renderer}

theorem unique {k : Task.Kind} {task : Task k} {s : State} {result result' : Except Error k.Result}
    {after after' : State} {trace trace' : List Incident}
    (h : Evaluates r task s result after trace) (h' : Evaluates r task s result' after' trace') :
    result' = result ∧ after' = after ∧ trace' = trace := by
  induction h generalizing after' trace' with
  | nil | raw | constant | identifier | bare | all_nil | done | fail =>
      cases h'
      exact ⟨rfl, rfl, rfl⟩
  | root_fails failed =>
      cases h' with
      | root_fails failed' =>
          cases failed.symm.trans failed'
          exact ⟨rfl, rfl, rfl⟩
      | root ready' => cases failed.symm.trans ready'
  | root ready _ ih =>
      cases h' with
      | root_fails failed' => cases ready.symm.trans failed'
      | root ready' render' =>
          cases ready.symm.trans ready'
          exact ih render'
  | render_fails failed =>
      cases h' with
      | render_fails failed' =>
          cases failed.symm.trans failed'
          exact ⟨rfl, rfl, rfl⟩
      | render_refused fetched' => cases failed.symm.trans fetched'
      | render fetched' => cases failed.symm.trans fetched'
  | render_refused fetched refused =>
      cases h' with
      | render_fails failed' => cases fetched.symm.trans failed'
      | render_refused fetched' refused' =>
          cases fetched.symm.trans fetched'
          cases refused.symm.trans refused'
          exact ⟨rfl, rfl, rfl⟩
      | render fetched' entered' =>
          cases fetched.symm.trans fetched'
          cases refused.symm.trans entered'
  | render fetched entered _ ih =>
      cases h' with
      | render_fails failed' => cases fetched.symm.trans failed'
      | render_refused fetched' refused' =>
          cases fetched.symm.trans fetched'
          cases entered.symm.trans refused'
      | render fetched' entered' nodes' =>
          cases fetched.symm.trans fetched'
          cases entered.symm.trans entered'
          obtain ⟨rfl, rfl, rfl⟩ := ih nodes'
          exact ⟨rfl, rfl, rfl⟩
  | cons_fails _ ih =>
      cases h' with
      | cons_fails first' =>
          obtain ⟨⟨⟩, rfl, rfl⟩ := ih first'
          exact ⟨rfl, rfl, rfl⟩
      | cons_textless first' => cases (ih first').1
      | cons first' => cases (ih first').1
  | cons_textless _ textless ih =>
      cases h' with
      | cons_fails first' => cases (ih first').1
      | cons_textless first' textless' =>
          obtain ⟨⟨⟩, rfl, rfl⟩ := ih first'
          cases textless.symm.trans textless'
          exact ⟨rfl, rfl, rfl⟩
      | cons first' text' =>
          obtain ⟨⟨⟩, -, -⟩ := ih first'
          cases textless.symm.trans text'
  | cons _ text _ ih ih' =>
      cases h' with
      | cons_fails first' => cases (ih first').1
      | cons_textless first' textless' =>
          obtain ⟨⟨⟩, -, -⟩ := ih first'
          cases text.symm.trans textless'
      | cons first' text' rest' =>
          obtain ⟨⟨⟩, rfl, rfl⟩ := ih first'
          cases text.symm.trans text'
          obtain ⟨rfl, rfl, rfl⟩ := ih' rest'
          exact ⟨rfl, rfl, rfl⟩
  | tag_unknown unknown =>
      cases h' with
      | tag_unknown => exact ⟨rfl, rfl, rfl⟩
      | tag_fails known' => cases unknown.symm.trans known'
      | tag known' => cases unknown.symm.trans known'
  | tag_fails known _ ih =>
      cases h' with
      | tag_unknown unknown' => cases known.symm.trans unknown'
      | tag_fails _ params' =>
          obtain ⟨⟨⟩, rfl, rfl⟩ := ih params'
          exact ⟨rfl, rfl, rfl⟩
      | tag _ params' => cases (ih params').1
  | tag known _ _ ih ih' =>
      cases h' with
      | tag_unknown unknown' => cases known.symm.trans unknown'
      | tag_fails _ params' => cases (ih params').1
      | tag known' params' plan' =>
          cases known.symm.trans known'
          obtain ⟨⟨⟩, rfl, rfl⟩ := ih params'
          obtain ⟨rfl, rfl, rfl⟩ := ih' plan'
          exact ⟨rfl, rfl, rfl⟩
  | all_fails _ ih =>
      cases h' with
      | all_fails first' =>
          obtain ⟨⟨⟩, rfl, rfl⟩ := ih first'
          exact ⟨rfl, rfl, rfl⟩
      | all_cons first' => cases (ih first').1
  | all_cons _ _ ih ih' =>
      cases h' with
      | all_fails first' => cases (ih first').1
      | all_cons first' rest' =>
          obtain ⟨⟨⟩, rfl, rfl⟩ := ih first'
          obtain ⟨rfl, rfl, rfl⟩ := ih' rest'
          exact ⟨rfl, rfl, rfl⟩
  | note _ ih =>
      cases h' with
      | note next' => exact ih next'
  | ask _ ih =>
      cases h' with
      | ask next' => exact ih next'
  | branch_fails _ ih =>
      cases h' with
      | branch_fails nodes' =>
          obtain ⟨⟨⟩, rfl, rfl⟩ := ih nodes'
          exact ⟨rfl, rfl, rfl⟩
      | branch nodes' => cases (ih nodes').1
  | branch _ _ ih ih' =>
      cases h' with
      | branch_fails nodes' => cases (ih nodes').1
      | branch nodes' next' =>
          obtain ⟨⟨⟩, rfl, rfl⟩ := ih nodes'
          obtain ⟨rfl, rfl, rfl⟩ := ih' next'
          exact ⟨rfl, rfl, rfl⟩
  | path_fails _ ih =>
      cases h' with
      | path_fails render' =>
          obtain ⟨⟨⟩, rfl, rfl⟩ := ih render'
          exact ⟨rfl, rfl, rfl⟩
      | path render' => cases (ih render').1
  | path _ _ ih ih' =>
      cases h' with
      | path_fails render' => cases (ih render').1
      | path render' next' =>
          obtain ⟨⟨⟩, rfl, rfl⟩ := ih render'
          obtain ⟨rfl, rfl, rfl⟩ := ih' next'
          exact ⟨rfl, rfl, rfl⟩
  | source_fails _ ih =>
      cases h' with
      | source_fails render' =>
          obtain ⟨⟨⟩, rfl, rfl⟩ := ih render'
          exact ⟨rfl, rfl, rfl⟩
      | source render' => cases (ih render').1
  | source _ _ ih ih' =>
      cases h' with
      | source_fails render' => cases (ih render').1
      | source render' next' =>
          obtain ⟨⟨⟩, rfl, rfl⟩ := ih render'
          obtain ⟨rfl, rfl, rfl⟩ := ih' next'
          exact ⟨rfl, rfl, rfl⟩

end Evaluates

end Templating
