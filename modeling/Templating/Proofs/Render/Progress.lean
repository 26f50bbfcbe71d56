import Mathlib.Logic.Relation
import Templating.Proofs.Render.Arising

/-!
# What work comes to

Work consists of other work: a render of the nodes of its template, a tag of its parameters and of
the plan of its handler, and so on.  From one piece of work to the next only evaluation goes on, so
that a property of what is cached and what was read, which evaluation keeps, holds of the state in
which any work within a render begins.
-/

namespace Templating

/-! ## Work within work -/

/-- Work that is begun in a state comes straight to other work, which begins in a state of its own.
What stands before the other work has come to its result by then. -/
inductive Proceeds (r : Renderer) : Work × State → Work × State → Prop
  | root {target : Target} {context : Object} {v : Value} {s mid : State} :
      Renderer.contextOf context s = (.ok v, mid) →
      Proceeds r (.root target context, s) (.render none target v, mid)
  | render {current : Option (Place × Invocation)} {target : Target} {context : Value}
      {s mid : State} {label : String} {tree : List Node} {frame : Frame} :
      r.fetch target s = (.ok (label, tree), mid) →
      Frame.enter (current.map fun c => (c.1.frame, mid.line)) label r.limit = .ok frame →
      Proceeds r (.render current target context, s)
        (.nodes (some ⟨frame, label, tree, around current⟩) context tree, { mid with line := 0 })
  | first {place : Option Place} {context : Value} {node : Node} {rest : List Node} {s : State} :
      Proceeds r (.nodes place context (node :: rest), s) (.node place context node, s)
  | later {place : Option Place} {context v : Value} {node : Node} {rest : List Node}
      {text : String} {s mid : State} :
      evaluate (r.hostAt place) context node s = (.ok v, mid) → v.text = .ok text →
      Proceeds r (.nodes place context (node :: rest), s) (.nodes place context rest, mid)
  | params {o : Occurrence} {context : Value} {entry : TagEntry} {s : State} :
      r.registry.lookup o.name = some entry →
      Proceeds r (.node o.place context o.node, s) (.all o.place context o.params, s)
  | handler {o : Occurrence} {context : Value} {entry : TagEntry} {values : List Value}
      {s mid : State} :
      r.registry.lookup o.name = some entry →
      evaluateAll (r.hostAt o.place) context o.params s = (.ok values, mid) →
      Proceeds r (.node o.place context o.node, s)
        (.plan o.place (o.call values context) (entry.handler (o.call values context)),
          mid.atTag o.place o.position.line)
  | all_first {place : Option Place} {context : Value} {node : Node} {rest : List Node}
      {s : State} :
      Proceeds r (.all place context (node :: rest), s) (.node place context node, s)
  | all_later {place : Option Place} {context v : Value} {node : Node} {rest : List Node}
      {s mid : State} :
      evaluate (r.hostAt place) context node s = (.ok v, mid) →
      Proceeds r (.all place context (node :: rest), s) (.all place context rest, mid)
  | note {place : Option Place} {tag : Invocation} {text : String} {next : Plan Object}
      {s : State} :
      Proceeds r (.plan place tag (.note text next), s)
        (.plan place tag next, { s with journal := .note text :: s.journal })
  | ask {place : Option Place} {tag : Invocation} {next : Option (Frame × Int) → Plan Object}
      {s : State} :
      Proceeds r (.plan place tag (.ask next), s)
        (.plan place tag (next (place.map fun p => (p.frame, s.line))), s)
  | branch {place : Option Place} {tag : Invocation} {which : Branch} {context : Option Value}
      {next : String → Plan Object} {s : State} :
      Proceeds r (.plan place tag (.branch which context next), s)
        (.nodes place (context.getD tag.context) ((tag.branch which).getD []), s)
  | branch_later {place : Option Place} {tag : Invocation} {which : Branch}
      {context : Option Value} {next : String → Plan Object} {text : String} {s mid : State} :
      r.branchAt place tag which context s = (.ok text, mid) →
      Proceeds r (.plan place tag (.branch which context next), s)
        (.plan place tag (next text), mid)
  | path {place : Option Place} {tag : Invocation} {path : String} {context : Value}
      {next : String → Plan Object} {s : State} :
      Proceeds r (.plan place tag (.path path context next), s)
        (.render (place.map fun p => (p, tag)) (.path path) context, s)
  | path_later {place : Option Place} {tag : Invocation} {path text : String} {context : Value}
      {next : String → Plan Object} {s mid : State} :
      r.renderIn (place.map Place.frame) (.path path) context s = (.ok text, mid) →
      Proceeds r (.plan place tag (.path path context next), s) (.plan place tag (next text), mid)
  | source {place : Option Place} {tag : Invocation} {data : List UInt8} {context : Value}
      {label : String} {next : String → Plan Object} {s : State} :
      Proceeds r (.plan place tag (.source data context label next), s)
        (.render (place.map fun p => (p, tag)) (.source data label) context, s)
  | source_later {place : Option Place} {tag : Invocation} {data : List UInt8} {context : Value}
      {label text : String} {next : String → Plan Object} {s mid : State} :
      r.renderIn (place.map Place.frame) (.source data label) context s = (.ok text, mid) →
      Proceeds r (.plan place tag (.source data context label next), s)
        (.plan place tag (next text), mid)

/-- Work comes to other work, straight or by way of other work still. -/
abbrev Renderer.Comes (r : Renderer) : Work × State → Work × State → Prop :=
  Relation.ReflTransGen (Proceeds r)

/-! ## What evaluation keeps -/

/-- The templates that were read, the latest first. -/
def State.reads (s : State) : List (List UInt8) := s.journal.filterMap Event.template?

/-- A property of what is cached and of what was read. -/
abbrev Stock := Option (Cache String (List Node)) → List (List UInt8) → Prop

def State.Has (s : State) (P : Stock) : Prop := P s.cache s.reads

namespace Run

/-- A property that a state has is kept by the run. -/
def Keeps (P : Stock) {α : Type} (action : Run α) : Prop := ∀ s, s.Has P → (action s).2.Has P

theorem Keeps.compositional (P : Stock) : Compositional fun _ action => action.Keeps P where
  pure _ _ has := has
  throw _ _ has := has
  bind {_ _ action next} first second s has := by
    have begun := first s has
    rcases action.ok_or_error s with ⟨a, mid, ran⟩ | ⟨e, mid, ran⟩
    · rw [ran] at begun
      rw [bind_of_ok ran]
      exact second a mid begun
    · rw [ran] at begun
      rw [bind_of_error ran]
      exact begun
  observe event silent s has := by
    have same : ({ s with journal := event :: s.journal } : State).reads = s.reads := by
      rw [State.reads, List.filterMap_cons, silent]
      rfl
    rw [observe_apply, State.Has, same]
    exact has
  setLine _ _ has := has
  ask next s has := next s.line s has
  mapErrors _ kept s has := kept s has
  withOwnLine kept s has := kept { s with line := 0 } has

theorem Keeps.of_apply_eq {P : Stock} {α : Type} {action : Run α} (h : action.Keeps P)
    {s after : State} {result : Except Error α} (ran : action s = (result, after))
    (has : s.Has P) : after.Has P := by
  have kept := h s has
  rwa [ran] at kept

end Run

section Kept

variable {P : Stock} (trees : ∀ label data, (Renderer.treeOf label data).Keeps P) (r : Renderer)

include trees

theorem Renderer.hostAt_keeps (place : Option Place) :
    (r.hostAt place).Renders fun _ action => action.Keeps P :=
  hostAt_renders (Run.Keeps.compositional P) trees r place

theorem Proceeds.keeps {a b : Work × State} (h : Proceeds r a b) (has : a.2.Has P) :
    b.2.Has P := by
  have kept := Run.Keeps.compositional P
  have hosted := r.hostAt_keeps trees
  cases h with
  | root ready => exact (Renderer.contextOf_compositional kept _).of_apply_eq ready has
  | render fetched =>
      have ready := (r.fetch_compositional kept trees _).of_apply_eq fetched has
      exact ready
  | later evaluated | all_later evaluated =>
      exact (evaluate_compositional kept (hosted _) _ _).of_apply_eq evaluated has
  | @handler o _ _ _ _ mid known evaluated =>
      have ready := (evaluateAll_compositional kept (hosted _) _ _).of_apply_eq evaluated has
      unfold State.atTag
      split <;> exact ready
  | branch_later rendered =>
      exact (renderBranch_compositional kept (hosted _) _ _).of_apply_eq rendered has
  | path_later rendered | source_later rendered =>
      exact (r.renderIn_compositional kept trees _ _ _).of_apply_eq rendered has
  | first | params | all_first | note | ask | branch | path | source => exact has

/-- What evaluation keeps holds wherever work comes to. -/
theorem Renderer.Comes.keeps {a b : Work × State} (h : r.Comes a b) (has : a.2.Has P) :
    b.2.Has P := by
  induction h with
  | refl => exact has
  | tail _ step ih => exact step.keeps trees r ih

end Kept

end Templating
