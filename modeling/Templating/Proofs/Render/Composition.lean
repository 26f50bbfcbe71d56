import Templating.Render.Session

/-!
# Properties of runs that evaluation keeps

A render is put together from few kinds of steps: results, errors, events, looks at the current
line, and one run after another.  A property of runs that holds of these steps and of looking up
trees holds of every render, whatever the templates, the context and the handlers.
-/

namespace Templating

/-- The bytes that an event says were read into a tree. -/
def Event.template? : Event → Option (List UInt8)
  | .parsed _ data => some data
  | _ => none

namespace Run

/-! ## Runs applied to a state -/

@[simp] theorem pure_apply {α : Type} (a : α) (s : State) : (pure a : Run α) s = (.ok a, s) := rfl

@[simp] theorem throw_apply {α : Type} (e : Error) (s : State) :
    (throw e : Run α) s = (.error e, s) := rfl

theorem ok_or_error {α : Type} (action : Run α) (s : State) :
    (∃ a after, action s = (.ok a, after)) ∨ (∃ e after, action s = (.error e, after)) := by
  rcases h : action s with ⟨e | a, after⟩
  · exact .inr ⟨e, after, rfl⟩
  · exact .inl ⟨a, after, rfl⟩

theorem bind_of_ok {α β : Type} {action : Run α} {s after : State} {a : α}
    (h : action s = (.ok a, after)) (next : α → Run β) : (action >>= next) s = next a after := by
  change (ExceptT.bind action next) s = _
  simp only [ExceptT.bind, ExceptT.mk, Bind.bind, StateT.bind]
  rw [h]
  rfl

theorem bind_of_error {α β : Type} {action : Run α} {s after : State} {e : Error}
    (h : action s = (.error e, after)) (next : α → Run β) :
    (action >>= next) s = (.error e, after) := by
  change (ExceptT.bind action next) s = _
  simp only [ExceptT.bind, ExceptT.mk, Bind.bind, StateT.bind]
  rw [h]
  rfl

@[simp] theorem observe_apply (event : Event) (s : State) :
    observe event s = (.ok (), { s with journal := event :: s.journal }) := rfl

@[simp] theorem get_apply (s : State) : (get : Run State) s = (.ok s, s) := rfl

@[simp] theorem modify_apply (f : State → State) (s : State) :
    (modify f : Run Unit) s = (.ok (), f s) := rfl

@[simp] theorem ofExcept_apply {α : Type} (result : Except Error α) (s : State) :
    ofExcept result s = (result, s) := by
  cases result <;> rfl

/-! ## Properties that hold of the steps -/

/-- A property of runs that holds of every step but the reading of templates, and of steps put
together. -/
structure Compositional (K : (α : Type) → Run α → Prop) : Prop where
  pure : ∀ {α : Type} (a : α), K α (pure a)
  throw : ∀ {α : Type} (e : Error), K α (throw e)
  bind : ∀ {α β : Type} {action : Run α} {next : α → Run β},
    K α action → (∀ a, K β (next a)) → K β (action >>= next)
  observe : ∀ event : Event, event.template? = none → K Unit (observe event)
  setLine : ∀ line, K Unit (setLine line)
  ask : ∀ {α : Type} {next : Int → Run α}, (∀ line, K α (next line)) →
    K α (do next (← get).line)
  mapErrors : ∀ {α : Type} {action : Run α} (f : Error → Error),
    K α action → K α (mapErrors f action)
  withOwnLine : ∀ {α : Type} {action : Run α}, K α action → K α (withOwnLine action)

namespace Compositional

variable {K : (α : Type) → Run α → Prop}

theorem ofExcept (h : Compositional K) {α : Type} (result : Except Error α) :
    K α (Run.ofExcept result) := by
  cases result with
  | ok a => exact h.pure a
  | error e => exact h.throw e

end Compositional

end Run

/-! ## Plans -/

/-- The renders that a host starts have the property. -/
structure Host.Renders (K : (α : Type) → Run α → Prop) (host : Host) : Prop where
  path : ∀ path v, K String (host.renderPath path v)
  source : ∀ data v label, K String (host.renderSource data v label)

variable {K : (α : Type) → Run α → Prop} {host : Host}

theorem Plan.run_compositional (h : Run.Compositional K) (renders : host.Renders K)
    {branch : Branch → Option Value → Run String}
    (branches : ∀ which v, K String (branch which v)) {α : Type} (plan : Plan α) :
    K α (plan.run host branch) := by
  induction plan with
  | done result => exact h.pure result
  | fail error => exact h.throw error
  | note text next ih => exact h.bind (h.observe (.note text) rfl) fun _ => ih
  | ask next ih =>
      have answered : ∀ line,
          K _ ((next (host.frame.map fun f => (f, line))).run host branch) := fun line => ih _
      exact h.ask answered
  | branch which context next ih => exact h.bind (branches which context) ih
  | path target context next ih => exact h.bind (renders.path target context) ih
  | source data context label next ih => exact h.bind (renders.source data context label) ih

theorem Host.enterTag_compositional (h : Run.Compositional K) (line : Int) :
    K Unit (host.enterTag line) := by
  unfold Host.enterTag
  split
  · exact h.setLine line
  · exact h.pure ()

/-! ## Trees -/

mutual

theorem renderNodes_compositional (h : Run.Compositional K) (renders : host.Renders K)
    (context : Value) :
    (nodes : List Node) → K String (renderNodes host context nodes)
  | [] => h.pure ""
  | node :: rest => by
      rw [renderNodes]
      refine h.bind (evaluate_compositional h renders context node) fun v => ?_
      refine h.bind (h.ofExcept v.text) fun first => ?_
      exact h.bind (renderNodes_compositional h renders context rest) fun others => h.pure _

theorem evaluate_compositional (h : Run.Compositional K) (renders : host.Renders K)
    (context : Value) :
    (node : Node) → K Value (evaluate host context node)
  | .raw _ text => by
      rw [evaluate]
      exact h.pure _
  | .constant _ v => by
      rw [evaluate]
      exact h.pure v
  | .identifier _ path => by
      rw [evaluate]
      exact h.ofExcept _
  | .bare _ => by
      rw [evaluate]
      exact h.throw _
  | .tag p name params body orelse => by
      rw [evaluate]
      cases host.registry.lookup name with
      | none => exact h.throw _
      | some entry =>
          refine h.mapErrors _ ?_
          refine h.bind (evaluateAll_compositional h renders context params) fun values => ?_
          refine h.bind (Host.enterTag_compositional h p.line) fun _ => ?_
          refine h.bind (Plan.run_compositional h renders ?_ _) fun object =>
            h.ofExcept _
          intro which other
          cases which with
          | body => exact renderBranch_compositional h renders _ body
          | orelse => exact renderBranch_compositional h renders _ orelse

theorem evaluateAll_compositional (h : Run.Compositional K) (renders : host.Renders K)
    (context : Value) :
    (nodes : List Node) → K (List Value) (evaluateAll host context nodes)
  | [] => h.pure []
  | node :: rest => by
      rw [evaluateAll]
      refine h.bind (evaluate_compositional h renders context node) fun first => ?_
      exact h.bind (evaluateAll_compositional h renders context rest) fun others => h.pure _

theorem renderBranch_compositional (h : Run.Compositional K) (renders : host.Renders K)
    (context : Value) :
    (branch : Option (List Node)) → K String (renderBranch host context branch)
  | none => h.pure ""
  | some nodes => by
      rw [renderBranch]
      exact renderNodes_compositional h renders context nodes

end

/-! ## Renders -/

namespace Renderer

theorem load_compositional (h : Run.Compositional K) (r : Renderer) (path : String) :
    K (String × List UInt8) (r.load path) := by
  unfold load
  refine h.bind (h.observe (.loaded _) rfl) fun _ => ?_
  refine h.bind (h.ofExcept _) fun found => ?_
  cases found with
  | none => exact h.throw _
  | some data => exact h.pure _

variable (h : Run.Compositional K) (trees : ∀ label data, K (List Node) (treeOf label data))
  (r : Renderer)

include h in
theorem host_renders (frame : Option Frame) {render : List UInt8 → Value → String → Run String}
    (renders : ∀ data v label, K String (render data v label)) :
    (r.host frame render).Renders K where
  source := renders
  path path v := h.bind (r.load_compositional h path) fun found => renders found.2 v found.1

include h in
theorem renderTreeIn_compositional (frame : Frame)
    {render : List UInt8 → Value → String → Run String}
    (renders : ∀ data v label, K String (render data v label)) (context : Value)
    (tree : List Node) : K String (r.renderTreeIn frame render context tree) :=
  h.withOwnLine (renderNodes_compositional h (r.host_renders h (some frame) renders) context tree)

include h trees

theorem renderWithin_compositional (room : Nat) (frame : Frame) (data : List UInt8)
    (context : Value) (label : String) :
    K String (r.renderWithin room frame data context label) := by
  induction room generalizing frame data context label with
  | zero =>
      have refused : ∀ line, K String (throw (frame.refusal line label)) := fun line => h.throw _
      exact h.bind (trees label data) fun _ => h.ask refused
  | succ room ih =>
      refine h.bind (trees label data) fun tree => ?_
      have nested : ∀ line, K String (r.renderTreeIn (frame.child line label)
          (r.renderWithin room (frame.child line label)) context tree) := fun line =>
        r.renderTreeIn_compositional h _ (fun data v label => ih _ data v label) context tree
      exact h.ask nested

theorem renderSource_compositional (data : List UInt8) (context : Value) (label : String) :
    K String (r.renderSource data context label) := by
  refine h.bind (trees label data) fun tree => ?_
  exact r.renderTreeIn_compositional h _
    (fun data v label => r.renderWithin_compositional h trees _ _ data v label) context tree

theorem renderPath_compositional (path : String) (context : Value) :
    K String (r.renderPath path context) :=
  h.bind (r.load_compositional h path) fun found =>
    r.renderSource_compositional h trees found.2 context found.1

omit trees in
theorem contextOf_compositional (context : Object) : K Value (contextOf context) := by
  unfold contextOf
  split
  · exact h.pure _
  · exact h.pure _
  · exact h.bind (h.observe .encoded rfl) fun _ => h.ofExcept _

end Renderer

theorem Session.renderRun_compositional (h : Run.Compositional K)
    (trees : ∀ label data, K (List Node) (Renderer.treeOf label data)) (r : Renderer)
    (target : Target) (context : Object) : K String (Session.renderRun r target context) := by
  refine h.bind (Renderer.contextOf_compositional h context) fun v => ?_
  cases target with
  | path path => exact r.renderPath_compositional h trees path v
  | source data label => exact r.renderSource_compositional h trees data v label

end Templating
