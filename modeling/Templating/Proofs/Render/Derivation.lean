import Templating.Proofs.Render.Composition
import Templating.Proofs.Render.Evaluation

/-!
# Every run is an evaluation

Whatever a run gives, the rules of evaluation derive it, and since they derive nothing else for the
same task, they describe the run in full.  A derivation is finite: it follows the trees and the
plans of the handlers, and from a render to those it begins the room that is left goes down.
-/

namespace Templating

/-! ## Renders without a bound -/

namespace Frame

theorem enter_of_isFull {f : Frame} (full : f.isFull = true) (line : Int) (label : String)
    (limit : Int) : enter (some (f, line)) label limit = .error (f.refusal line label) := by
  simp [enter, check, full, bind, Except.bind]

theorem enter_of_free {f : Frame} (free : f.isFull = false) (line : Int) (label : String)
    (limit : Int) : enter (some (f, line)) label limit = .ok (f.child line label) := by
  simp [enter, check, free, bind, Except.bind, pure, Except.pure]

end Frame

namespace Run

theorem bind_pure_apply {α β : Type} (action : Run α) (f : α → β) (s : State) :
    (action >>= fun a => pure (f a)) s = ((action s).1.map f, (action s).2) := by
  rcases action.ok_or_error s with ⟨a, after, h⟩ | ⟨e, after, h⟩
  · rw [bind_of_ok h, h]
    rfl
  · rw [bind_of_error h, h]
    rfl

theorem bind_ofExcept_apply {α β : Type} (action : Run α) (f : α → Except Error β) (s : State) :
    (action >>= fun a => ofExcept (f a)) s = ((action s).1.bind f, (action s).2) := by
  rcases action.ok_or_error s with ⟨a, after, h⟩ | ⟨e, after, h⟩
  · rw [bind_of_ok h, h, ofExcept_apply]
    rfl
  · rw [bind_of_error h, h]
    rfl

theorem mapErrors_apply {α : Type} (f : Error → Error) (action : Run α) (s : State) :
    mapErrors f action s = ((action s).1.mapError f, (action s).2) := rfl

end Run

namespace Renderer

variable (r : Renderer)

/-- The room that is left in a frame decides nothing that the frame does not decide. -/
theorem renderWithin_remaining (frame : Frame) (data : List UInt8) (context : Value)
    (label : String) :
    r.renderWithin frame.remaining frame data context label = (do
      let tree ← treeOf label data
      let s ← get
      let child ← Run.ofExcept (Frame.enter (some (frame, s.line)) label r.limit)
      r.renderTree child context tree) := by
  cases room : frame.remaining with
  | zero =>
      rw [renderWithin]
      refine bind_congr fun tree => bind_congr fun s => ?_
      rw [Frame.enter_of_isFull (frame.isFull_iff.2 room)]
      rfl
  | succ less =>
      have free : frame.isFull = false := by
        rw [Bool.eq_false_iff, Ne, frame.isFull_iff, room]
        exact Nat.succ_ne_zero less
      rw [renderWithin]
      refine bind_congr fun tree => bind_congr fun s => ?_
      rw [Frame.enter_of_free free]
      have left : (frame.child s.line label).remaining = less := by
        rw [Frame.remaining_child, room]
        rfl
      show _ = r.renderTree (frame.child s.line label) context tree
      rw [renderTree, left]

theorem hostIn_renderPath (frame : Frame) (path : String) (context : Value) :
    (r.hostIn frame).renderPath path context = r.renderIn (some frame) (.path path) context := by
  simp only [hostIn, host, renderIn, fetch, locate, renderWithin_remaining, bind_assoc, pure_bind,
    Option.map_some]

theorem hostIn_renderSource (frame : Frame) (data : List UInt8) (context : Value)
    (label : String) :
    (r.hostIn frame).renderSource data context label =
      r.renderIn (some frame) (.source data label) context := by
  simp only [hostIn, host, renderIn, fetch, locate, renderWithin_remaining, bind_assoc, pure_bind,
    Option.map_some]

theorem renderRun_eq (target : Target) (context : Object) :
    Session.renderRun r target context =
      (contextOf context >>= fun v => r.renderIn none target v) := by
  refine bind_congr fun v => ?_
  cases target with
  | path path =>
      simp only [renderPath, renderSource, renderIn, fetch, locate, bind_assoc, pure_bind]
      rfl
  | source data label =>
      simp only [renderSource, renderIn, fetch, locate, bind_assoc, pure_bind]
      rfl

section Compositional

variable {K : (α : Type) → Run α → Prop} (h : Run.Compositional K)
  (trees : ∀ label data, K (List Node) (treeOf label data))

include h trees

theorem fetch_compositional (target : Target) : K (String × List Node) (r.fetch target) := by
  refine h.bind ?_ fun found => h.bind (trees found.1 found.2) fun tree => h.pure _
  cases target with
  | path path => exact r.load_compositional h path
  | source data label => exact h.pure _

theorem renderIn_compositional (current : Option Frame) (target : Target) (context : Value) :
    K String (r.renderIn current target context) := by
  refine h.bind (r.fetch_compositional h trees target) fun found => ?_
  have entered (line : Int) : K String (do
      let frame ← Run.ofExcept (Frame.enter (current.map fun f => (f, line)) found.1 r.limit)
      r.renderTree frame context found.2) :=
    h.bind (h.ofExcept _) fun frame =>
      r.renderTreeIn_compositional h frame (r.renderWithin_compositional h trees _ frame) context
        found.2
  exact h.ask entered

end Compositional

end Renderer

/-- A property holds of all renders if it holds of one whenever it holds of those that its tags
begin: the room left in the frame goes down from a render to those. -/
theorem Renderer.renders_induction (r : Renderer) {P : Option (Place × Invocation) → Prop}
    (step : ∀ current,
      (∀ line label frame tree,
        Frame.enter (current.map fun c => (c.1.frame, line)) label r.limit = .ok frame →
        ∀ tag, P (some (⟨frame, label, tree, around current⟩, tag))) →
      P current)
    (current : Option (Place × Invocation)) : P current := by
  have within {room : Nat} {place : Place} (left : place.frame.remaining = room)
      (tag : Invocation) : P (some (place, tag)) := by
    induction room generalizing place tag with
    | zero =>
        refine step _ fun line label frame tree entered => ?_
        rw [Option.map_some, Frame.enter_of_isFull (place.frame.isFull_iff.2 left)] at entered
        cases entered
    | succ less ih =>
        refine step _ fun line label frame tree entered => ?_
        have free : place.frame.isFull = false := by
          rw [Bool.eq_false_iff, Ne, place.frame.isFull_iff, left]
          exact Nat.succ_ne_zero less
        rw [Option.map_some, Frame.enter_of_free free] at entered
        cases entered
        refine ih ?_
        rw [Frame.remaining_child, left]
        rfl
  cases current with
  | none => exact step none fun _ _ _ _ _ => within rfl
  | some c => exact within rfl c.2

/-! ## Every run is an evaluation -/

/-- Whatever a run of the task gives, the rules derive it. -/
def Derivable (r : Renderer) {k : Task.Kind} (task : Task k) : Prop :=
  ∀ s result after, task.run r s = (result, after) →
    ∃ trace, Evaluates r task s result after trace

section Trees

section AnyHost

variable {host : Host}

theorem renderBranch_eq (host : Host) (context : Value) (branch : Option (List Node)) :
    renderBranch host context branch = renderNodes host context (branch.getD []) := by
  cases branch with
  | none => rw [renderBranch, Option.getD_none, renderNodes]
  | some nodes => rw [renderBranch, Option.getD_some]

theorem evaluate_of_unknown {name : String} (unknown : host.registry.lookup name = none)
    (context : Value) (p : Position) (params : List Node) (body orelse : Option (List Node)) :
    evaluate host context (.tag p name params body orelse) =
      throw (host.unknownTag name p.line) := by
  rw [evaluate, unknown]

theorem evaluate_of_known {name : String} {entry : TagEntry}
    (known : host.registry.lookup name = some entry)
    (context : Value) (p : Position) (params : List Node) (body orelse : Option (List Node)) :
    evaluate host context (.tag p name params body orelse) =
      Run.mapErrors (host.report name p.line) (do
        let values ← evaluateAll host context params
        host.enterTag p.line
        let tag : Invocation := ⟨name, values, body, orelse, context, p⟩
        let object ← (entry.handler tag).run host fun which other =>
          renderBranch host (other.getD context) (tag.branch which)
        Run.ofExcept object.toValue) := by
  rw [evaluate, known]
  refine congrArg (Run.mapErrors _) (bind_congr fun values => bind_congr fun _ => ?_)
  dsimp only
  congr 2
  funext which other
  cases which <;> rfl

end AnyHost

variable {r : Renderer} {place : Place}

theorem derivable_plan {tag : Invocation}
    (renders : ∀ target v, Derivable r (.render (some (place, tag)) target v))
    (branches : ∀ which v, Derivable r (.nodes place v ((tag.branch which).getD [])))
    (plan : Plan Object) : Derivable r (.plan place tag plan) := by
  intro s result after h
  rw [Task.run] at h
  induction plan generalizing s with
  | done object =>
      cases h
      exact ⟨_, .done⟩
  | fail e =>
      cases h
      exact ⟨_, .fail⟩
  | note text next ih =>
      rw [Plan.run, Run.bind_of_ok (Run.observe_apply _ s)] at h
      obtain ⟨trace, later⟩ := ih _ h
      exact ⟨trace, .note later⟩
  | ask next ih =>
      rw [Plan.run, Run.bind_of_ok (Run.get_apply s)] at h
      obtain ⟨trace, later⟩ := ih _ _ h
      exact ⟨trace, .ask later⟩
  | branch which context next ih =>
      rw [Plan.run, renderBranch_eq] at h
      rcases hbranch : renderNodes (r.hostIn place.frame) (context.getD tag.context)
        ((tag.branch which).getD []) s with ⟨e | text, mid⟩
      · rw [Run.bind_of_error hbranch] at h
        cases h
        obtain ⟨trace, first⟩ := branches which (context.getD tag.context) s _ _ hbranch
        exact ⟨trace, .branch_fails first⟩
      · rw [Run.bind_of_ok hbranch] at h
        obtain ⟨trace, first⟩ := branches which (context.getD tag.context) s _ _ hbranch
        obtain ⟨more, later⟩ := ih text mid h
        exact ⟨_, .branch first later⟩
  | path path context next ih =>
      rw [Plan.run, Renderer.hostIn_renderPath] at h
      rcases hrender : r.renderIn (some place.frame) (.path path) context s with ⟨e | text, mid⟩
      · rw [Run.bind_of_error hrender] at h
        cases h
        obtain ⟨trace, first⟩ := renders (.path path) context s _ _ hrender
        exact ⟨trace, .path_fails first⟩
      · rw [Run.bind_of_ok hrender] at h
        obtain ⟨trace, first⟩ := renders (.path path) context s _ _ hrender
        obtain ⟨more, later⟩ := ih text mid h
        exact ⟨_, .path first later⟩
  | source data context label next ih =>
      rw [Plan.run, Renderer.hostIn_renderSource] at h
      rcases hrender : r.renderIn (some place.frame) (.source data label) context s with
        ⟨e | text, mid⟩
      · rw [Run.bind_of_error hrender] at h
        cases h
        obtain ⟨trace, first⟩ := renders (.source data label) context s _ _ hrender
        exact ⟨trace, .source_fails first⟩
      · rw [Run.bind_of_ok hrender] at h
        obtain ⟨trace, first⟩ := renders (.source data label) context s _ _ hrender
        obtain ⟨more, later⟩ := ih text mid h
        exact ⟨_, .source first later⟩

mutual

theorem derivable_nodes
    (renders : ∀ tag target v, Derivable r (.render (some (place, tag)) target v))
    (context : Value) :
    (nodes : List Node) → Derivable r (.nodes place context nodes)
  | [] => by
      intro s result after h
      rw [Task.run, renderNodes] at h
      cases h
      exact ⟨_, .nil⟩
  | node :: rest => by
      intro s result after h
      rw [Task.run, renderNodes] at h
      rcases hfirst : evaluate (r.hostIn place.frame) context node s with ⟨e | v, mid⟩
      · rw [Run.bind_of_error hfirst] at h
        cases h
        obtain ⟨trace, first⟩ := derivable_node renders context node s _ _ hfirst
        exact ⟨trace, .cons_fails first⟩
      obtain ⟨trace, first⟩ := derivable_node renders context node s _ _ hfirst
      rw [Run.bind_of_ok hfirst] at h
      cases htext : v.text with
      | error e =>
          rw [htext, Run.bind_of_error (Run.ofExcept_apply _ mid)] at h
          cases h
          exact ⟨trace, .cons_textless first htext⟩
      | ok text =>
          rw [htext, Run.bind_of_ok (Run.ofExcept_apply _ mid), Run.bind_pure_apply] at h
          cases h
          obtain ⟨more, others⟩ := derivable_nodes renders context rest mid _ _ rfl
          exact ⟨_, .cons first htext others⟩

theorem derivable_node
    (renders : ∀ tag target v, Derivable r (.render (some (place, tag)) target v))
    (context : Value) :
    (node : Node) → Derivable r (.node place context node)
  | .raw _ text => by
      intro s result after h
      rw [Task.run, evaluate] at h
      cases h
      exact ⟨_, .raw⟩
  | .constant _ v => by
      intro s result after h
      rw [Task.run, evaluate] at h
      cases h
      exact ⟨_, .constant⟩
  | .identifier _ path => by
      intro s result after h
      rw [Task.run, evaluate, Run.ofExcept_apply] at h
      cases h
      exact ⟨_, .identifier⟩
  | .bare _ => by
      intro s result after h
      rw [Task.run, evaluate] at h
      cases h
      exact ⟨_, .bare⟩
  | .tag p name params body orelse => by
      intro s result after h
      rw [Task.run] at h
      cases known : (r.hostIn place.frame).registry.lookup name with
      | none =>
          rw [evaluate_of_unknown known] at h
          cases h
          exact ⟨_, .tag_unknown known⟩
      | some entry =>
          rw [evaluate_of_known known, Run.mapErrors_apply] at h
          rcases hparams : evaluateAll (r.hostIn place.frame) context params s with
            ⟨e | values, mid⟩
          · rw [Run.bind_of_error hparams] at h
            cases h
            obtain ⟨trace, first⟩ := derivable_all renders context params s _ _ hparams
            exact ⟨trace, .tag_fails known first⟩
          obtain ⟨trace, first⟩ := derivable_all renders context params s _ _ hparams
          have entered : (r.hostIn place.frame).enterTag p.line mid =
              (.ok (), { mid with line := p.line }) := rfl
          rw [Run.bind_of_ok hparams, Run.bind_of_ok entered, Run.bind_ofExcept_apply] at h
          cases h
          have branches (which : Branch) (v : Value) :
              Derivable r (.nodes place v
                ((Invocation.branch ⟨name, values, body, orelse, context, p⟩ which).getD [])) := by
            cases which with
            | body => exact derivable_branch renders v body
            | orelse => exact derivable_branch renders v orelse
          obtain ⟨more, later⟩ := derivable_plan (renders _) branches
            (entry.handler ⟨name, values, body, orelse, context, p⟩) { mid with line := p.line }
            _ _ rfl
          exact ⟨_, .tag known first later⟩

theorem derivable_all
    (renders : ∀ tag target v, Derivable r (.render (some (place, tag)) target v))
    (context : Value) :
    (nodes : List Node) → Derivable r (.all place context nodes)
  | [] => by
      intro s result after h
      rw [Task.run, evaluateAll] at h
      cases h
      exact ⟨_, .all_nil⟩
  | node :: rest => by
      intro s result after h
      rw [Task.run, evaluateAll] at h
      rcases hfirst : evaluate (r.hostIn place.frame) context node s with ⟨e | v, mid⟩
      · rw [Run.bind_of_error hfirst] at h
        cases h
        obtain ⟨trace, first⟩ := derivable_node renders context node s _ _ hfirst
        exact ⟨trace, .all_fails first⟩
      obtain ⟨trace, first⟩ := derivable_node renders context node s _ _ hfirst
      rw [Run.bind_of_ok hfirst, Run.bind_pure_apply] at h
      cases h
      obtain ⟨more, others⟩ := derivable_all renders context rest mid _ _ rfl
      exact ⟨_, .all_cons first others⟩

theorem derivable_branch
    (renders : ∀ tag target v, Derivable r (.render (some (place, tag)) target v))
    (context : Value) :
    (branch : Option (List Node)) → Derivable r (.nodes place context (branch.getD []))
  | none => derivable_nodes renders context []
  | some nodes => derivable_nodes renders context nodes

end

end Trees

section Renders

variable (r : Renderer)

/-- A render is derivable if those that its tags begin are. -/
theorem derivable_render_of {current : Option (Place × Invocation)}
    (renders : ∀ line label frame tree,
      Frame.enter (current.map fun c => (c.1.frame, line)) label r.limit = .ok frame →
      ∀ tag target v,
        Derivable r (.render (some (⟨frame, label, tree, around current⟩, tag)) target v))
    (target : Target) (context : Value) : Derivable r (.render current target context) := by
  intro s result after h
  rw [Task.run, Renderer.renderIn] at h
  rcases fetched : r.fetch target s with ⟨e | ⟨label, tree⟩, mid⟩
  · rw [Run.bind_of_error fetched] at h
    cases h
    exact ⟨_, .render_fails fetched⟩
  rw [Run.bind_of_ok fetched] at h
  simp only [Option.map_map, Function.comp_def] at h
  rw [Run.bind_of_ok (Run.get_apply mid)] at h
  cases entered : Frame.enter (current.map fun c => (c.1.frame, mid.line)) label r.limit with
  | error e =>
      rw [entered, Run.bind_of_error (Run.ofExcept_apply _ mid)] at h
      cases h
      exact ⟨_, .render_refused fetched entered⟩
  | ok frame =>
      rw [entered, Run.bind_of_ok (Run.ofExcept_apply _ mid)] at h
      cases h
      obtain ⟨trace, nodes⟩ := derivable_nodes (renders mid.line label frame tree entered) context
        tree { mid with line := 0 } _ _ rfl
      exact ⟨_, .render fetched entered nodes⟩

theorem derivable_render (current : Option (Place × Invocation)) (target : Target)
    (context : Value) : Derivable r (.render current target context) :=
  r.renders_induction (P := fun current => ∀ target v, Derivable r (.render current target v))
    (fun _ begun => derivable_render_of r begun) current target context

/-- What the rules derive for a render is what it gives. -/
theorem Evaluates.renderIn_eq {r : Renderer} {current : Option (Place × Invocation)}
    {target : Target} {context : Value} {s after : State} {result : Except Error String}
    {trace : List Incident}
    (h : Evaluates r (.render current target context) s result after trace) :
    r.renderIn (current.map fun c => c.1.frame) target context s = (result, after) := by
  obtain ⟨trace', run⟩ := derivable_render r current target context s _ _ rfl
  obtain ⟨result, after, -⟩ := h.unique run
  exact Prod.ext result after

theorem derivable_root (target : Target) (context : Object) :
    Derivable r (.root target context) := by
  intro s result after h
  rw [Task.run, Renderer.renderRun_eq] at h
  rcases ready : Renderer.contextOf context s with ⟨e | v, mid⟩
  · rw [Run.bind_of_error ready] at h
    cases h
    exact ⟨_, .root_fails ready⟩
  · rw [Run.bind_of_ok ready] at h
    obtain ⟨trace, render⟩ := derivable_render r none target v mid _ _ h
    exact ⟨_, .root ready render⟩

end Renders

end Templating
