import Templating.Proofs.Render.Failure

/-!
# Where failures arise

A failure arises at the innermost tag that is under evaluation at that moment, or at none.  The
rules below follow a failure from there outwards: through the parameters of tags, the branches of
blocks and the renders that handlers begin.  On its way it stays what it is, and it is reported by
the tag where it arises and by no other.
-/

namespace Templating

/-! ## Evaluation inside and outside of renders -/

/-- A tag under evaluation, in a render or outside of any. -/
structure Occurrence where
  place : Option Place
  position : Position
  name : String
  params : List Node
  body : Option (List Node)
  orelse : Option (List Node)

namespace Occurrence

def node (o : Occurrence) : Node := .tag o.position o.name o.params o.body o.orelse

/-- The tag as its handler sees it. -/
def call (o : Occurrence) (values : List Value) (context : Value) : Invocation :=
  ⟨o.name, values, o.body, o.orelse, context, o.position⟩

end Occurrence

namespace Renderer

def hostAt (r : Renderer) : Option Place → Host
  | none => r.host none r.renderSource
  | some place => r.hostIn place.frame

theorem hostAt_renders {K : (α : Type) → Run α → Prop} (h : Run.Compositional K)
    (trees : ∀ label data, K (List Node) (treeOf label data)) (r : Renderer)
    (place : Option Place) : (r.hostAt place).Renders K := by
  cases place with
  | none => exact r.host_renders h none (r.renderSource_compositional h trees)
  | some place =>
      exact r.host_renders h (some place.frame) (r.renderWithin_compositional h trees _ _)

def branchAt (r : Renderer) (place : Option Place) (tag : Invocation) (which : Branch)
    (context : Option Value) : Run String :=
  renderBranch (r.hostAt place) (context.getD tag.context) (tag.branch which)

/-- What is rendered cannot be: it is not found, cannot be read, or is one render too many. -/
def Refuses (r : Renderer) (current : Option Frame) (target : Target) (s : State) (e : Error) :
    Prop :=
  (r.fetch target).Fails s e ∨
    ∃ label tree mid, r.fetch target s = (.ok (label, tree), mid) ∧
      Frame.enter (current.map fun f => (f, mid.line)) label r.limit = .error e

end Renderer

/-- The state in which the handler of a tag starts. -/
def State.atTag (s : State) (place : Option Place) (line : Int) : State :=
  if place.isSome then { s with line := line } else s

/-! ## Rules -/

/-- What may fail. -/
inductive Work
  | root (target : Target) (context : Object)
  | render (current : Option (Place × Invocation)) (target : Target) (context : Value)
  | nodes (place : Option Place) (context : Value) (nodes : List Node)
  | node (place : Option Place) (context : Value) (node : Node)
  | all (place : Option Place) (context : Value) (nodes : List Node)
  | plan (place : Option Place) (tag : Invocation) (steps : Plan Object)

/-- Work begun in a state fails, and the failure arises at a tag or at none, with an error. -/
inductive Arises (r : Renderer) : Work → State → Option Occurrence → Error → Prop
  | context {target : Target} {context : Object} {s : State} {e : Error} :
      (Renderer.contextOf context).Fails s e → Arises r (.root target context) s none e
  | root {target : Target} {context : Object} {v : Value} {s mid : State} {o : Option Occurrence}
      {e : Error} :
      Renderer.contextOf context s = (.ok v, mid) → Arises r (.render none target v) mid o e →
      Arises r (.root target context) s o e
  | refused {current : Option (Place × Invocation)} {target : Target} {context : Value} {s : State}
      {e : Error} :
      r.Refuses (current.map fun c => c.1.frame) target s e →
      Arises r (.render current target context) s none e
  | render {current : Option (Place × Invocation)} {target : Target} {context : Value}
      {s mid : State} {label : String} {tree : List Node} {frame : Frame} {o : Option Occurrence}
      {e : Error} :
      r.fetch target s = (.ok (label, tree), mid) →
      Frame.enter (current.map fun c => (c.1.frame, mid.line)) label r.limit = .ok frame →
      Arises r (.nodes (some ⟨frame, label, tree, around current⟩) context tree)
        { mid with line := 0 } o e →
      Arises r (.render current target context) s o e
  | first {place : Option Place} {context : Value} {node : Node} {rest : List Node} {s : State}
      {o : Option Occurrence} {e : Error} :
      Arises r (.node place context node) s o e →
      Arises r (.nodes place context (node :: rest)) s o e
  | textless {place : Option Place} {context v : Value} {node : Node} {rest : List Node}
      {s mid : State} {e : Error} :
      evaluate (r.hostAt place) context node s = (.ok v, mid) → v.text = .error e →
      Arises r (.nodes place context (node :: rest)) s none e
  | later {place : Option Place} {context v : Value} {node : Node} {rest : List Node}
      {text : String} {s mid : State} {o : Option Occurrence} {e : Error} :
      evaluate (r.hostAt place) context node s = (.ok v, mid) → v.text = .ok text →
      Arises r (.nodes place context rest) mid o e →
      Arises r (.nodes place context (node :: rest)) s o e
  | identifier {place : Option Place} {context : Value} {p : Position} {path : List Step}
      {s : State} {e : Error} :
      context.fetch path = .error e → Arises r (.node place context (.identifier p path)) s none e
  | bare {place : Option Place} {context : Value} {p : Position} {s : State} :
      Arises r (.node place context (.bare p)) s none (.fault .bareNode)
  | unknown {o : Occurrence} {context : Value} {s : State} :
      r.registry.lookup o.name = none →
      Arises r (.node o.place context o.node) s (some o)
        ((r.hostAt o.place).unknownTag o.name o.position.line)
  | params {o : Occurrence} {context : Value} {entry : TagEntry} {s : State}
      {inner : Option Occurrence} {e : Error} :
      r.registry.lookup o.name = some entry →
      Arises r (.all o.place context o.params) s inner e →
      Arises r (.node o.place context o.node) s (inner.or (some o)) e
  | handler {o : Occurrence} {context : Value} {entry : TagEntry} {values : List Value}
      {s mid : State} {inner : Option Occurrence} {e : Error} :
      r.registry.lookup o.name = some entry →
      evaluateAll (r.hostAt o.place) context o.params s = (.ok values, mid) →
      Arises r (.plan o.place (o.call values context) (entry.handler (o.call values context)))
        (mid.atTag o.place o.position.line) inner e →
      Arises r (.node o.place context o.node) s (inner.or (some o)) e
  | result {o : Occurrence} {context : Value} {entry : TagEntry} {values : List Value}
      {object : Object} {s mid after : State} {e : Error} :
      r.registry.lookup o.name = some entry →
      evaluateAll (r.hostAt o.place) context o.params s = (.ok values, mid) →
      (entry.handler (o.call values context)).run (r.hostAt o.place)
        (r.branchAt o.place (o.call values context)) (mid.atTag o.place o.position.line) =
          (.ok object, after) →
      object.toValue = .error e →
      Arises r (.node o.place context o.node) s (some o) e
  | all_first {place : Option Place} {context : Value} {node : Node} {rest : List Node} {s : State}
      {o : Option Occurrence} {e : Error} :
      Arises r (.node place context node) s o e →
      Arises r (.all place context (node :: rest)) s o e
  | all_later {place : Option Place} {context v : Value} {node : Node} {rest : List Node}
      {s mid : State} {o : Option Occurrence} {e : Error} :
      evaluate (r.hostAt place) context node s = (.ok v, mid) →
      Arises r (.all place context rest) mid o e →
      Arises r (.all place context (node :: rest)) s o e
  | fail {place : Option Place} {tag : Invocation} {s : State} {e : Error} :
      Arises r (.plan place tag (.fail e)) s none e
  | note {place : Option Place} {tag : Invocation} {text : String} {next : Plan Object} {s : State}
      {o : Option Occurrence} {e : Error} :
      Arises r (.plan place tag next) { s with journal := .note text :: s.journal } o e →
      Arises r (.plan place tag (.note text next)) s o e
  | ask {place : Option Place} {tag : Invocation} {next : Option (Frame × Int) → Plan Object}
      {s : State} {o : Option Occurrence} {e : Error} :
      Arises r (.plan place tag (next (place.map fun p => (p.frame, s.line)))) s o e →
      Arises r (.plan place tag (.ask next)) s o e
  | branch {place : Option Place} {tag : Invocation} {which : Branch} {context : Option Value}
      {next : String → Plan Object} {s : State} {o : Option Occurrence} {e : Error} :
      Arises r (.nodes place (context.getD tag.context) ((tag.branch which).getD [])) s o e →
      Arises r (.plan place tag (.branch which context next)) s o e
  | branch_later {place : Option Place} {tag : Invocation} {which : Branch} {context : Option Value}
      {next : String → Plan Object} {text : String} {s mid : State} {o : Option Occurrence}
      {e : Error} :
      r.branchAt place tag which context s = (.ok text, mid) →
      Arises r (.plan place tag (next text)) mid o e →
      Arises r (.plan place tag (.branch which context next)) s o e
  | path {place : Option Place} {tag : Invocation} {path : String} {context : Value}
      {next : String → Plan Object} {s : State} {o : Option Occurrence} {e : Error} :
      Arises r (.render (place.map fun p => (p, tag)) (.path path) context) s o e →
      Arises r (.plan place tag (.path path context next)) s o e
  | path_later {place : Option Place} {tag : Invocation} {path text : String} {context : Value}
      {next : String → Plan Object} {s mid : State} {o : Option Occurrence} {e : Error} :
      r.renderIn (place.map Place.frame) (.path path) context s = (.ok text, mid) →
      Arises r (.plan place tag (next text)) mid o e →
      Arises r (.plan place tag (.path path context next)) s o e
  | source {place : Option Place} {tag : Invocation} {data : List UInt8} {context : Value}
      {label : String} {next : String → Plan Object} {s : State} {o : Option Occurrence}
      {e : Error} :
      Arises r (.render (place.map fun p => (p, tag)) (.source data label) context) s o e →
      Arises r (.plan place tag (.source data context label next)) s o e
  | source_later {place : Option Place} {tag : Invocation} {data : List UInt8} {context : Value}
      {label text : String} {next : String → Plan Object} {s mid : State} {o : Option Occurrence}
      {e : Error} :
      r.renderIn (place.map Place.frame) (.source data label) context s = (.ok text, mid) →
      Arises r (.plan place tag (next text)) mid o e →
      Arises r (.plan place tag (.source data context label next)) s o e

/-! ## What fails, and how it is reported -/

/-- The run of the work fails. -/
def Work.Fails (r : Renderer) : Work → State → Error → Prop
  | .root target context => (Session.renderRun r target context).Fails
  | .render current target context =>
    (r.renderIn (current.map fun c => c.1.frame) target context).Fails
  | .nodes place context tree => (renderNodes (r.hostAt place) context tree).Fails
  | .node place context single => (evaluate (r.hostAt place) context single).Fails
  | .all place context params => (evaluateAll (r.hostAt place) context params).Fails
  | .plan place tag steps => (steps.run (r.hostAt place) (r.branchAt place tag)).Fails

/-- An error as the tag where it arises reports it. -/
def Renderer.reported (r : Renderer) : Option Occurrence → Error → Error
  | none, e => e
  | some o, e => (r.hostAt o.place).report o.name o.position.line e

theorem Host.report_of_namesTag {e : Error} (named : e.namesTag = true) (host : Host)
    (name : String) (line : Int) : host.report name line e = e := if_pos named

namespace Renderer

theorem reported_of_namesTag {e : Error} (named : e.namesTag = true) (r : Renderer)
    (o : Occurrence) : r.reported (some o) e = e :=
  Host.report_of_namesTag named _ _ _

theorem reported_of_plain {e : Error} (plain : e.namesTag = false) (r : Renderer)
    (o : Occurrence) :
    r.reported (some o) e =
      .tagFailed o.name e ((r.hostAt o.place).site o.position.line) := by
  have unnamed : ¬ e.namesTag = true := by simp [plain]
  rw [reported, Host.report, if_neg unnamed]

theorem hostAt_registry (r : Renderer) (place : Option Place) :
    (r.hostAt place).registry = r.registry := by
  cases place <;> rfl

theorem hostAt_frame (r : Renderer) (place : Option Place) :
    (r.hostAt place).frame = place.map Place.frame := by
  cases place <;> rfl

/-- A tag leaves alone what a tag within it has reported. -/
theorem report_reported (r : Renderer) (o : Occurrence) (inner : Option Occurrence) (e : Error) :
    (r.hostAt o.place).report o.name o.position.line (r.reported inner e) =
      r.reported (inner.or (some o)) e := by
  cases inner with
  | none => rfl
  | some i => exact Host.report_of_namesTag (Host.namesTag_report _ _ _ _) _ _ _

theorem hostAt_enterTag (r : Renderer) (place : Option Place) (line : Int) (s : State) :
    (r.hostAt place).enterTag line s = (.ok (), s.atTag place line) := by
  cases place <;> rfl

theorem hostAt_renderPath (r : Renderer) (place : Option Place) (path : String) (context : Value) :
    (r.hostAt place).renderPath path context =
      r.renderIn (place.map Place.frame) (.path path) context := by
  cases place with
  | none =>
      simp only [hostAt, host, renderSource, renderIn, fetch, locate, bind_assoc, pure_bind]
      rfl
  | some place => exact r.hostIn_renderPath place.frame path context

theorem hostAt_renderSource (r : Renderer) (place : Option Place) (data : List UInt8)
    (context : Value) (label : String) :
    (r.hostAt place).renderSource data context label =
      r.renderIn (place.map Place.frame) (.source data label) context := by
  cases place with
  | none =>
      simp only [hostAt, host, renderSource, renderIn, fetch, locate, bind_assoc, pure_bind]
      rfl
  | some place => exact r.hostIn_renderSource place.frame data context label

end Renderer

section Steps

variable {r : Renderer} {context : Value} {s : State} {e : Error}

theorem fails_evaluateAll_cons_iff {host : Host} (node : Node) (rest : List Node) :
    (evaluateAll host context (node :: rest)).Fails s e ↔
      (evaluate host context node).Fails s e ∨
        ∃ v mid, evaluate host context node s = (.ok v, mid) ∧
          (evaluateAll host context rest).Fails mid e := by
  rw [evaluateAll, Run.fails_bind_iff]
  simp only [Run.fails_bind_pure_iff]

theorem Occurrence.fails_of_unknown_iff {o : Occurrence}
    (unknown : r.registry.lookup o.name = none) :
    (evaluate (r.hostAt o.place) context o.node).Fails s e ↔
      (r.hostAt o.place).unknownTag o.name o.position.line = e := by
  rw [← r.hostAt_registry o.place] at unknown
  rw [Occurrence.node, evaluate_of_unknown unknown, Run.fails_throw_iff]

/-- A tag fails with its parameters, with its handler, or with what the handler hands out. -/
theorem Occurrence.fails_of_known_iff {o : Occurrence} {entry : TagEntry}
    (known : r.registry.lookup o.name = some entry) :
    (evaluate (r.hostAt o.place) context o.node).Fails s e ↔
      ∃ cause, ((evaluateAll (r.hostAt o.place) context o.params).Fails s cause ∨
        ∃ values mid, evaluateAll (r.hostAt o.place) context o.params s = (.ok values, mid) ∧
          (((entry.handler (o.call values context)).run (r.hostAt o.place)
              (r.branchAt o.place (o.call values context))).Fails
                (mid.atTag o.place o.position.line) cause ∨
            ∃ object after, (entry.handler (o.call values context)).run (r.hostAt o.place)
              (r.branchAt o.place (o.call values context)) (mid.atTag o.place o.position.line) =
                (.ok object, after) ∧ object.toValue = .error cause)) ∧
        (r.hostAt o.place).report o.name o.position.line cause = e := by
  rw [← r.hostAt_registry o.place] at known
  rw [Occurrence.node, evaluate_of_known known, Run.fails_mapErrors_iff]
  refine exists_congr fun cause => and_congr_left fun _ => ?_
  rw [Run.fails_bind_iff]
  refine or_congr_right (exists_congr fun values => exists_congr fun mid =>
    and_congr_right fun _ => ?_)
  rw [Run.fails_bind_of_ok (r.hostAt_enterTag _ _ _), Run.fails_bind_iff]
  simp only [Run.fails_ofExcept_iff]
  rfl

theorem Renderer.fails_renderIn_iff (current : Option Frame) (target : Target) :
    (r.renderIn current target context).Fails s e ↔
      r.Refuses current target s e ∨
        ∃ label tree mid frame, r.fetch target s = (.ok (label, tree), mid) ∧
          Frame.enter (current.map fun f => (f, mid.line)) label r.limit = .ok frame ∧
          (renderNodes (r.hostIn frame) context tree).Fails { mid with line := 0 } e := by
  have entering (label : String) (tree : List Node) (mid : State) :
      Run.Fails (do
        let s ← get
        let frame ← Run.ofExcept (Frame.enter (current.map fun f => (f, s.line)) label r.limit)
        r.renderTree frame context tree) mid e ↔
      Frame.enter (current.map fun f => (f, mid.line)) label r.limit = .error e ∨
        ∃ frame, Frame.enter (current.map fun f => (f, mid.line)) label r.limit = .ok frame ∧
          (renderNodes (r.hostIn frame) context tree).Fails { mid with line := 0 } e := by
    rw [Run.fails_bind_of_ok (Run.get_apply mid), Run.fails_ofExcept_bind_iff]
    rfl
  rw [renderIn, Run.fails_bind_iff, Refuses, or_assoc]
  refine or_congr_right ⟨?_, ?_⟩
  · rintro ⟨⟨label, tree⟩, mid, fetched, failed⟩
    rcases (entering label tree mid).1 failed with refused | ⟨frame, entered, failed⟩
    · exact .inl ⟨label, tree, mid, fetched, refused⟩
    · exact .inr ⟨label, tree, mid, frame, fetched, entered, failed⟩
  · rintro (⟨label, tree, mid, fetched, refused⟩ |
      ⟨label, tree, mid, frame, fetched, entered, failed⟩)
    · exact ⟨(label, tree), mid, fetched, (entering label tree mid).2 (.inl refused)⟩
    · exact ⟨(label, tree), mid, fetched,
        (entering label tree mid).2 (.inr ⟨frame, entered, failed⟩)⟩

theorem fails_renderRun_iff (target : Target) (context : Object) :
    (Session.renderRun r target context).Fails s e ↔
      (Renderer.contextOf context).Fails s e ∨
        ∃ v mid, Renderer.contextOf context s = (.ok v, mid) ∧
          (r.renderIn none target v).Fails mid e := by
  rw [Renderer.renderRun_eq, Run.fails_bind_iff]

end Steps

/-! ## Failures outwards -/

theorem Arises.fails {r : Renderer} {work : Work} {s : State} {o : Option Occurrence} {e : Error}
    (h : Arises r work s o e) : work.Fails r s (r.reported o e) := by
  induction h with
  | context failed => exact (fails_renderRun_iff _ _).2 (.inl failed)
  | root ready _ ih => exact (fails_renderRun_iff _ _).2 (.inr ⟨_, _, ready, ih⟩)
  | refused refuses => exact (Renderer.fails_renderIn_iff _ _).2 (.inl refuses)
  | @render current _ _ _ _ _ _ _ _ _ fetched entered _ ih =>
      refine (Renderer.fails_renderIn_iff _ _).2 (.inr ⟨_, _, _, _, fetched, ?_, ih⟩)
      rw [Option.map_map]
      exact entered
  | first _ ih => exact (fails_cons_iff _ _).2 (.inl ih)
  | textless evaluated textless =>
      exact (fails_cons_iff _ _).2 (.inr ⟨_, _, evaluated, .inl textless⟩)
  | later evaluated shown _ ih =>
      exact (fails_cons_iff _ _).2 (.inr ⟨_, _, evaluated, .inr ⟨_, shown, ih⟩⟩)
  | identifier absent =>
      rw [Work.Fails, evaluate, Run.fails_ofExcept_iff]
      exact absent
  | bare =>
      rw [Work.Fails, evaluate, Run.fails_throw_iff]
      rfl
  | unknown unknown => exact (Occurrence.fails_of_unknown_iff unknown).2 rfl
  | @params o _ _ _ inner e known _ ih =>
      exact (Occurrence.fails_of_known_iff known).2 ⟨_, .inl ih, r.report_reported o inner e⟩
  | @handler o _ _ _ _ _ inner e known evaluated _ ih =>
      exact (Occurrence.fails_of_known_iff known).2
        ⟨_, .inr ⟨_, _, evaluated, .inl ih⟩, r.report_reported o inner e⟩
  | @result o _ _ _ _ _ _ _ e known evaluated handled failed =>
      exact (Occurrence.fails_of_known_iff known).2
        ⟨e, .inr ⟨_, _, evaluated, .inr ⟨_, _, handled, failed⟩⟩, rfl⟩
  | all_first _ ih => exact (fails_evaluateAll_cons_iff _ _).2 (.inl ih)
  | all_later evaluated _ ih =>
      exact (fails_evaluateAll_cons_iff _ _).2 (.inr ⟨_, _, evaluated, ih⟩)
  | fail => exact (Run.fails_throw_iff _).2 rfl
  | note _ ih =>
      rw [Work.Fails, Plan.run, Run.fails_bind_of_ok (Run.observe_apply _ _)]
      exact ih
  | @ask place _ _ _ _ _ _ ih =>
      rw [Work.Fails, Plan.run, Run.fails_bind_of_ok (Run.get_apply _), r.hostAt_frame]
      dsimp only
      rw [Option.map_map]
      exact ih
  | branch _ ih =>
      rw [Work.Fails, Plan.run, Run.fails_bind_iff, Renderer.branchAt, renderBranch_eq]
      exact .inl ih
  | branch_later rendered _ ih =>
      rw [Work.Fails, Plan.run, Run.fails_bind_of_ok rendered]
      exact ih
  | @path place _ _ _ _ _ _ _ _ ih =>
      rw [Work.Fails, Option.map_map] at ih
      rw [Work.Fails, Plan.run, Run.fails_bind_iff, r.hostAt_renderPath]
      exact .inl ih
  | path_later rendered _ ih =>
      rw [← Renderer.hostAt_renderPath] at rendered
      rw [Work.Fails, Plan.run, Run.fails_bind_of_ok rendered]
      exact ih
  | source _ ih =>
      rw [Work.Fails, Option.map_map] at ih
      rw [Work.Fails, Plan.run, Run.fails_bind_iff, r.hostAt_renderSource]
      exact .inl ih
  | source_later rendered _ ih =>
      rw [← Renderer.hostAt_renderSource] at rendered
      rw [Work.Fails, Plan.run, Run.fails_bind_of_ok rendered]
      exact ih

/-! ## Every failure arises somewhere -/

/-- Every failure of the work arises somewhere. -/
def Work.Traced (r : Renderer) (work : Work) : Prop :=
  ∀ s e, work.Fails r s e → ∃ o cause, Arises r work s o cause ∧ r.reported o cause = e

section Trees

variable {r : Renderer} {place : Option Place}

theorem traced_plan {tag : Invocation}
    (renders : ∀ target v, Work.Traced r (.render (place.map fun p => (p, tag)) target v))
    (branches : ∀ which v, Work.Traced r (.nodes place v ((tag.branch which).getD [])))
    (steps : Plan Object) : Work.Traced r (.plan place tag steps) := by
  intro s e failed
  rw [Work.Fails] at failed
  induction steps generalizing s with
  | done object => exact ((Run.fails_pure_iff _).1 failed).elim
  | fail cause =>
      rw [Plan.run, Run.fails_throw_iff] at failed
      exact ⟨none, cause, .fail, failed⟩
  | note text next ih =>
      rw [Plan.run, Run.fails_bind_of_ok (Run.observe_apply _ _)] at failed
      obtain ⟨o, cause, arises, same⟩ := ih _ failed
      exact ⟨o, cause, .note arises, same⟩
  | ask next ih =>
      rw [Plan.run, Run.fails_bind_of_ok (Run.get_apply _), r.hostAt_frame] at failed
      dsimp only at failed
      rw [Option.map_map] at failed
      obtain ⟨o, cause, arises, same⟩ := ih _ _ failed
      exact ⟨o, cause, .ask arises, same⟩
  | branch which context next ih =>
      rw [Plan.run, Run.fails_bind_iff] at failed
      rcases failed with failed | ⟨text, mid, rendered, failed⟩
      · rw [Renderer.branchAt, renderBranch_eq] at failed
        obtain ⟨o, cause, arises, same⟩ := branches _ _ _ _ failed
        exact ⟨o, cause, .branch arises, same⟩
      · obtain ⟨o, cause, arises, same⟩ := ih _ _ failed
        exact ⟨o, cause, .branch_later rendered arises, same⟩
  | path path context next ih =>
      rw [Plan.run, Run.fails_bind_iff, r.hostAt_renderPath] at failed
      rcases failed with failed | ⟨text, mid, rendered, failed⟩
      · have within := renders (.path path) context s e
        rw [Work.Fails, Option.map_map] at within
        obtain ⟨o, cause, arises, same⟩ := within failed
        exact ⟨o, cause, .path arises, same⟩
      · obtain ⟨o, cause, arises, same⟩ := ih _ _ failed
        exact ⟨o, cause, .path_later rendered arises, same⟩
  | source data context label next ih =>
      rw [Plan.run, Run.fails_bind_iff, r.hostAt_renderSource] at failed
      rcases failed with failed | ⟨text, mid, rendered, failed⟩
      · have within := renders (.source data label) context s e
        rw [Work.Fails, Option.map_map] at within
        obtain ⟨o, cause, arises, same⟩ := within failed
        exact ⟨o, cause, .source arises, same⟩
      · obtain ⟨o, cause, arises, same⟩ := ih _ _ failed
        exact ⟨o, cause, .source_later rendered arises, same⟩

mutual

theorem traced_nodes
    (renders : ∀ tag target v, Work.Traced r (.render (place.map fun p => (p, tag)) target v))
    (context : Value) :
    (nodes : List Node) → Work.Traced r (.nodes place context nodes)
  | [] => fun s e failed => by
      rw [Work.Fails, renderNodes, Run.fails_pure_iff] at failed
      exact failed.elim
  | node :: rest => fun s e failed => by
      rcases (fails_cons_iff node rest).1 failed with failed | ⟨v, mid, evaluated, after⟩
      · obtain ⟨o, cause, arises, same⟩ := traced_node renders context node s e failed
        exact ⟨o, cause, .first arises, same⟩
      rcases after with textless | ⟨text, shown, failed⟩
      · exact ⟨none, e, .textless evaluated textless, rfl⟩
      · obtain ⟨o, cause, arises, same⟩ := traced_nodes renders context rest mid e failed
        exact ⟨o, cause, .later evaluated shown arises, same⟩

theorem traced_node
    (renders : ∀ tag target v, Work.Traced r (.render (place.map fun p => (p, tag)) target v))
    (context : Value) :
    (node : Node) → Work.Traced r (.node place context node)
  | .raw _ text | .constant _ v => fun s e failed => by
      rw [Work.Fails, evaluate, Run.fails_pure_iff] at failed
      exact failed.elim
  | .identifier _ path => fun s e failed => by
      rw [Work.Fails, evaluate, Run.fails_ofExcept_iff] at failed
      exact ⟨none, e, .identifier failed, rfl⟩
  | .bare _ => fun s e failed => by
      rw [Work.Fails, evaluate, Run.fails_throw_iff] at failed
      exact ⟨none, _, .bare, failed⟩
  | .tag p name params body orelse => fun s e failed => by
      let o : Occurrence := ⟨place, p, name, params, body, orelse⟩
      cases known : r.registry.lookup o.name with
      | none =>
          have same := (Occurrence.fails_of_unknown_iff known).1 failed
          exact ⟨some o, _, .unknown known, same⟩
      | some entry =>
          obtain ⟨cause, failed, same⟩ := (Occurrence.fails_of_known_iff known).1 failed
          rcases failed with failed | ⟨values, mid, evaluated, failed⟩
          · obtain ⟨inner, cause, arises, rfl⟩ := traced_all renders context params s cause failed
            rw [r.report_reported o inner cause] at same
            exact ⟨_, cause, .params known arises, same⟩
          rcases failed with failed | ⟨object, after, handled, failed⟩
          · let tag := o.call values context
            have branches (which : Branch) (v : Value) :
                Work.Traced r (.nodes place v ((tag.branch which).getD [])) := by
              cases which with
              | body => exact traced_branch renders v body
              | orelse => exact traced_branch renders v orelse
            obtain ⟨inner, cause, arises, rfl⟩ :=
              traced_plan (renders tag) branches (entry.handler tag) _ cause failed
            rw [r.report_reported o inner cause] at same
            exact ⟨_, cause, .handler known evaluated arises, same⟩
          · exact ⟨some o, cause, .result known evaluated handled failed, same⟩

theorem traced_all
    (renders : ∀ tag target v, Work.Traced r (.render (place.map fun p => (p, tag)) target v))
    (context : Value) :
    (nodes : List Node) → Work.Traced r (.all place context nodes)
  | [] => fun s e failed => by
      rw [Work.Fails, evaluateAll, Run.fails_pure_iff] at failed
      exact failed.elim
  | node :: rest => fun s e failed => by
      rcases (fails_evaluateAll_cons_iff node rest).1 failed with
        failed | ⟨v, mid, evaluated, failed⟩
      · obtain ⟨o, cause, arises, same⟩ := traced_node renders context node s e failed
        exact ⟨o, cause, .all_first arises, same⟩
      · obtain ⟨o, cause, arises, same⟩ := traced_all renders context rest mid e failed
        exact ⟨o, cause, .all_later evaluated arises, same⟩

theorem traced_branch
    (renders : ∀ tag target v, Work.Traced r (.render (place.map fun p => (p, tag)) target v))
    (context : Value) :
    (branch : Option (List Node)) → Work.Traced r (.nodes place context (branch.getD []))
  | none => traced_nodes renders context []
  | some nodes => traced_nodes renders context nodes

end

end Trees

section Renders

variable {r : Renderer}

theorem traced_render (current : Option (Place × Invocation)) (target : Target) (context : Value) :
    Work.Traced r (.render current target context) := by
  induction current using r.renders_induction generalizing target context with
  | step current renders =>
      intro s e failed
      rcases (Renderer.fails_renderIn_iff _ _).1 failed with
        refuses | ⟨label, tree, mid, frame, fetched, entered, failed⟩
      · exact ⟨none, e, .refused refuses, rfl⟩
      · rw [Option.map_map] at entered
        let place : Place := ⟨frame, label, tree, around current⟩
        have nodes : Work.Traced r (.nodes (some place) context tree) := by
          refine traced_nodes (fun tag => ?_) context tree
          exact renders mid.line label frame tree entered tag
        obtain ⟨o, cause, arises, same⟩ := nodes _ e failed
        exact ⟨o, cause, .render fetched entered arises, same⟩

theorem Work.traced (r : Renderer) (work : Work) : work.Traced r := by
  cases work with
  | root target context =>
      intro s e failed
      rcases (fails_renderRun_iff target context).1 failed with failed | ⟨v, mid, ready, failed⟩
      · exact ⟨none, e, .context failed, rfl⟩
      · obtain ⟨o, cause, arises, same⟩ := traced_render none target v mid e failed
        exact ⟨o, cause, .root ready arises, same⟩
  | render current target context => exact traced_render current target context
  | nodes place context nodes => exact traced_nodes (fun _ => traced_render _) context nodes
  | node place context node => exact traced_node (fun _ => traced_render _) context node
  | all place context nodes => exact traced_all (fun _ => traced_render _) context nodes
  | plan place tag steps =>
      refine traced_plan (traced_render _) (fun which v => ?_) steps
      exact traced_nodes (fun _ => traced_render _) v _

/-- Work fails with what the tag reports where the failure arises. -/
theorem Work.fails_iff (work : Work) (s : State) (e : Error) :
    work.Fails r s e ↔ ∃ o cause, Arises r work s o cause ∧ r.reported o cause = e := by
  refine ⟨work.traced r s e, ?_⟩
  rintro ⟨o, cause, arises, rfl⟩
  exact arises.fails

end Renders

end Templating
