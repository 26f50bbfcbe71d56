import Templating.Proofs.Object.Data
import Templating.Proofs.Render.Progress
import Templating.Proofs.Render.Relevance
import Templating.Proofs.Tag.Handover
import Templating.Proofs.Template.Constants

/-!
# Renders of data

A render against data comes by nothing but data.  The constants of its templates are data, a path
leads from data to data, and the built-in tags hand over nothing else; this carries through branches
of blocks, loops and included templates.  No path ever asks an object of the application for an
attribute.
-/

namespace Templating

/-! ## Evaluation -/

/-- Whatever the run comes to in the end is `P`. -/
def Run.Gives {α : Type} (P : α → Prop) (action : Run α) : Prop :=
  ∀ s a after, action s = (.ok a, after) → P a

namespace Run.Gives

variable {α β : Type} {P : α → Prop} {Q : β → Prop}

theorem pure {a : α} (h : P a) : (pure a : Run α).Gives P := by
  rintro s _ _ ⟨⟩
  exact h

theorem throw (e : Error) : (throw e : Run α).Gives P := by
  rintro s _ _ ⟨⟩

theorem ofExcept {result : Except Error α} (h : ∀ a, result = .ok a → P a) :
    (Run.ofExcept result).Gives P := by
  intro s a after same
  rw [ofExcept_apply] at same
  exact h a (Prod.mk.inj same).1

theorem bind {action : Run α} (first : action.Gives P) {next : α → Run β}
    (second : ∀ a, P a → (next a).Gives Q) : (action >>= next).Gives Q := by
  intro s b after same
  rcases action.ok_or_error s with ⟨a, mid, ran⟩ | ⟨e, mid, ran⟩
  · rw [bind_of_ok ran] at same
    exact second a (first s a mid ran) mid b after same
  · rw [bind_of_error ran] at same
    cases same

theorem any (action : Run α) : action.Gives fun _ => True := fun _ _ _ _ => trivial

theorem mapErrors {action : Run α} (h : action.Gives P) (f : Error → Error) :
    (mapErrors f action).Gives P := by
  intro s a after same
  rcases action.ok_or_error s with ⟨b, mid, ran⟩ | ⟨e, mid, ran⟩
  · rw [mapErrors_apply, ran] at same
    cases same
    exact h s _ _ ran
  · rw [mapErrors_apply, ran] at same
    cases same

end Run.Gives

section Evaluation

variable {host : Host}

theorem Plan.HandsOver.run_gives {α : Type} {D : Value → Prop} {P : α → Prop} {plan : Plan α}
    (h : plan.HandsOver D P) (branch : Branch → Option Value → Run String) :
    (plan.run host branch).Gives P := by
  induction plan with
  | done result => exact .pure h
  | fail e => exact .throw e
  | note text next ih => exact (Run.Gives.any _).bind fun _ _ => ih h
  | ask next =>
      refine (Run.Gives.any _).bind fun s _ => ?_
      obtain ⟨e, fails⟩ := h (host.frame.map fun f => (f, s.line))
      dsimp only
      rw [fails]
      exact .throw e
  | branch which context next ih => exact (Run.Gives.any _).bind fun text _ => ih text (h.2 text)
  | path target context next ih => exact (Run.Gives.any _).bind fun text _ => ih text (h.2 text)
  | source data context label next ih =>
      exact (Run.Gives.any _).bind fun text _ => ih text (h.2 text)

mutual

/-- A node evaluates to data, in whatever surroundings. -/
theorem evaluate_gives_data (tags : host.registry.HandsOver Value.IsData) {context : Value}
    (data : context.IsData) :
    (node : Node) → node.HoldsData → (evaluate host context node).Gives Value.IsData
  | .raw _ text, _ => by
      rw [evaluate]
      exact .pure (.string text)
  | .constant _ v, holds => by
      cases holds with
      | constant _ own =>
          rw [evaluate]
          exact .pure own
  | .identifier _ path, _ => by
      rw [evaluate]
      exact .ofExcept fun _ => data.fetch
  | .bare _, _ => by
      rw [evaluate]
      exact .throw _
  | .tag p name params body orelse, holds => by
      cases holds with
      | tag inParams _ _ =>
      cases known : host.registry.lookup name with
      | none =>
          rw [evaluate_of_unknown known]
          exact .throw _
      | some entry =>
          rw [evaluate_of_known known]
          refine Run.Gives.mapErrors ?_ _
          refine (evaluateAll_gives_data tags data params inParams).bind fun values all => ?_
          refine (Run.Gives.any _).bind fun _ _ => ?_
          refine ((tags.of_lookup known _ ⟨all, data⟩).run_gives _).bind fun object gives => ?_
          exact .ofExcept gives

theorem evaluateAll_gives_data (tags : host.registry.HandsOver Value.IsData) {context : Value}
    (data : context.IsData) :
    (nodes : List Node) → (∀ node ∈ nodes, node.HoldsData) →
      (evaluateAll host context nodes).Gives fun values => ∀ v ∈ values, v.IsData
  | [], _ => by
      rw [evaluateAll]
      exact .pure fun _ member => nomatch member
  | node :: rest, holds => by
      rw [evaluateAll]
      have own := holds node List.mem_cons_self
      have others := fun other member => holds other (List.mem_cons_of_mem node member)
      refine (evaluate_gives_data tags data node own).bind fun v held => ?_
      refine (evaluateAll_gives_data tags data rest others).bind fun values all => .pure ?_
      exact List.forall_mem_cons.2 ⟨held, all⟩

end

end Evaluation

/-! ## Work within a render -/

/-- The path does not lead through an object, nor to one. -/
def Value.StaysInData (v : Value) (path : List Step) : Prop :=
  ∀ taken left, taken ++ left = path → ∀ w, v.fetch taken = .ok w → w.kind ≠ .foreign

namespace Work

/-- What the work is begun with is data. -/
def OfData : Work → Prop
  | .root _ context => context.graph.ReadyData context.root
  | .render _ _ context => context.IsData
  | .nodes _ context tree | .all _ context tree => context.IsData ∧ ∀ node ∈ tree, node.HoldsData
  | .node _ context single => context.IsData ∧ single.HoldsData
  | .plan _ tag steps =>
    Invocation.Of Value.IsData tag ∧
      (∀ which, ∀ node ∈ (tag.branch which).getD [], node.HoldsData) ∧
      steps.HandsOver Value.IsData (Object.GivesOnly Value.IsData)

/-- The context of the work, the parameters of its tag, and whatever it evaluates to from that state
are data, and so is all that its path comes by. -/
def SeesData (r : Renderer) (s : State) : Work → Prop
  | .root _ context => ∀ v after, Renderer.contextOf context s = (.ok v, after) → v.IsData
  | .render _ _ context | .nodes _ context _ => context.IsData
  | .node place context single =>
    context.IsData ∧
      (∀ v after, evaluate (r.hostAt place) context single s = (.ok v, after) → v.IsData) ∧
      ∀ p path, single = .identifier p path → context.StaysInData path
  | .all place context params =>
    context.IsData ∧ ∀ values after,
      evaluateAll (r.hostAt place) context params s = (.ok values, after) → ∀ v ∈ values, v.IsData
  | .plan place tag steps =>
    tag.context.IsData ∧ (∀ v ∈ tag.params, v.IsData) ∧ ∀ object after,
      steps.run (r.hostAt place) (r.branchAt place tag) s = (.ok object, after) →
        ∀ v, object.toValue = .ok v → v.IsData

end Work

theorem Renderer.isData_of_contextOf {context : Object}
    (ready : context.graph.ReadyData context.root) {s after : State} {v : Value}
    (h : contextOf context s = (.ok v, after)) : v.IsData := by
  unfold contextOf at h
  cases node : context.node with
  | null =>
      rw [node] at h
      cases h
      exact .null
  | ready w =>
      rw [node] at h
      cases h
      exact ready context.root .refl _ node
  | _ =>
      rw [node] at h
      dsimp only at h
      rw [Run.bind_of_ok (Run.observe_apply _ s), Run.ofExcept_apply] at h
      exact Graph.isData_of_encode ready (Prod.mk.inj h).1

section Tags

variable {r : Renderer} (tags : r.registry.HandsOver Value.IsData)

include tags

theorem Renderer.hostAt_handsOver (place : Option Place) :
    (r.hostAt place).registry.HandsOver Value.IsData := by
  cases place <;> exact tags

theorem Work.OfData.seesData {work : Work} (h : work.OfData) (s : State) : work.SeesData r s := by
  cases work with
  | root target context => exact fun v after => Renderer.isData_of_contextOf h
  | render => exact h
  | nodes => exact h.1
  | node place context node =>
      obtain ⟨data, holds⟩ := h
      have gives := evaluate_gives_data (Renderer.hostAt_handsOver tags place) data node holds
      exact ⟨data, gives s, fun _ _ _ _ _ _ _ led => (data.fetch led).kind_ne_foreign⟩
  | all place context nodes =>
      obtain ⟨data, holds⟩ := h
      have gives := evaluateAll_gives_data (Renderer.hostAt_handsOver tags place) data nodes holds
      exact ⟨data, gives s⟩
  | plan place tag steps =>
      obtain ⟨own, -, hands⟩ := h
      exact ⟨own.context, own.params, hands.run_gives (r.branchAt place tag) s⟩

/-- Work that is begun with data comes to other work with data. -/
theorem Proceeds.ofData {a b : Work × State} (step : Proceeds r a b)
    (parsed : a.2.HoldsOnly fun _ => True) (h : a.1.OfData) : b.1.OfData := by
  have hosted := Renderer.hostAt_handsOver tags
  cases step with
  | root ready => exact Renderer.isData_of_contextOf h ready
  | @render _ target _ s _ _ _ _ fetched =>
      have given : target.From fun _ => True := by cases target <;> trivial
      have loads : r.LoadsFrom fun _ => True := fun _ _ _ => trivial
      have trees := (Renderer.fetch_holdsOnly loads given parsed).2
      rw [fetched] at trees
      obtain ⟨_, -, read⟩ := trees _ _ rfl
      exact ⟨h, Template.holdsData_of_read read⟩
  | first | all_first => exact ⟨h.1, h.2 _ List.mem_cons_self⟩
  | later | all_later =>
      exact ⟨h.1, fun other member => h.2 other (List.mem_cons_of_mem _ member)⟩
  | params =>
      obtain ⟨data, holds⟩ := h
      cases holds with
      | tag inParams => exact ⟨data, inParams⟩
  | @handler o context entry values s mid known evaluated =>
      obtain ⟨data, holds⟩ := h
      cases holds with
      | tag inParams inBody inElse =>
          have own : Invocation.Of Value.IsData (o.call values context) :=
            ⟨evaluateAll_gives_data (hosted o.place) data o.params inParams s _ _ evaluated, data⟩
          refine ⟨own, fun which => ?_, tags.of_lookup known _ own⟩
          cases which with
          | body => exact inBody
          | orelse => exact inElse
  | note => exact h
  | ask =>
      refine ⟨h.1, h.2.1, ?_⟩
      obtain ⟨e, fails⟩ := h.2.2 _
      rw [fails]
      trivial
  | @branch _ tag which context next _ =>
      refine ⟨?_, h.2.1 which⟩
      cases context with
      | none => exact h.1.context
      | some v => exact h.2.2.1 v rfl
  | branch_later | path_later | source_later => exact ⟨h.1, h.2.1, h.2.2.2 _⟩
  | path | source => exact h.2.2.1

theorem Renderer.Comes.ofData {a b : Work × State} (h : r.Comes a b)
    (parsed : a.2.HoldsOnly fun _ => True) (data : a.1.OfData) : b.1.OfData := by
  let P : Stock := fun cache _ => ∀ held, cache = some held → held.HoldsOnly fun _ => True
  have trees (label : String) (data : List UInt8) : (Renderer.treeOf label data).Keeps P :=
    fun s has => (Renderer.treeOf_holdsOnly trivial label has).1
  induction h with
  | refl => exact data
  | tail before step ih => exact step.ofData tags (Renderer.Comes.keeps trees r before parsed) ih

end Tags

namespace Session

/-- What is encoded is data, and with the built-in tags all is data that a render against it comes
by: contexts, parameters, results of handlers, and what paths lead through.  It takes no more than
that no object stands ready in the data as a value, and that what is cached was parsed. -/
theorem render_sees_data (s : Session) (builtin : s.renderer.registry = Builtin.registry)
    (parsed : s.state.HoldsOnly fun _ => True) {context : Object}
    (ready : context.graph.ReadyData context.root) (target : Target) :
    (∀ v, context.encode = .ok v → v.IsData) ∧
      ∀ work mid, s.renderer.Comes (.root target context, s.state) (work, mid) →
        work.SeesData s.renderer mid := by
  have tags : s.renderer.registry.HandsOver Value.IsData := by
    rw [builtin]
    exact Builtin.registry_handsOver Value.closed_isData
  refine ⟨fun v => Graph.isData_of_encode ready, fun work mid comes => ?_⟩
  exact (Renderer.Comes.ofData tags comes parsed ready).seesData tags mid

/-- The page goes through its users and includes a menu, and sees none but data in doing so. -/
theorem render_page_sees_data :
    let s := start pageRenderer none
    let page : Target := .source pageSource "page"
    s.state.HoldsOnly (fun _ => True) ∧ pageData.graph.ReadyData pageData.root ∧
      (Value.dictionary [("secret", .int 7), ("users", pageUsers)]).IsData ∧
      ∀ work mid, s.renderer.Comes (.root page pageData, s.state) (work, mid) →
        work.SeesData s.renderer mid := by
  intro s page
  have parsed : s.state.HoldsOnly fun _ => True := nofun
  have ready : pageData.graph.ReadyData pageData.root := by
    intro c _ w node
    simp only [pageData] at node
    split at node <;> cases node
  obtain ⟨encoded, seen⟩ := render_sees_data s rfl parsed ready page
  exact ⟨parsed, ready, encoded _ rfl, seen⟩

end Session

end Templating
