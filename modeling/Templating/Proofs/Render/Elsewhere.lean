import Templating.Proofs.Render.Derivation
import Templating.Proofs.Render.Transparency
import Templating.Proofs.Tag.Elsewhere

/-!
# Positions play no part in what is rendered

Positions go into the line of the current render, and from there into the chains of the renders that
tags begin and into reports.  Nothing comes back from there: two trees that differ in positions
alone are evaluated in the same steps.
-/

namespace Templating

/-! ## States and results that differ in lines -/

def State.unplaced (s : State) : State := { s with line := 0 }

theorem State.unplaced_eq_iff {s t : State} :
    s.unplaced = t.unplaced ↔ s.cache = t.cache ∧ s.journal = t.journal := by
  simp only [unplaced, mk.injEq, true_and]

namespace Run

variable {α β : Type}

/-- From states that differ in the line alone the runs come to the same result, or fail with errors
that differ in lines alone, and the states that they leave differ in the line alone. -/
def Elsewhere (action other : Run α) : Prop :=
  ∀ s t : State, s.unplaced = t.unplaced →
    (action s).1.mapError Error.unplaced = (other t).1.mapError Error.unplaced ∧
      (action s).2.unplaced = (other t).2.unplaced

theorem exists_error_of_mapError {x y : Except Error α} {e : Error}
    (same : x.mapError Error.unplaced = y.mapError Error.unplaced) (failed : x = .error e) :
    ∃ e', y = .error e' ∧ e.unplaced = e'.unplaced := by
  subst failed
  cases y with
  | ok a => cases same
  | error e' => exact ⟨e', rfl, Except.error.inj same⟩

theorem eq_ok_of_mapError {x y : Except Error α} {a : α}
    (same : x.mapError Error.unplaced = y.mapError Error.unplaced) (succeeded : x = .ok a) :
    y = .ok a := by
  subst succeeded
  cases y with
  | ok b => rw [Except.ok.inj same]
  | error e' => cases same

namespace Elsewhere

theorem pure (a : α) : Elsewhere (Pure.pure a : Run α) (Pure.pure a) :=
  fun _ _ same => ⟨rfl, same⟩

theorem throw {e e' : Error} (h : e.unplaced = e'.unplaced) :
    Elsewhere (MonadExcept.throw e : Run α) (MonadExcept.throw e') :=
  fun _ _ same => ⟨congrArg Except.error h, same⟩

theorem bind {action other : Run α} {next next' : α → Run β} (first : action.Elsewhere other)
    (second : ∀ a, (next a).Elsewhere (next' a)) :
    (action >>= next).Elsewhere (other >>= next') := by
  intro s t same
  obtain ⟨result, later⟩ := first s t same
  rcases action.ok_or_error s with ⟨a, mid, ran⟩ | ⟨e, mid, ran⟩
  · rw [ran] at result later
    have ran' : other t = (.ok a, (other t).2) := Prod.ext (eq_ok_of_mapError result rfl) rfl
    rw [bind_of_ok ran, bind_of_ok ran']
    exact second a mid _ later
  · rw [ran] at result later
    obtain ⟨e', failed, reason⟩ := exists_error_of_mapError result rfl
    have ran' : other t = (.error e', (other t).2) := Prod.ext failed rfl
    rw [bind_of_error ran, bind_of_error ran']
    exact ⟨congrArg Except.error reason, later⟩

theorem ofExcept (result : Except Error α) :
    Elsewhere (Run.ofExcept result) (Run.ofExcept result) := by
  cases result with
  | ok a => exact pure a
  | error e => exact throw rfl

theorem observe (event : Event) : Elsewhere (Run.observe event) (Run.observe event) := by
  intro s t same
  obtain ⟨cache, journal⟩ := State.unplaced_eq_iff.1 same
  exact ⟨rfl, State.unplaced_eq_iff.2 ⟨cache, congrArg (event :: ·) journal⟩⟩

theorem setLine (line line' : Int) : Elsewhere (Run.setLine line) (Run.setLine line') :=
  fun _ _ same => ⟨rfl, same⟩

/-- The runs may go on differently from different lines. -/
theorem ask {next next' : Int → Run α} (h : ∀ line line', (next line).Elsewhere (next' line')) :
    Elsewhere (do next (← get).line : Run α) (do next' (← get).line) :=
  fun s t same => h s.line t.line s t same

theorem mapErrors {f g : Error → Error}
    (h : ∀ e e', e.unplaced = e'.unplaced → (f e).unplaced = (g e').unplaced)
    {action other : Run α} (inner : action.Elsewhere other) :
    (Run.mapErrors f action).Elsewhere (Run.mapErrors g other) := by
  intro s t same
  obtain ⟨result, later⟩ := inner s t same
  refine ⟨?_, later⟩
  rw [mapErrors_apply, mapErrors_apply]
  cases ran : (action s).1 with
  | ok a =>
      rw [eq_ok_of_mapError result ran]
      rfl
  | error e =>
      obtain ⟨e', failed, reason⟩ := exists_error_of_mapError result ran
      rw [failed]
      exact congrArg Except.error (h e e' reason)

/-- A render has a line of its own. -/
theorem withOwnLine {action other : Run α} (inner : action.Elsewhere other) :
    (Run.withOwnLine action).Elsewhere (Run.withOwnLine other) :=
  fun _ _ same => inner _ _ same

theorem treeOf (label : String) (data : List UInt8) :
    Elsewhere (Renderer.treeOf label data) (Renderer.treeOf label data) := by
  intro s t same
  obtain ⟨caches, journal⟩ := State.unplaced_eq_iff.1 same
  have parsed := congrArg (Event.parsed label data :: ·) journal
  cases hcache : t.cache with
  | none =>
      have hcache' := caches.trans hcache
      rw [Renderer.treeOf_of_none hcache, Renderer.treeOf_of_none hcache', Renderer.read_apply,
        Renderer.read_apply]
      exact ⟨rfl, State.unplaced_eq_iff.2 ⟨caches, parsed⟩⟩
  | some cache =>
      have hcache' := caches.trans hcache
      cases found : cache.find? (Digest.text data) with
      | some tree =>
          rw [Renderer.treeOf_of_hit hcache found, Renderer.treeOf_of_hit hcache' found]
          exact ⟨rfl, State.unplaced_eq_iff.2 ⟨rfl, journal⟩⟩
      | none =>
          rw [Renderer.treeOf_of_miss hcache found, Renderer.treeOf_of_miss hcache' found]
          cases Template.parse label data <;>
            exact ⟨rfl, State.unplaced_eq_iff.2 ⟨rfl, parsed⟩⟩

end Elsewhere

end Run

/-! ## Trees -/

/-- The hosts differ in lines alone, and so do the renders that they start. -/
structure Host.Elsewhere (host other : Host) : Prop where
  registry : host.registry = other.registry
  frame : host.frame.map Frame.unplaced = other.frame.map Frame.unplaced
  path : ∀ path v, (host.renderPath path v).Elsewhere (other.renderPath path v)
  source : ∀ data v label,
    (host.renderSource data v label).Elsewhere (other.renderSource data v label)

namespace Host.Elsewhere

variable {host other : Host} (hosts : host.Elsewhere other)

include hosts

theorem label : host.label = other.label := by
  have labels := congrArg (fun frame => frame.bind Frame.label) hosts.frame
  simpa only [Option.bind_map, Function.comp_def, Frame.unplaced, Host.label] using labels

theorem unplaced_site (line line' : Int) :
    (host.site line).unplaced = (other.site line').unplaced := by
  have chains := congrArg (fun frame => (frame.map Frame.chain).getD []) hosts.frame
  have chain : unplacedChain host.chain = unplacedChain other.chain := by
    unfold Host.chain
    cases own : host.frame <;> cases own' : other.frame <;> rw [own, own'] at chains <;>
      exact chains
  simp only [Host.site, Site.unplaced, hosts.label, chain]

theorem unplaced_report (name : String) (line line' : Int) (e e' : Error)
    (same : e.unplaced = e'.unplaced) :
    (host.report name line e).unplaced = (other.report name line' e').unplaced := by
  have named : e.namesTag = e'.namesTag := by
    rw [← e.namesTag_unplaced, same, e'.namesTag_unplaced]
  unfold Host.report
  rw [named]
  split
  · exact same
  · simp only [Error.unplaced, same, hosts.unplaced_site line line']

theorem unplaced_unknownTag (name : String) (line line' : Int) :
    (host.unknownTag name line).unplaced = (other.unknownTag name line').unplaced := by
  simp only [Host.unknownTag, Error.unplaced, Site.unplaced, hosts.registry, hosts.label]

theorem enterTag (line line' : Int) :
    (host.enterTag line).Elsewhere (other.enterTag line') := by
  have inside : host.frame.isSome = other.frame.isSome := by
    have present := congrArg Option.isSome hosts.frame
    simpa only [Option.isSome_map] using present
  unfold Host.enterTag
  rw [inside]
  split
  · exact .setLine line line'
  · exact .pure ()

theorem map_current (line line' : Int) :
    (host.frame.map fun f => (f, line)).map (fun c => c.1.unplaced) =
      (other.frame.map fun f => (f, line')).map (fun c => c.1.unplaced) := by
  simpa only [Option.map_map, Function.comp_def] using hosts.frame

theorem run {branch branch' : Branch → Option Value → Run String}
    (branches : ∀ which v, (branch which v).Elsewhere (branch' which v))
    {α : Type} {plan plan' : Plan α} (plans : plan.Elsewhere plan') :
    (plan.run host branch).Elsewhere (plan'.run other branch') := by
  induction plans with
  | done result => exact .pure result
  | fail same => exact .throw same
  | note text _ ih => exact .bind (.observe (.note text)) fun _ => ih
  | ask _ ih => exact .ask fun line line' => ih _ _ (hosts.map_current line line')
  | branch which context _ ih => exact .bind (branches which context) ih
  | path path context _ ih => exact .bind (hosts.path path context) ih
  | source data context label _ ih => exact .bind (hosts.source data context label) ih

end Host.Elsewhere

mutual

theorem elsewhere_renderNodes {host other : Host} (hosts : host.Elsewhere other)
    (placeless : host.registry.Placeless) (f : Position → Position) (context : Value) :
    (nodes : List Node) → (renderNodes host context nodes).Elsewhere
      (renderNodes other context (relocateAll f nodes))
  | [] => .pure ""
  | node :: rest => by
      rw [relocateAll, renderNodes, renderNodes]
      refine .bind (elsewhere_evaluate hosts placeless f context node) fun v => ?_
      refine .bind (.ofExcept v.text) fun first => ?_
      exact .bind (elsewhere_renderNodes hosts placeless f context rest) fun _ => .pure _

theorem elsewhere_evaluate {host other : Host} (hosts : host.Elsewhere other)
    (placeless : host.registry.Placeless) (f : Position → Position) (context : Value) :
    (node : Node) → (evaluate host context node).Elsewhere
      (evaluate other context (node.relocate f))
  | .raw _ text => by
      rw [Node.relocate, evaluate, evaluate]
      exact .pure _
  | .constant _ v => by
      rw [Node.relocate, evaluate, evaluate]
      exact .pure v
  | .identifier _ path => by
      rw [Node.relocate, evaluate, evaluate]
      exact .ofExcept _
  | .bare _ => by
      rw [Node.relocate, evaluate, evaluate]
      exact .throw rfl
  | .tag p name params body orelse => by
      rw [Node.relocate]
      cases known : host.registry.lookup name with
      | none =>
          have unknown : other.registry.lookup name = none := hosts.registry ▸ known
          rw [evaluate_of_unknown known, evaluate_of_unknown unknown]
          exact .throw (hosts.unplaced_unknownTag name _ _)
      | some entry =>
          have known' : other.registry.lookup name = some entry := hosts.registry ▸ known
          have handled := placeless.of_lookup known f
          rw [evaluate_of_known known, evaluate_of_known known']
          refine .mapErrors (hosts.unplaced_report name _ _) ?_
          refine .bind (elsewhere_evaluateAll hosts placeless f context params) fun values => ?_
          refine .bind (hosts.enterTag _ _) fun _ => ?_
          refine .bind (hosts.run ?_ (handled ⟨name, values, body, orelse, context, p⟩))
            fun object => .ofExcept _
          intro which own
          cases which with
          | body => exact elsewhere_renderBranch hosts placeless f _ body
          | orelse => exact elsewhere_renderBranch hosts placeless f _ orelse

theorem elsewhere_evaluateAll {host other : Host} (hosts : host.Elsewhere other)
    (placeless : host.registry.Placeless) (f : Position → Position) (context : Value) :
    (nodes : List Node) → (evaluateAll host context nodes).Elsewhere
      (evaluateAll other context (relocateAll f nodes))
  | [] => .pure []
  | node :: rest => by
      rw [relocateAll, evaluateAll, evaluateAll]
      refine .bind (elsewhere_evaluate hosts placeless f context node) fun first => ?_
      exact .bind (elsewhere_evaluateAll hosts placeless f context rest) fun _ => .pure _

theorem elsewhere_renderBranch {host other : Host} (hosts : host.Elsewhere other)
    (placeless : host.registry.Placeless) (f : Position → Position) (context : Value) :
    (branch : Option (List Node)) → (renderBranch host context branch).Elsewhere
      (renderBranch other context (relocateBranch f branch))
  | none => .pure ""
  | some nodes => by
      rw [relocateBranch, renderBranch, renderBranch]
      exact elsewhere_renderNodes hosts placeless f context nodes

end

/-! ## Renders -/

namespace Renderer

variable (r : Renderer)

theorem elsewhere_load (path : String) : (r.load path).Elsewhere (r.load path) := by
  refine .bind (.observe _) fun _ => .bind (.ofExcept _) fun found => ?_
  cases found with
  | none => exact .throw rfl
  | some data => exact .pure _

variable {render render' : List UInt8 → Value → String → Run String}
  (renders : ∀ data v label, (render data v label).Elsewhere (render' data v label))

include renders in
theorem elsewhere_host {frame other : Option Frame}
    (frames : frame.map Frame.unplaced = other.map Frame.unplaced) :
    (r.host frame render).Elsewhere (r.host other render') where
  registry := rfl
  frame := frames
  path path v := .bind (r.elsewhere_load path) fun found => renders found.2 v found.1
  source := renders

variable {r} (placeless : r.registry.Placeless) {frame other : Frame}

include placeless

include renders in
/-- A tree that a template is read into is the same wherever the render takes place. -/
theorem elsewhere_renderTreeIn (same : frame.unplaced = other.unplaced) (context : Value)
    (tree : List Node) :
    (r.renderTreeIn frame render context tree).Elsewhere
      (r.renderTreeIn other render' context tree) := by
  have frames : (some frame).map Frame.unplaced = (some other).map Frame.unplaced :=
    congrArg some same
  have hosts := r.elsewhere_host renders frames
  have nodes := elsewhere_renderNodes hosts placeless id context tree
  rw [relocateAll_id] at nodes
  exact .withOwnLine nodes

theorem elsewhere_renderWithin (room : Nat) (same : frame.unplaced = other.unplaced)
    (data : List UInt8) (context : Value) (label : String) :
    (r.renderWithin room frame data context label).Elsewhere
      (r.renderWithin room other data context label) := by
  induction room generalizing frame other data context label with
  | zero =>
      have refused (line line' : Int) :
          Run.Elsewhere (throw (frame.refusal line label) : Run String)
            (throw (other.refusal line' label)) :=
        .throw (Frame.unplaced_refusal same line line' label)
      exact .bind (.treeOf label data) fun _ => .ask refused
  | succ room ih =>
      refine .bind (.treeOf label data) fun tree => ?_
      have nested (line line' : Int) :
          (r.renderTreeIn (frame.child line label) (r.renderWithin room (frame.child line label))
            context tree).Elsewhere
          (r.renderTreeIn (other.child line' label) (r.renderWithin room (other.child line' label))
            context tree) := by
        have child := Frame.unplaced_child same line line' label
        exact elsewhere_renderTreeIn (fun data v label => ih child data v label) placeless child
          context tree
      exact .ask nested

theorem elsewhere_hostIn (same : frame.unplaced = other.unplaced) :
    (r.hostIn frame).Elsewhere (r.hostIn other) := by
  unfold hostIn
  rw [Frame.remaining_of_unplaced same]
  exact r.elsewhere_host (elsewhere_renderWithin placeless _ same) (congrArg some same)

end Renderer

/-! ## Trees that differ in positions -/

/-- The trees are the same once all of their nodes are put in one place. -/
def SameButPositions (tree other : List Node) : Prop :=
  relocateAll (fun _ => .start) tree = relocateAll (fun _ => .start) other

/-- The same result, or errors of one class that name the same tag, with causes of one class. -/
inductive SameOutcome {α : Type} : Except Error α → Except Error α → Prop
  | ok (a : α) : SameOutcome (.ok a) (.ok a)
  | error {e e' : Error} : e.className = e'.className → e.tagName? = e'.tagName? →
      e.cause?.map Error.className = e'.cause?.map Error.className →
      SameOutcome (.error e) (.error e')

theorem SameOutcome.of_mapError {α : Type} {x y : Except Error α}
    (same : x.mapError Error.unplaced = y.mapError Error.unplaced) : SameOutcome x y := by
  cases x with
  | ok a =>
      rw [Run.eq_ok_of_mapError same rfl]
      exact .ok a
  | error e =>
      obtain ⟨e', rfl, reason⟩ := Run.exists_error_of_mapError same rfl
      have cause := congrArg Error.cause? reason
      rw [Error.cause?_unplaced, Error.cause?_unplaced] at cause
      have causes := congrArg (Option.map Error.className) cause
      simp only [Option.map_map, Function.comp_def, Error.className_unplaced] at causes
      refine .error ?_ ?_ causes
      · rw [← e.className_unplaced, reason, e'.className_unplaced]
      · rw [← e.tagName?_unplaced, reason, e'.tagName?_unplaced]

/-- Where the nodes of a tree stand never decides what is rendered, or whether and why it is not. -/
theorem Renderer.sameOutcome_of_sameButPositions (r : Renderer)
    (builtin : r.registry = Builtin.registry) {tree other : List Node}
    (same : SameButPositions tree other) (frame : Frame) (context : Value) (s : State) :
    SameOutcome (renderNodes (r.hostIn frame) context tree s).1
      (renderNodes (r.hostIn frame) context other s).1 := by
  have placeless : r.registry.Placeless := builtin ▸ Builtin.registry_placeless
  have hosts := elsewhere_hostIn placeless (rfl : frame.unplaced = frame.unplaced)
  -- Both trees are compared with the one tree that they become in one place.
  have first := elsewhere_renderNodes hosts placeless (fun _ => .start) context tree
  have second := elsewhere_renderNodes hosts placeless (fun _ => .start) context other
  rw [← same] at second
  exact .of_mapError ((first s s rfl).1.trans (second s s rfl).1.symm)

/-- A loop over a template that calls a tag with too few parameters. -/
def cardsAt (p : Position) : List Node :=
  [.tag p "for" [.constant (p.right 6) (.array [.int 1])]
    (some [.tag p.nextLine "include" [.constant (p.nextLine.right 8) (.string "card")] none none])
    none]

def cardRenderer : Renderer where
  registry := Builtin.registry
  loader := Loader.table [("card.html", Text.Utf8.encode "\x7b\x7b default(name) \x7d\x7d")]
  ending := ".html"
  directory := ""
  limit := 5

/-- The errors are told apart by the line of the inclusion, and by nothing that counts. -/
theorem sameOutcome_cards :
    let cards (p : Position) :=
      (renderNodes (cardRenderer.hostIn (.root "page.html" 5)) .null (cardsAt p) ⟨0, none, []⟩).1
    SameButPositions (cardsAt .start) (cardsAt ⟨7, 4⟩) ∧
      SameOutcome (cards .start) (cards ⟨7, 4⟩) ∧ cards .start ≠ cards ⟨7, 4⟩ ∧
      (cards .start).mapError (fun e => (e.tagName?, e.cause?.map Error.className)) =
        .error (some "default", some "TagContractError") := by
  intro cards
  have same : SameButPositions (cardsAt .start) (cardsAt ⟨7, 4⟩) := rfl
  refine ⟨same, ?_, ?_, ?_⟩
  · exact cardRenderer.sameOutcome_of_sameButPositions rfl same _ _ _
  · decide +kernel
  · decide +kernel

end Templating
