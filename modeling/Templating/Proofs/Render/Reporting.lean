import Templating.Proofs.Render.Arising
import Templating.Proofs.Render.Enclosing

/-!
# Which tag reports a failure

The tag where a failure arises reports it with its own name and line and with the label of the
template that holds it, and none of the tags and renders around it makes another error of it.  A
tag stands in the tree of the place that it is evaluated in, and that tree is the one that
evaluation began with or one that the renderer has found.
-/

namespace Templating

/-! ## Places that evaluation comes to -/

/-- The places that evaluation comes to when it is begun in certain ones: a render outside of any
other, and one that a tag begins in a place come to before. -/
inductive Reached (r : Renderer) (begun : Option Place → Prop) : Option Place → Prop
  | begun {place : Option Place} : begun place → Reached r begun place
  | outermost {label : String} {tree : List Node} :
      r.Finds label tree →
      Reached r begun (some ⟨Frame.root label r.limit, label, tree, around none⟩)
  | inner {place : Place} {tag : Invocation} {entry : TagEntry} {line : Int} {label : String}
      {tree : List Node} :
      Reached r begun (some place) → tag.StandsIn place.tree →
      r.registry.lookup tag.name = some entry →
      (entry.RendersFirst → line = tag.position.line) → r.Finds label tree →
      Reached r begun
        (some ⟨place.frame.child line label, label, tree, around (some (place, tag))⟩)

/-- The tree of a template, or outside of any render the given one. -/
def treeAt (tree : List Node) (place : Option Place) : List Node :=
  (place.map Place.tree).getD tree

def Occurrence.StandsIn (tree : List Node) (o : Occurrence) : Prop :=
  o.node.Within (treeAt tree o.place)

/-- A render that the tag begins now. -/
structure Begins (r : Renderer) (begun : Option Place → Prop) (place : Place) (tag : Invocation)
    (entry : TagEntry) (line : Int) : Prop where
  reached : Reached r begun (some place)
  stands : tag.StandsIn place.tree
  known : r.registry.lookup tag.name = some entry
  line : entry.RendersFirst → line = tag.position.line

theorem Reached.enter {r : Renderer} {begun : Option Place → Prop}
    {current : Option (Place × Invocation)} {label : String} {frame : Frame} {line : Int}
    (begins : ∀ place tag, current = some (place, tag) →
      ∃ entry, Begins r begun place tag entry line)
    (entered : Frame.enter (current.map fun c => (c.1.frame, line)) label r.limit = .ok frame)
    {tree : List Node} (found : r.Finds label tree) :
    Reached r begun (some ⟨frame, label, tree, around current⟩) := by
  cases current with
  | none =>
      cases entered
      exact .outermost found
  | some c =>
      obtain ⟨place, tag⟩ := c
      obtain ⟨entry, begins⟩ := begins place tag rfl
      cases free : place.frame.isFull with
      | true =>
          rw [Option.map_some, Frame.enter_of_isFull free] at entered
          cases entered
      | false =>
          rw [Option.map_some, Frame.enter_of_free free] at entered
          cases entered
          exact .inner begins.reached begins.stands begins.known begins.line found

namespace Reached

variable {r : Renderer} {begun : Option Place → Prop} {current : Option Place}

theorem label (h : Reached r begun current)
    (labelled : ∀ place, begun (some place) → place.frame.label = some place.label) :
    ∀ place, current = some place → place.frame.label = some place.label := by
  cases h with
  | begun start =>
      rintro place rfl
      exact labelled place start
  | outermost | inner =>
      rintro place ⟨⟩
      rfl

theorem found (h : Reached r begun current) :
    ∀ place, current = some place → begun (some place) ∨ r.Finds place.label place.tree := by
  cases h with
  | begun start =>
      rintro place rfl
      exact .inl start
  | outermost found | inner _ _ _ _ found =>
      rintro place ⟨⟩
      exact .inr found

end Reached

/-! ## Failures are located -/

/-- Work that comes up in a place that evaluation comes to. -/
def Work.Ready (r : Renderer) (begun : Option Place → Prop) (tree : List Node) :
    Work → State → Prop
  | .root .., _ => True
  | .render current _ _, s =>
    ∀ place tag, current = some (place, tag) → ∃ entry, Begins r begun place tag entry s.line
  | .nodes place _ list, _ =>
    Reached r begun place ∧ ∀ node ∈ list, node.Within (treeAt tree place)
  | .node place _ single, _ => Reached r begun place ∧ single.Within (treeAt tree place)
  | .all place _ params, _ =>
    Reached r begun place ∧ ∀ node ∈ params, node.Within (treeAt tree place)
  | .plan place tag steps, s =>
    Reached r begun place ∧ tag.StandsIn (treeAt tree place) ∧
      ∃ entry, r.registry.lookup tag.name = some entry ∧
        (entry.RendersFirst →
          steps.Quiet ∨ (place.isSome → s.line = tag.position.line) ∧ steps.RendersFirst)

/-- A tag at which a failure arises with an error. -/
structure Occurrence.Located (r : Renderer) (begun : Option Place → Prop) (tree : List Node)
    (e : Error) (o : Occurrence) : Prop where
  reached : Reached r begun o.place
  stands : o.StandsIn tree
  unknown : r.registry.lookup o.name = none →
    e = (r.hostAt o.place).unknownTag o.name o.position.line

theorem Renderer.line_of_renderIn {r : Renderer} {current : Option Frame} {target : Target}
    {context : Value} {s after : State} {text : String}
    (rendered : r.renderIn current target context s = (.ok text, after)) :
    after.line = s.line := by
  have kept : (r.renderIn current target context).KeepsLine := by
    refine (r.keepsLine_fetch target).bind fun found => ?_
    refine Run.KeepsLine.bind (fun _ => rfl) fun s => ?_
    exact (Run.keepsLine_ofExcept _).bind fun frame _ => rfl
  have line := kept s
  rw [rendered] at line
  exact line

theorem forall_eq_some_or {P : Occurrence → Prop} {inner : Option Occurrence} {o : Occurrence}
    (within : ∀ i, inner = some i → P i) (own : P o) :
    ∀ i, inner.or (some o) = some i → P i := by
  cases inner with
  | none =>
      rintro i ⟨⟩
      exact own
  | some inner => exact within

theorem Arises.located {r : Renderer} {begun : Option Place → Prop} {tree : List Node}
    {work : Work} {s : State} {o : Option Occurrence} {e : Error} (h : Arises r work s o e)
    (ready : work.Ready r begun tree s) : ∀ i, o = some i → i.Located r begun tree e := by
  induction h with
  | context | refused | textless | identifier | bare | fail => exact fun _ absent => nomatch absent
  | root _ _ ih => exact ih fun _ _ absent => nomatch absent
  | @render _ target _ s _ _ _ _ _ _ fetched entered _ ih =>
      have kept := r.keepsLine_fetch target s
      rw [fetched] at kept
      have reached := Reached.enter (fun place tag same => by
        rw [kept]
        exact ready place tag same) entered ⟨target, s, _, fetched⟩
      exact ih ⟨reached, fun node member => .top member⟩
  | first _ ih | all_first _ ih => exact ih ⟨ready.1, ready.2 _ List.mem_cons_self⟩
  | later _ _ _ ih | all_later _ _ ih =>
      exact ih ⟨ready.1, fun node member => ready.2 node (List.mem_cons_of_mem _ member)⟩
  | unknown =>
      rintro _ ⟨⟩
      exact ⟨ready.1, ready.2, fun _ => rfl⟩
  | params known _ ih =>
      refine forall_eq_some_or (ih ⟨ready.1, fun node member => .param ready.2 member⟩) ?_
      exact ⟨ready.1, ready.2, fun unknown => nomatch known.symm.trans unknown⟩
  | @handler o _ entry values _ mid _ _ known _ _ ih =>
      refine forall_eq_some_or (ih ?_) ?_
      · refine ⟨ready.1, ⟨o.params, ready.2⟩, entry, known, fun first => .inr ⟨?_, first _⟩⟩
        intro inside
        rw [State.atTag, if_pos inside]
        rfl
      · exact ⟨ready.1, ready.2, fun unknown => nomatch known.symm.trans unknown⟩
  | result known =>
      rintro _ ⟨⟩
      exact ⟨ready.1, ready.2, fun unknown => nomatch known.symm.trans unknown⟩
  | note _ ih => exact ih ready
  | ask _ ih =>
      obtain ⟨reached, stands, entry, known, order⟩ := ready
      refine ih ⟨reached, stands, entry, known, fun first => ?_⟩
      rcases order first with quiet | ⟨line, renders⟩
      · exact .inl (quiet _)
      · exact .inr ⟨line, renders _⟩
  | @branch _ _ which _ _ _ _ _ _ ih =>
      exact ih ⟨ready.1, fun node member => ready.2.1.branch which member⟩
  | @branch_later _ _ _ _ _ text _ _ _ _ _ _ ih =>
      obtain ⟨reached, stands, entry, known, order⟩ := ready
      -- The line is another one from here on, but nothing is rendered any more.
      refine ih ⟨reached, stands, entry, known, fun first => .inl ?_⟩
      rcases order first with quiet | ⟨-, renders⟩
      · exact quiet.2 text
      · exact renders text
  | path _ ih | source _ ih =>
      obtain ⟨reached, stands, entry, known, order⟩ := ready
      refine ih fun place tag same => ?_
      obtain ⟨place, rfl, ⟨⟩⟩ := Option.map_eq_some_iff.1 same
      refine ⟨entry, reached, stands, known, fun first => ?_⟩
      exact ((order first).resolve_left And.left).1 rfl
  | @path_later _ _ _ text _ _ _ _ _ _ rendered _ ih
  | @source_later _ _ _ _ _ text _ _ _ _ _ rendered _ ih =>
      obtain ⟨reached, stands, entry, known, order⟩ := ready
      have kept := Renderer.line_of_renderIn rendered
      refine ih ⟨reached, stands, entry, known, fun first => .inr ?_⟩
      obtain ⟨line, renders⟩ := (order first).resolve_left And.left
      exact ⟨fun inside => kept.trans (line inside), renders text⟩

/-! ## The innermost tag reports -/

theorem Renderer.hostAt_label (r : Renderer) {current : Option Place}
    (labelled : ∀ place, current = some place → place.frame.label = some place.label) :
    (r.hostAt current).label = current.map Place.label := by
  cases current with
  | none => rfl
  | some place => exact labelled place rfl

theorem Builtin.inclusion_eq {i : Invocation} {v : Value} {path : String} (params : i.params = [v])
    (inline : i.body = none) (shown : v.text = .ok path) :
    Builtin.inclusion i = .path path i.context fun text => .done (Builtin.text text) := by
  have counted : i.requireCount 1 none = .done () := by simp [Invocation.requireCount, params]
  have closed : i.requireNoBody = .done () := by simp [Invocation.requireNoBody, inline]
  have given : i.param 0 = .done v := by simp [Invocation.param, params]
  rw [inclusion, counted, closed, given]
  change (Plan.ofExcept v.text).bind _ = _
  rw [shown]
  rfl

/-- What an inclusion cannot begin to render is a failure of the inclusion. -/
theorem Arises.of_inclusion {r : Renderer} {o : Occurrence} {entry : TagEntry} {context v : Value}
    {path : String} {s mid : State} {e : Error} (known : r.registry.lookup o.name = some entry)
    (includes : entry.handler = Builtin.inclusion) (inline : o.body = none)
    (evaluated : evaluateAll (r.hostAt o.place) context o.params s = (.ok [v], mid))
    (shown : v.text = .ok path)
    (refuses : r.Refuses (o.place.map Place.frame) (.path path) (mid.atTag o.place o.position.line)
      e) :
    Arises r (.node o.place context o.node) s (some o) e := by
  refine @Arises.handler r o context entry [v] s mid none e known evaluated ?_
  rw [includes, Builtin.inclusion_eq (v := v) rfl inline shown]
  refine .path (.refused ?_)
  rw [Option.map_map]
  exact refuses

theorem Arises.exists_tag {r : Renderer} {o : Occurrence} {context : Value} {s : State}
    {inner : Option Occurrence} {e : Error}
    (h : Arises r (.node o.place context o.node) s inner e) : ∃ i, inner = some i := by
  generalize tagged : Work.node o.place context o.node = work at h
  cases h with
  | unknown | result => exact ⟨_, rfl⟩
  | @params _ _ _ _ inner | @handler _ _ _ _ _ _ inner =>
      cases inner with
      | none => exact ⟨_, rfl⟩
      | some i => exact ⟨i, rfl⟩
  | _ => simp [Occurrence.node] at tagged

theorem Renderer.fails_fetch_of_missing {r : Renderer} {path : String}
    (missing : r.loader (r.resolve path) = .ok none) (s : State) :
    (r.fetch (.path path)).Fails s (.notFound (r.resolve path)) := by
  refine (Run.fails_bind_iff _ _).2 (.inl ?_)
  rw [locate, load, Run.fails_bind_of_ok (Run.observe_apply _ s), missing,
    Run.fails_bind_of_ok (Run.ofExcept_apply _ _), Run.fails_throw_iff]

/-- A renderer that finds no template. -/
def lonelyRenderer : Renderer where
  registry := Builtin.registry
  loader := Loader.table []
  ending := ".html"
  directory := ""
  limit := Frame.defaultLimit

def inclusionNode : Node :=
  .tag ⟨2, 3⟩ "include" [.constant ⟨2, 11⟩ (.string "nowhere")] none none

def conditionNode : Node :=
  .tag ⟨1, 0⟩ "if" [.constant ⟨1, 7⟩ (.bool true)] (some [inclusionNode]) none

def lonelyPlace : Place :=
  ⟨Frame.root "page" Frame.defaultLimit, "page", [conditionNode], []⟩

def lonelyCondition : Occurrence where
  place := some lonelyPlace
  position := ⟨1, 0⟩
  name := "if"
  params := [.constant ⟨1, 7⟩ (.bool true)]
  body := some [inclusionNode]
  orelse := none

def lonelyInclusion : Occurrence where
  place := some lonelyPlace
  position := ⟨2, 3⟩
  name := "include"
  params := [.constant ⟨2, 11⟩ (.string "nowhere")]
  body := none
  orelse := none

/-- An object whose attribute raises the error of an unknown tag, of its own making. -/
def trespassingGraph : Graph where
  node
    | 0 => .custom "t" true [("x", .error (.unknownTag "get" [] { }))] none
    | _ => .null

def trespassingContext : Value := .dictionary [("thing", .foreign (trespassingGraph.toForeign 0))]

def trespassingNode : Node :=
  .tag ⟨1, 0⟩ "get" [.identifier ⟨1, 3⟩ [.key "thing", .key "x"]] none none

def trespasser : Occurrence where
  place := some ⟨Frame.root "page" Frame.defaultLimit, "page", [trespassingNode], []⟩
  position := ⟨1, 0⟩
  name := "get"
  params := [.identifier ⟨1, 3⟩ [.key "thing", .key "x"]]
  body := none
  orelse := none

end Templating
