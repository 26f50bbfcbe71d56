import Templating.Proofs.Render.Derivation
import Templating.Proofs.Render.Transparency
import Templating.Proofs.Tag.Order
import Templating.Tag.Extra

/-!
# Renders around a render

The frame of a render tells how many renders are around it and which tag of each began the next one.
Whatever is evaluated in between, frames keep to what takes place: the depth always, and the chain
if handlers render other templates before the branches of their blocks.
-/

namespace Templating

/-! ## Tags of a tree -/

/-- The node stands somewhere in a tree: at the top, among the parameters of a tag or in a
branch. -/
inductive Node.Within (tree : List Node) : Node → Prop
  | top {node : Node} : node ∈ tree → Within tree node
  | param {p : Position} {name : String} {params : List Node} {body orelse : Option (List Node)}
      {node : Node} :
      Within tree (.tag p name params body orelse) → node ∈ params → Within tree node
  | body {p : Position} {name : String} {params nodes : List Node} {orelse : Option (List Node)}
      {node : Node} :
      Within tree (.tag p name params (some nodes) orelse) → node ∈ nodes → Within tree node
  | orelse {p : Position} {name : String} {params nodes : List Node} {body : Option (List Node)}
      {node : Node} :
      Within tree (.tag p name params body (some nodes)) → node ∈ nodes → Within tree node

/-- The tag stands somewhere in a tree. -/
def Invocation.StandsIn (i : Invocation) (tree : List Node) : Prop :=
  ∃ params, Node.Within tree (.tag i.position i.name params i.body i.orelse)

theorem Invocation.StandsIn.branch {i : Invocation} {tree : List Node} (h : i.StandsIn tree)
    (which : Branch) {node : Node} (member : node ∈ (i.branch which).getD []) :
    node.Within tree := by
  obtain ⟨name, values, body, orelse, context, p⟩ := i
  obtain ⟨params, within⟩ := h
  cases which with
  | body =>
      cases body with
      | none => cases member
      | some nodes => exact .body within member
  | orelse =>
      cases orelse with
      | none => cases member
      | some nodes => exact .orelse within member

/-! ## Lines -/

namespace Run

/-- The line of the current render is the same afterwards. -/
def KeepsLine {α : Type} (action : Run α) : Prop := ∀ s, (action s).2.line = s.line

theorem KeepsLine.bind {α β : Type} {action : Run α} {next : α → Run β} (h : action.KeepsLine)
    (h' : ∀ a, (next a).KeepsLine) : (action >>= next).KeepsLine := by
  intro s
  have first := h s
  rcases action.ok_or_error s with ⟨a, mid, ran⟩ | ⟨e, mid, ran⟩
  · rw [ran] at first
    rw [bind_of_ok ran, h' a mid, first]
  · rw [ran] at first
    rw [bind_of_error ran, first]

theorem keepsLine_pure {α : Type} (a : α) : (pure a : Run α).KeepsLine := fun _ => rfl

theorem keepsLine_ofExcept {α : Type} (result : Except Error α) : (ofExcept result).KeepsLine := by
  intro s
  rw [ofExcept_apply]

end Run

namespace Renderer

theorem keepsLine_treeOf (label : String) (data : List UInt8) : (treeOf label data).KeepsLine := by
  intro s
  cases h : s.cache with
  | none => rw [treeOf_of_none h, read_apply]
  | some cache =>
      cases found : cache.find? (Digest.text data) with
      | some tree => rw [treeOf_of_hit h found]
      | none =>
          rw [treeOf_of_miss h found]
          cases Template.parse label data <;> rfl

theorem keepsLine_fetch (r : Renderer) (target : Target) : (r.fetch target).KeepsLine := by
  refine .bind ?_ fun found => ?_
  · cases target with
    | source data label => exact Run.keepsLine_pure _
    | path path =>
        refine .bind (fun _ => rfl) fun _ => .bind (Run.keepsLine_ofExcept _) fun found => ?_
        cases found with
        | none => exact fun _ => rfl
        | some data => exact Run.keepsLine_pure _
  · exact (keepsLine_treeOf found.1 found.2).bind fun tree => Run.keepsLine_pure _

end Renderer

theorem Evaluates.line_of_render {r : Renderer} {current : Option (Place × Invocation)}
    {target : Target} {context : Value} {s after : State} {result : Except Error String}
    {trace : List Incident}
    (h : Evaluates r (.render current target context) s result after trace) :
    after.line = s.line := by
  have kept := r.keepsLine_fetch target s
  cases h with
  | render_fails failed | render_refused failed | render failed =>
      rw [failed] at kept
      exact kept

/-! ## Frames and what they stand for -/

/-- The tree is one that the renderer finds under the label. -/
def Renderer.Finds (r : Renderer) (label : String) (tree : List Node) : Prop :=
  ∃ target s after, r.fetch target s = (.ok (label, tree), after)

theorem Frame.chainAt_of_label {f : Frame} {label : String} (same : f.label = some label)
    (labelled : label ≠ "") (line : Int) : f.chainAt line = f.chain ++ [(label, line)] := by
  unfold chainAt
  rw [same]
  split
  · next absent => cases absent
  · next empty => exact absurd (Option.some.inj empty) labelled
  · next same => rw [Option.some.inj same]

/-- The frame of a place says what is recorded of it. -/
structure Place.Sound (r : Renderer) (place : Place) : Prop where
  label : place.frame.label = some place.label
  depth : place.frame.depth = place.enclosing.length
  limit : place.frame.limit = r.limit
  bounded : (place.enclosing.length : Int) ≤ max 0 r.limit
  found : r.Finds place.label place.tree
  enclosed : ∀ e ∈ place.enclosing, r.Finds e.label e.tree ∧ e.tag.StandsIn e.tree
  chain : r.registry.RendersFirst → (∀ e ∈ place.enclosing, e.label ≠ "") →
    place.frame.chain = place.enclosing.map fun e => (e.label, e.tag.position.line)

theorem Place.sound_root {r : Renderer} {label : String} {tree : List Node}
    (found : r.Finds label tree) :
    Place.Sound r ⟨Frame.root label r.limit, label, tree, around none⟩ where
  label := rfl
  depth := rfl
  limit := rfl
  bounded := Int.le_max_left 0 r.limit
  found := found
  enclosed := by simp [around]
  chain _ _ := rfl

/-- The frame that a tag enters while the render is at the line of the tag. -/
theorem Place.Sound.child {r : Renderer} {place : Place} (sound : place.Sound r) {tag : Invocation}
    (stands : tag.StandsIn place.tree) {line : Int}
    (current : r.registry.RendersFirst → line = tag.position.line)
    (free : place.frame.isFull = false) {label : String} {tree : List Node}
    (found : r.Finds label tree) :
    Place.Sound r ⟨place.frame.child line label, label, tree, around (some (place, tag))⟩ where
  label := rfl
  depth := by simp [Frame.child, around, sound.depth]
  limit := sound.limit
  bounded := by
    have room : place.frame.depth < place.frame.limit := by simpa [Frame.isFull] using free
    rw [sound.depth, sound.limit] at room
    simp only [around, List.length_append, List.length_singleton]
    omega
  found := found
  enclosed e member := by
    rcases List.mem_append.1 member with old | new
    · exact sound.enclosed e old
    · rw [List.mem_singleton.1 new]
      exact ⟨sound.found, stands⟩
  chain first labelled := by
    have own : place.label ≠ "" := labelled ⟨place.label, place.tree, tag⟩ (by simp [around])
    have old := sound.chain first fun e member => labelled e (List.mem_append_left _ member)
    simp only [Frame.child, around, List.map_append]
    rw [Frame.chainAt_of_label sound.label own, old, current first]
    rfl

theorem Place.Sound.enter {r : Renderer} {current : Option (Place × Invocation)}
    {label : String} {frame : Frame} {line : Int}
    (around_sound : ∀ place tag, current = some (place, tag) → place.Sound r ∧
      tag.StandsIn place.tree ∧ (r.registry.RendersFirst → line = tag.position.line))
    (entered : Frame.enter (current.map fun c => (c.1.frame, line)) label r.limit = .ok frame)
    {tree : List Node} (found : r.Finds label tree) :
    Place.Sound r ⟨frame, label, tree, around current⟩ := by
  cases current with
  | none =>
      cases entered
      exact sound_root found
  | some c =>
      obtain ⟨place, tag⟩ := c
      obtain ⟨sound, stands, line⟩ := around_sound place tag rfl
      cases free : place.frame.isFull with
      | true =>
          rw [Option.map_some, Frame.enter_of_isFull free] at entered
          cases entered
      | false =>
          rw [Option.map_some, Frame.enter_of_free free] at entered
          cases entered
          exact sound.child stands line free found

/-! ## What takes place -/

def Incident.Sound (r : Renderer) : Incident → Prop
  | begins place => place.Sound r
  | starts place line tag =>
    place.Sound r ∧ tag.StandsIn place.tree ∧ line = tag.position.line

/-- A task that comes up in a sound place. -/
def Task.Ready (r : Renderer) : {k : Task.Kind} → Task k → State → Prop
  | _, .root .., _ => True
  | _, .render current _ _, s =>
    ∀ place tag, current = some (place, tag) → place.Sound r ∧ tag.StandsIn place.tree ∧
      (r.registry.RendersFirst → s.line = tag.position.line)
  | _, .nodes place _ tree, _ => place.Sound r ∧ ∀ node ∈ tree, node.Within place.tree
  | _, .node place _ single, _ => place.Sound r ∧ single.Within place.tree
  | _, .all place _ params, _ => place.Sound r ∧ ∀ node ∈ params, node.Within place.tree
  | _, .plan place tag steps, s => place.Sound r ∧ tag.StandsIn place.tree ∧
    (r.registry.RendersFirst → steps.Quiet ∨ s.line = tag.position.line ∧ steps.RendersFirst)

theorem Evaluates.sound {r : Renderer} {k : Task.Kind} {task : Task k} {s after : State}
    {result : Except Error k.Result} {trace : List Incident}
    (h : Evaluates r task s result after trace) (ready : task.Ready r s) :
    ∀ incident ∈ trace, incident.Sound r := by
  induction h with
  | root_fails | render_fails | render_refused | nil | raw | constant | identifier | bare
  | tag_unknown | all_nil | done | fail => exact fun _ member => nomatch member
  | root _ _ ih => exact ih fun _ _ absent => nomatch absent
  | @render _ target _ s _ _ _ tree _ _ _ fetched entered _ ih =>
      have kept := r.keepsLine_fetch target s
      rw [fetched] at kept
      have sound := Place.Sound.enter (fun place tag same => by
        obtain ⟨sound, stands, line⟩ := ready place tag same
        exact ⟨sound, stands, fun first => kept.trans (line first)⟩) entered ⟨target, s, _, fetched⟩
      exact List.forall_mem_cons.2 ⟨sound, ih ⟨sound, fun node member => .top member⟩⟩
  | cons_fails _ ih | cons_textless _ _ ih | all_fails _ ih =>
      exact ih ⟨ready.1, ready.2 _ List.mem_cons_self⟩
  | cons _ _ _ ih ih' | all_cons _ _ ih ih' =>
      obtain ⟨sound, within⟩ := ready
      have first := ih ⟨sound, within _ List.mem_cons_self⟩
      have others := ih' ⟨sound, fun node member => within node (List.mem_cons_of_mem _ member)⟩
      exact List.forall_mem_append.2 ⟨first, others⟩
  | tag_fails _ _ ih => exact ih ⟨ready.1, fun node member => .param ready.2 member⟩
  | @tag place context p name params body orelse _ values _ _ _ _ _ _ known _ _ ih ih' =>
      obtain ⟨sound, within⟩ := ready
      have before := ih ⟨sound, fun node member => .param within member⟩
      have stands : Invocation.StandsIn ⟨name, values, body, orelse, context, p⟩ place.tree :=
        ⟨params, within⟩
      have later := ih' ⟨sound, stands, fun first => .inr ⟨rfl, first.of_lookup known _⟩⟩
      exact List.forall_mem_append.2 ⟨before, List.forall_mem_cons.2 ⟨⟨sound, stands, rfl⟩, later⟩⟩
  | note _ ih => exact ih ready
  | ask _ ih =>
      obtain ⟨sound, stands, order⟩ := ready
      refine ih ⟨sound, stands, fun first => ?_⟩
      rcases order first with quiet | ⟨line, renders⟩
      · exact .inl (quiet _)
      · exact .inr ⟨line, renders _⟩
  | @branch_fails _ _ which _ _ _ _ _ _ _ ih =>
      exact ih ⟨ready.1, fun node member => ready.2.1.branch which member⟩
  | @branch _ _ which _ _ _ _ _ text _ _ _ _ _ ih ih' =>
      obtain ⟨sound, stands, order⟩ := ready
      have nodes := ih ⟨sound, fun node member => stands.branch which member⟩
      -- The line is another one from here on, but nothing is rendered any more.
      have later := ih' ⟨sound, stands, fun first => .inl (by
        rcases order first with quiet | ⟨-, renders⟩
        · exact quiet.2 text
        · exact renders text)⟩
      exact List.forall_mem_append.2 ⟨nodes, later⟩
  | path_fails _ ih | source_fails _ ih =>
      obtain ⟨sound, stands, order⟩ := ready
      refine ih ?_
      rintro _ _ ⟨⟩
      exact ⟨sound, stands, fun first => ((order first).resolve_left And.left).1⟩
  | @path _ _ _ _ _ _ _ _ text _ _ _ render _ ih ih'
  | @source _ _ _ _ _ _ _ _ _ text _ _ _ render _ ih ih' =>
      obtain ⟨sound, stands, order⟩ := ready
      have inner := ih (by
        rintro _ _ ⟨⟩
        exact ⟨sound, stands, fun first => ((order first).resolve_left And.left).1⟩)
      have kept := render.line_of_render
      have later := ih' ⟨sound, stands, fun first => by
        obtain ⟨line, renders⟩ := (order first).resolve_left And.left
        exact .inr ⟨kept.trans line, renders text⟩⟩
      exact List.forall_mem_append.2 ⟨inner, later⟩

namespace Session

/-- Every render comes to an end, whatever the templates render within each other: there is one
finite evaluation of it, and no chain of nested renders in it is longer than the limit allows. -/
theorem renderRun_terminates (r : Renderer) (target : Target) (context : Object) (s : State) :
    ∃ trace,
      (∀ result after others, Evaluates r (.root target context) s result after others ↔
        (result, after) = renderRun r target context s ∧ others = trace) ∧
      ∀ place, .begins place ∈ trace → (place.enclosing.length : Int) ≤ max 0 r.limit := by
  obtain ⟨trace, evaluates⟩ := derivable_root r target context s _ _ rfl
  refine ⟨trace, fun result after others => ⟨fun other => ?_, ?_⟩, fun place member => ?_⟩
  · obtain ⟨rfl, rfl, rfl⟩ := evaluates.unique other
    exact ⟨rfl, rfl⟩
  · rintro ⟨same, rfl⟩
    obtain ⟨rfl, rfl⟩ := Prod.mk.inj same
    exact evaluates
  · have sound : Place.Sound r place := evaluates.sound trivial _ member
    exact sound.bounded

/-- When a handler starts, the frame of the current render is the one of the template that holds the
tag, and tells which renders are around it and where each of them began the next. -/
theorem starts_in_frame {r : Renderer} (first : r.registry.RendersFirst) (target : Target)
    (context : Object) (s : State) :
    ∃ trace,
      Evaluates r (.root target context) s (renderRun r target context s).1
        (renderRun r target context s).2 trace ∧
      ∀ place line tag, .starts place line tag ∈ trace →
        r.Finds place.label place.tree ∧ tag.StandsIn place.tree ∧
        place.frame.label = some place.label ∧ line = tag.position.line ∧
        place.frame.depth = place.enclosing.length ∧ place.frame.limit = r.limit ∧
        (∀ e ∈ place.enclosing, r.Finds e.label e.tree ∧ e.tag.StandsIn e.tree) ∧
        ((∀ e ∈ place.enclosing, e.label ≠ "") →
          place.frame.chain = place.enclosing.map fun e => (e.label, e.tag.position.line)) := by
  obtain ⟨trace, evaluates⟩ := derivable_root r target context s _ _ rfl
  refine ⟨trace, evaluates, fun place line tag member => ?_⟩
  obtain ⟨sound, stands, here⟩ : Incident.Sound r (.starts place line tag) :=
    evaluates.sound trivial _ member
  exact ⟨sound.found, stands, sound.label, here, sound.depth, sound.limit, sound.enclosed,
    sound.chain first⟩

/-- The built-in tags, and one that shows where it is. -/
def watchedRegistry : Registry :=
  ⟨("where", Builtin.function "where" Extra.whereabouts) :: Builtin.entries⟩

theorem watchedRegistry_rendersFirst : watchedRegistry.RendersFirst := by
  refine List.forall_mem_cons.2 ⟨fun i current => ?_, Builtin.registry_rendersFirst⟩
  cases current <;> trivial

/-- A page that renders an aside and then, on its third line and within a block, a part. -/
def watchedRenderer : Renderer where
  registry := watchedRegistry
  loader := Loader.table
    [("/page", Text.Utf8.encode ("\x7b% include('/aside') %\x7d\n\x7b% #if 1 %\x7d\n" ++
        "\x7b% include('/part') %\x7d\x7b% /if %\x7d")),
      ("/part", Text.Utf8.encode "\n\x7b% include(default('/aside', where())) %\x7d"),
      ("/aside", Text.Utf8.encode "\x7b% where %\x7d")]
  ending := ""
  directory := ""
  limit := 3

theorem starts_in_watchedRenderer :
    watchedRegistry.RendersFirst ∧ ∃ trace,
      Evaluates watchedRenderer (.root (.path "/page") Object.none) ⟨0, none, []⟩
        (renderRun watchedRenderer (.path "/page") Object.none ⟨0, none, []⟩).1
        (renderRun watchedRenderer (.path "/page") Object.none ⟨0, none, []⟩).2 trace ∧
      ∀ place line tag, .starts place line tag ∈ trace →
        tag.StandsIn place.tree ∧ line = tag.position.line ∧ place.frame.limit = 3 := by
  obtain ⟨trace, evaluates, starts⟩ := starts_in_frame (r := watchedRenderer)
    watchedRegistry_rendersFirst (.path "/page") Object.none ⟨0, none, []⟩
  refine ⟨watchedRegistry_rendersFirst, trace, evaluates, fun place line tag member => ?_⟩
  obtain ⟨-, stands, -, here, -, limit, -⟩ := starts place line tag member
  exact ⟨stands, here, limit⟩

example : (renderRun watchedRenderer (.path "/page") Object.none ⟨0, none, []⟩).1.toOption =
    some "/aside@1/3:1[/page:1]\n\n\n/aside@2/3:1[/page:3,/part:2]" := by decide +kernel

end Session

end Templating
