import Mathlib
import Templating.Proofs.Render.Reporting

/-!
# The renders around a failure

Templates include each other, and a failure in the innermost one is reported with the chain of the
renders around it: the label of each, outermost first, and the line of the tag that includes the
next.  An unknown tag is the exception: its report says where it stands, but its chain is empty
whatever is around it.
-/

namespace Templating

/-- The tag includes another template. -/
def Renderer.Includes (r : Renderer) (tag : Invocation) : Prop :=
  ∃ entry, r.registry.lookup tag.name = some entry ∧ entry.handler = Builtin.inclusion

theorem Renderer.Includes.rendersFirst {r : Renderer} {tag : Invocation} (h : r.Includes tag)
    {entry : TagEntry} (known : r.registry.lookup tag.name = some entry) : entry.RendersFirst := by
  obtain ⟨other, known', includes⟩ := h
  cases known.symm.trans known'
  intro i
  rw [includes]
  exact Plan.rendersFirst_of_no_branch (Builtin.confined_inclusion i)

/-- A place that a session comes to: its frame says what is recorded of it, the chain if the renders
around it were begun by inclusions. -/
structure Place.Traced (r : Renderer) (place : Place) : Prop where
  label : place.frame.label = some place.label
  found : r.Finds place.label place.tree
  enclosed : ∀ e ∈ place.enclosing, r.Finds e.label e.tree ∧ e.tag.StandsIn e.tree
  chain : (∀ e ∈ place.enclosing, e.label ≠ "" ∧ r.Includes e.tag) →
    place.frame.chain = place.enclosing.map fun e => (e.label, e.tag.position.line)

theorem Place.traced_outermost {r : Renderer} {label : String} {tree : List Node}
    (found : r.Finds label tree) :
    Place.Traced r ⟨Frame.root label r.limit, label, tree, around none⟩ where
  label := rfl
  found := found
  enclosed := by simp [around]
  chain _ := rfl

theorem Place.Traced.inner {r : Renderer} {place : Place} (traced : place.Traced r)
    {tag : Invocation} (stands : tag.StandsIn place.tree) {line : Int}
    (current : r.Includes tag → line = tag.position.line) {label : String} {tree : List Node}
    (found : r.Finds label tree) :
    Place.Traced r ⟨place.frame.child line label, label, tree, around (some (place, tag))⟩ where
  label := rfl
  found := found
  enclosed := List.forall_mem_append.2
    ⟨traced.enclosed, List.forall_mem_singleton.2 ⟨traced.found, stands⟩⟩
  chain included := by
    obtain ⟨old, own⟩ := List.forall_mem_append.1 included
    obtain ⟨labelled, includes⟩ := List.forall_mem_singleton.1 own
    simp only [Frame.child, around, List.map_append]
    rw [Frame.chainAt_of_label traced.label labelled, traced.chain old, current includes]
    rfl

theorem Reached.traced {r : Renderer} {current : Option Place}
    (h : Reached r (fun _ => False) current) : ∃ place, current = some place ∧ place.Traced r := by
  induction h with
  | begun never => exact never.elim
  | outermost found => exact ⟨_, rfl, Place.traced_outermost found⟩
  | inner _ stands known line found ih =>
      obtain ⟨_, ⟨⟩, traced⟩ := ih
      have current := fun includes : r.Includes _ => line (includes.rendersFirst known)
      exact ⟨_, rfl, traced.inner stands current found⟩

/-- Whatever fails at a tag within templates that include each other is reported with all of them,
but an unknown tag is reported with none. -/
theorem renderRun_reports_chain {r : Renderer} {target : Target} {context : Object} {s : State}
    {o : Occurrence} {cause : Error} (arises : Arises r (.root target context) s (some o) cause) :
    ∃ place, o.place = some place ∧ o.node.Within place.tree ∧ r.Finds place.label place.tree ∧
      (∀ e ∈ place.enclosing, r.Finds e.label e.tree ∧ e.tag.StandsIn e.tree) ∧
      ((∀ e ∈ place.enclosing, e.label ≠ "" ∧ r.Includes e.tag) → cause.namesTag = false →
        (Session.renderRun r target context).Fails s
          (.tagFailed o.name cause
            { template := some place.label, line := some o.position.line
              chain := place.enclosing.map fun e => (e.label, e.tag.position.line) })) ∧
      (r.registry.lookup o.name = none →
        (Session.renderRun r target context).Fails s
          (.unknownTag o.name r.registry.names
            { template := some place.label, line := some o.position.line, chain := [] })) := by
  have fails := arises.fails
  have ready : Work.Ready r (fun _ => False) [] (.root target context) s := trivial
  obtain ⟨reached, stands, unknown⟩ := arises.located ready o rfl
  obtain ⟨place, at_place, traced⟩ := reached.traced
  rw [Occurrence.StandsIn, at_place] at stands
  rw [at_place] at unknown
  have label : (r.hostAt (some place)).label = some place.label := traced.label
  refine ⟨place, at_place, stands, traced.found, traced.enclosed, fun included plain => ?_,
    fun absent => ?_⟩
  · have chain : (r.hostAt (some place)).chain = _ := traced.chain included
    rw [Renderer.reported_of_plain plain, at_place, Host.site, label, chain] at fails
    exact fails
  · rw [unknown absent, Renderer.reported_of_namesTag rfl, Host.unknownTag, label,
      Renderer.hostAt_registry] at fails
    exact fails

/-! ## A page, a part and a leaf -/

theorem Renderer.fetch_of_parse {r : Renderer} {path label : String} {data : List UInt8}
    {tree : List Node} {s : State} (resolved : r.resolve path = label)
    (found : r.loader label = .ok (some data)) (parsed : Template.parse label data = .ok tree)
    (uncached : s.cache = none) :
    ∃ after, r.fetch (.path path) s = (.ok (label, tree), after) ∧ after.line = s.line ∧
      after.cache = none := by
  let looked : State := { s with journal := .loaded label :: s.journal }
  let read : State := { looked with journal := .parsed label data :: looked.journal }
  have located : r.locate (.path path) s = (.ok (label, data), looked) := by
    rw [locate, load, resolved, Run.bind_of_ok (Run.observe_apply _ s), found,
      Run.bind_of_ok (Run.ofExcept_apply _ _)]
    rfl
  have tree_read : treeOf label data looked = (.ok tree, read) := by
    rw [treeOf_of_none (s := looked) uncached, read_apply, parsed]
  refine ⟨read, ?_, rfl, uncached⟩
  rw [fetch, Run.bind_of_ok located]
  dsimp only
  rw [Run.bind_of_ok tree_read]
  rfl

/-- An inclusion fails with what fails in the template that it includes. -/
theorem Arises.through_inclusion {r : Renderer} {o : Occurrence} {place : Place}
    {entry : TagEntry} {context v : Value} {path label : String} {data : List UInt8}
    {tree : List Node} {inner : Occurrence} {e : Error} (here : o.place = some place)
    (known : r.registry.lookup o.name = some entry) (includes : entry.handler = Builtin.inclusion)
    (inline : o.body = none)
    (given : ∀ s, evaluateAll (r.hostAt o.place) context o.params s = (.ok [v], s))
    (shown : v.text = .ok path) (resolved : r.resolve path = label)
    (found : r.loader label = .ok (some data)) (parsed : Template.parse label data = .ok tree)
    (free : place.frame.isFull = false)
    (within : ∀ s, s.cache = none →
      Arises r
        (.nodes (some ⟨place.frame.child o.position.line label, label, tree,
          around (some (place, o.call [v] context))⟩) context tree) s (some inner) e)
    {s : State} (uncached : s.cache = none) :
    Arises r (.node o.place context o.node) s (some inner) e := by
  have at_tag : s.atTag o.place o.position.line = { s with line := o.position.line } := by
    rw [State.atTag, here]
    rfl
  obtain ⟨after, fetched, line, still⟩ :=
    Renderer.fetch_of_parse (s := { s with line := o.position.line }) resolved found parsed uncached
  refine @Arises.handler r o context entry [v] s s (some inner) e known (given s) ?_
  rw [includes, Builtin.inclusion_eq (v := v) rfl inline shown, at_tag, here]
  refine .path (.render fetched ?_ (within _ still))
  rw [Option.map_some, Option.map_some, Frame.enter_of_free free, line]

def pageSource : List UInt8 := Text.Utf8.encode "\x7b% include('/part') %\x7d"

def partSource : List UInt8 := Text.Utf8.encode "\n\x7b% include('/leaf') %\x7d"

/-- A page that includes a part, which on its second line includes a leaf. -/
def chainRenderer (leaf : List UInt8) : Renderer where
  registry := Builtin.registry
  loader := Loader.table [("/page", pageSource), ("/part", partSource), ("/leaf", leaf)]
  ending := ""
  directory := ""
  limit := 3

def inclusionAt (place : Option Place) (line : Int) (path : String) : Occurrence where
  place := place
  position := ⟨line, 0⟩
  name := "include"
  params := [.constant ⟨line, 11⟩ (.string path)]
  body := none
  orelse := none

def includedFrom (place : Place) (line : Int) (path : String) (tree : List Node) : Place :=
  ⟨place.frame.child line path, path, tree,
    around (some (place, (inclusionAt (some place) line path).call [.string path] .null))⟩

def pagePlace : Place :=
  ⟨Frame.root "/page" 3, "/page", [(inclusionAt none 1 "/part").node], []⟩

def partPlace : Place :=
  includedFrom pagePlace 1 "/part" [.raw ⟨1, 0⟩ "\n", (inclusionAt none 2 "/leaf").node]

def leafPlace (tree : List Node) : Place := includedFrom partPlace 2 "/leaf" tree

theorem parse_pageSource : Template.parse "/page" pageSource = .ok pagePlace.tree := by cbv

theorem parse_partSource : Template.parse "/part" partSource = .ok partPlace.tree := by cbv

theorem chainRenderer_resolve (leaf : List UInt8) (path : String)
    (rooted : Renderer.isRooted path = true) : (chainRenderer leaf).resolve path = path := by
  simp [Renderer.resolve, chainRenderer, Renderer.endsIn, rooted]

/-- What fails in the leaf fails in the page. -/
theorem arises_from_leaf {leaf : List UInt8} {tree : List Node} {inner : Occurrence} {e : Error}
    (parsed : Template.parse "/leaf" leaf = .ok tree)
    (within : ∀ s, Arises (chainRenderer leaf) (.nodes (some (leafPlace tree)) .null tree) s
      (some inner) e) :
    Arises (chainRenderer leaf) (.root (.path "/page") Object.none) ⟨0, none, []⟩ (some inner)
      e := by
  have in_part (s : State) (uncached : s.cache = none) :
      Arises (chainRenderer leaf) (.nodes (some partPlace) .null partPlace.tree) s (some inner)
        e := by
    have inclusion : Arises (chainRenderer leaf)
        (.node (some partPlace) .null (inclusionAt none 2 "/leaf").node) s (some inner) e :=
      Arises.through_inclusion (o := inclusionAt (some partPlace) 2 "/leaf") rfl rfl rfl rfl
        (fun _ => rfl) rfl (chainRenderer_resolve leaf "/leaf" rfl) rfl parsed rfl
        (fun s _ => within s) uncached
    exact .later rfl rfl (.first inclusion)
  have in_page (s : State) (uncached : s.cache = none) :
      Arises (chainRenderer leaf) (.nodes (some pagePlace) .null pagePlace.tree) s (some inner)
        e := by
    have inclusion : Arises (chainRenderer leaf)
        (.node (some pagePlace) .null (inclusionAt none 1 "/part").node) s (some inner) e :=
      Arises.through_inclusion (o := inclusionAt (some pagePlace) 1 "/part") rfl rfl rfl rfl
        (fun _ => rfl) rfl (chainRenderer_resolve leaf "/part" rfl) rfl parse_partSource rfl in_part
        uncached
    exact .first inclusion
  have resolved := chainRenderer_resolve leaf "/page" rfl
  obtain ⟨after, fetched, -, still⟩ :=
    Renderer.fetch_of_parse (s := ⟨0, none, []⟩) resolved rfl parse_pageSource rfl
  exact .root rfl (.render fetched rfl (in_page _ still))

def leafOccurrence (name : String) (params : List Node) : Occurrence where
  place := some (leafPlace [.tag ⟨1, 0⟩ name params none none])
  position := ⟨1, 0⟩
  name := name
  params := params
  body := none
  orelse := none

theorem includes_around_leaf {leaf : List UInt8} (tree : List Node) :
    ∀ e ∈ (leafPlace tree).enclosing, e.label ≠ "" ∧ (chainRenderer leaf).Includes e.tag := by
  refine List.forall_mem_cons.2 ⟨⟨?_, _, rfl, rfl⟩, List.forall_mem_cons.2 ⟨⟨?_, _, rfl, rfl⟩, ?_⟩⟩
  · simp [pagePlace]
  · simp [partPlace, includedFrom]
  · exact fun _ member => nomatch member

def countSource : List UInt8 := Text.Utf8.encode "\x7b% count(1) %\x7d"

theorem renderRun_counting_leaf :
    Arises (chainRenderer countSource) (.root (.path "/page") Object.none) ⟨0, none, []⟩
      (some (leafOccurrence "count" [.constant ⟨1, 9⟩ (.int 1)])) (.fault (.notCountable .int)) ∧
    (Session.renderRun (chainRenderer countSource) (.path "/page") Object.none).Fails
      ⟨0, none, []⟩
      (.tagFailed "count" (.fault (.notCountable .int))
        { template := some "/leaf", line := some 1, chain := [("/page", 1), ("/part", 2)] }) := by
  let o := leafOccurrence "count" [.constant ⟨1, 9⟩ (.int 1)]
  have parsed : Template.parse "/leaf" countSource = .ok [o.node] := by cbv
  have known : (chainRenderer countSource).registry.lookup o.name =
      some (Builtin.function "count" Builtin.count) := rfl
  have given (s : State) : evaluateAll ((chainRenderer countSource).hostAt o.place) .null o.params
      s = (.ok [.int 1], s) := rfl
  have arises := arises_from_leaf parsed fun s => .first (.handler known (given s) .fail)
  obtain ⟨place, here, -, -, -, reports, -⟩ := renderRun_reports_chain arises
  cases here
  exact ⟨arises, reports (includes_around_leaf _) rfl⟩

def unknownSource : List UInt8 := Text.Utf8.encode "\x7b% nope %\x7d"

/-- The page and the part are around the unknown tag of the leaf, and its report does not say so. -/
theorem renderRun_unknown_leaf :
    ∃ o place, o.place = some place ∧
      Arises (chainRenderer unknownSource) (.root (.path "/page") Object.none) ⟨0, none, []⟩
        (some o) (.unknownTag "nope" Builtin.registry.names
          { template := some "/leaf", line := some 1 }) ∧
      (place.enclosing.map fun e => (e.label, e.tag.position.line)) = [("/page", 1), ("/part", 2)] ∧
      (Session.renderRun (chainRenderer unknownSource) (.path "/page") Object.none).Fails
        ⟨0, none, []⟩
        (.unknownTag "nope" Builtin.registry.names
          { template := some "/leaf", line := some 1, chain := [] }) := by
  let o := leafOccurrence "nope" []
  have parsed : Template.parse "/leaf" unknownSource = .ok [o.node] := by cbv
  have unknown : (chainRenderer unknownSource).registry.lookup o.name = none := rfl
  have arises := arises_from_leaf parsed fun s => .first (.unknown unknown)
  exact ⟨o, _, rfl, arises, rfl, arises.fails⟩

end Templating
