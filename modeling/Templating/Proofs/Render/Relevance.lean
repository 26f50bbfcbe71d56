import Templating.Proofs.Render.Journal
import Templating.Proofs.Tag.Parallel
import Templating.Proofs.Template.Names

/-!
# What a render wants of its context

Two dictionaries agree on the names in the templates that a render may come to.  Evaluation against
the one and against the other goes through the same steps: a path begins with one of these names,
and what a tag binds it binds on top of both.  What else the dictionaries hold is never looked at.
-/

namespace Templating

/-! ## Contexts that agree -/

namespace Value

/-- Dictionaries with the same entry under each of the names; none counts as null. -/
def AgreeOn (named : String → Prop) (v w : Value) : Prop :=
  ∃ entries others, v = .dictionary entries ∧ w = .dictionary others ∧
    ∀ name, named name → entry entries name = entry others name

variable {named : String → Prop}

theorem entry_bindEntries {entries others : List (String × Value)}
    (agree : ∀ name, named name → entry entries name = entry others name)
    (bindings : List (String × Value)) :
    ∀ name, named name →
      entry (bindEntries entries bindings) name = entry (bindEntries others bindings) name := by
  induction bindings generalizing entries others with
  | nil => exact agree
  | cons binding rest ih =>
      refine ih fun name wanted => ?_
      rw [entry, entry, lookup_bindEntry, lookup_bindEntry]
      split
      · rfl
      · exact agree name wanted

theorem keptByBinding_agreeOn : KeptByBinding (AgreeOn named) := by
  rintro i w ⟨entries, others, hv, rfl, agree⟩ bindings
  refine ⟨_, _, rfl, rfl, ?_⟩
  rw [hv]
  exact entry_bindEntries agree bindings

theorem AgreeOn.fetch_eq {v w : Value} (h : AgreeOn named v w) {name : String}
    (wanted : named name) (steps : List Step) :
    w.fetch (.key name :: steps) = v.fetch (.key name :: steps) := by
  obtain ⟨entries, others, rfl, rfl, agree⟩ := h
  simp only [fetch, get, agree name wanted]

end Value

/-! ## Trees of the templates -/

/-- What is cached under the digest of one of the templates is the tree of one of them. -/
def Cache.HoldsOnly (templates : List UInt8 → Prop) (cache : Cache String (List Node)) : Prop :=
  ∀ data, templates data → ∀ tree, (Digest.text data, tree) ∈ cache.entries →
    ∃ other, templates other ∧ Template.read other = .ok tree

def State.HoldsOnly (templates : List UInt8 → Prop) (s : State) : Prop :=
  ∀ cache, s.cache = some cache → cache.HoldsOnly templates

theorem Cache.HoldsOnly.renew {templates : List UInt8 → Prop}
    {cache later : Cache String (List Node)} (holds : cache.HoldsOnly templates) (key : String)
    {tree : List Node} (given : ∃ other, templates other ∧ Template.read other = .ok tree)
    (kept : ∀ entry ∈ later.entries, entry ∈ Cache.renew cache.entries key tree) :
    later.HoldsOnly templates := by
  intro data own other inside
  rcases mem_renew_iff.1 (kept _ inside) with ⟨before, -⟩ | same
  · exact holds data own other before
  · obtain ⟨-, rfl⟩ := Prod.mk.inj same
    exact given

namespace Renderer

variable {templates : List UInt8 → Prop}

theorem treeOf_holdsOnly {data : List UInt8} (given : templates data) (label : String) {s : State}
    (holds : s.HoldsOnly templates) :
    (treeOf label data s).2.HoldsOnly templates ∧
      ∀ tree, (treeOf label data s).1 = .ok tree →
        ∃ other, templates other ∧ Template.read other = .ok tree := by
  cases hcache : s.cache with
  | none =>
      rw [treeOf_of_none hcache, read_apply]
      refine ⟨fun cache present => ?_, fun tree parsed => ?_⟩
      · rw [hcache] at present
        cases present
      · exact ⟨data, given, Template.parse_eq_ok_iff.1 parsed⟩
  | some cache =>
      have old := holds cache hcache
      cases found : cache.find? (Digest.text data) with
      | some tree =>
          have known := old data given tree (Cache.mem_of_find? found)
          rw [treeOf_of_hit hcache found, Cache.get, found]
          refine ⟨?_, ?_⟩
          · rintro _ ⟨⟩
            exact old.renew _ known fun _ inside => inside
          · rintro _ ⟨⟩
            exact known
      | none =>
          have looked : (cache.get (Digest.text data)).2.entries = cache.entries := by
            rw [Cache.get, found]
          rw [treeOf_of_miss hcache found]
          cases parsed : Template.parse label data with
          | error e =>
              refine ⟨?_, ?_⟩
              · rintro _ ⟨⟩ own hown other inside
                rw [looked] at inside
                exact old own hown other inside
              · rintro _ ⟨⟩
          | ok tree =>
              have known : ∃ other, templates other ∧ Template.read other = .ok tree :=
                ⟨data, given, Template.parse_eq_ok_iff.1 parsed⟩
              refine ⟨?_, ?_⟩
              · rintro _ ⟨⟩
                refine old.renew (Digest.text data) known fun entry inside => ?_
                rw [← looked]
                exact Cache.mem_of_mem_fit inside
              · rintro _ ⟨⟩
                exact known

/-- The templates that the loader finds are among them. -/
def LoadsFrom (r : Renderer) (templates : List UInt8 → Prop) : Prop :=
  ∀ path data, r.loader path = .ok (some data) → templates data

end Renderer

/-- A target that brings its own source brings one of the templates. -/
def Target.From (templates : List UInt8 → Prop) : Target → Prop
  | .path _ => True
  | .source data _ => templates data

namespace Renderer

variable {templates : List UInt8 → Prop} {r : Renderer}

theorem locate_from (loads : r.LoadsFrom templates) {target : Target}
    (given : target.From templates) {s mid : State} {label : String} {data : List UInt8}
    (located : r.locate target s = (.ok (label, data), mid)) : templates data := by
  cases target with
  | source own name =>
      cases located
      exact given
  | path path =>
      rw [locate, load, Run.bind_of_ok (Run.observe_apply _ s)] at located
      cases found : r.loader (r.resolve path) with
      | error e =>
          rw [found, Run.bind_of_error (Run.ofExcept_apply _ _)] at located
          cases located
      | ok result =>
          rw [found, Run.bind_of_ok (Run.ofExcept_apply _ _)] at located
          cases result with
          | none => cases located
          | some own =>
              cases located
              exact loads _ _ found

theorem cache_locate (r : Renderer) (target : Target) (s : State) :
    (r.locate target s).2.cache = s.cache := by
  cases target with
  | source data label => rfl
  | path path =>
      rw [locate, load, Run.bind_of_ok (Run.observe_apply _ s)]
      cases found : r.loader (r.resolve path) with
      | error e => rfl
      | ok result => cases result <;> rfl

theorem fetch_holdsOnly (loads : r.LoadsFrom templates) {target : Target}
    (given : target.From templates) {s : State} (holds : s.HoldsOnly templates) :
    (r.fetch target s).2.HoldsOnly templates ∧
      ∀ label tree, (r.fetch target s).1 = .ok (label, tree) →
        ∃ data, templates data ∧ Template.read data = .ok tree := by
  have before : (r.locate target s).2.HoldsOnly templates := by
    intro cache present
    rw [cache_locate] at present
    exact holds cache present
  rcases (r.locate target).ok_or_error s with ⟨⟨label, data⟩, mid, located⟩ | ⟨e, mid, located⟩
  · rw [located] at before
    obtain ⟨after, trees⟩ := treeOf_holdsOnly (locate_from loads given located) label before
    rw [fetch, Run.bind_of_ok located]
    dsimp only
    rw [Run.bind_pure_apply]
    refine ⟨after, fun name tree found => ?_⟩
    obtain ⟨own, hown, same⟩ := map_eq_ok_iff.1 found
    cases same
    exact trees _ hown
  · rw [located] at before
    rw [fetch, Run.bind_of_error located]
    refine ⟨before, ?_⟩
    rintro _ _ ⟨⟩

end Renderer

/-! ## Evaluation against either context -/

/-- All that a render comes to begins its paths with one of the names, and its tags take the same
steps against contexts that agree on these. -/
structure Renderer.DrawsOn (r : Renderer) (templates : List UInt8 → Prop)
    (named : String → Prop) : Prop where
  loads : r.LoadsFrom templates
  trees : ∀ data tree, templates data → Template.read data = .ok tree →
    ∀ node ∈ tree, node.DrawsOn named
  tags : r.registry.Parallel (Value.AgreeOn named)

/-- The same task but for contexts that agree; the renders around it may differ as well. -/
inductive Task.Alike (templates : List UInt8 → Prop) (named : String → Prop) :
    {k : Task.Kind} → Task k → Task k → Prop
  | render {current current' : Option (Place × Invocation)} {target : Target} {v w : Value} :
      current'.map (fun c => c.1.frame) = current.map (fun c => c.1.frame) →
      target.From templates → v.AgreeOn named w →
      Alike templates named (.render current target v) (.render current' target w)
  | nodes {place : Place} {nodes : List Node} {v w : Value} (outer : List Enclosing) :
      (∀ node ∈ nodes, node.DrawsOn named) → v.AgreeOn named w →
      Alike templates named (.nodes place v nodes)
        (.nodes { place with enclosing := outer } w nodes)
  | node {place : Place} {node : Node} {v w : Value} (outer : List Enclosing) :
      node.DrawsOn named → v.AgreeOn named w →
      Alike templates named (.node place v node) (.node { place with enclosing := outer } w node)
  | all {place : Place} {nodes : List Node} {v w : Value} (outer : List Enclosing) :
      (∀ node ∈ nodes, node.DrawsOn named) → v.AgreeOn named w →
      Alike templates named (.all place v nodes) (.all { place with enclosing := outer } w nodes)
  | plan {place : Place} {tag : Invocation} {w : Value} {plan plan' : Plan Object}
      (outer : List Enclosing) :
      (∀ which, ∀ node ∈ (tag.branch which).getD [], node.DrawsOn named) →
      tag.context.AgreeOn named w → Plan.Parallel (Value.AgreeOn named) plan plan' →
      Alike templates named (.plan place tag plan)
        (.plan { place with enclosing := outer } { tag with context := w } plan')

section Alike

variable {templates : List UInt8 → Prop} {named : String → Prop}

theorem Task.Alike.path {place : Place} {tag : Invocation} {path : String} {u v : Value}
    (outer : List Enclosing) (w : Value) (agree : u.AgreeOn named v) :
    Alike templates named (.render (some (place, tag)) (.path path) u)
      (.render (some ({ place with enclosing := outer }, { tag with context := w })) (.path path)
        v) :=
  .render rfl trivial agree

theorem map_line_of_map_frame {current current' : Option (Place × Invocation)}
    (frames : current'.map (fun c => c.1.frame) = current.map (fun c => c.1.frame)) (line : Int) :
    current'.map (fun c => (c.1.frame, line)) = current.map (fun c => (c.1.frame, line)) := by
  have lined := congrArg (Option.map fun frame => (frame, line)) frames
  simpa only [Option.map_map, Function.comp_def] using lined

/-- Whatever the one task comes to the other comes to as well, and it leaves the same state. -/
theorem Evaluates.alike {r : Renderer} (draws : r.DrawsOn templates named) {k : Task.Kind}
    {task task' : Task k} {s after : State} {result : Except Error k.Result}
    {trace : List Incident} (h : Evaluates r task s result after trace)
    (same : Task.Alike templates named task task') (holds : s.HoldsOnly templates) :
    after.HoldsOnly templates ∧ ∃ trace', Evaluates r task' s result after trace' := by
  induction h with
  | root_fails | root => cases same
  | render_fails fetched =>
      cases same with | render frames given agree =>
      have kept := (Renderer.fetch_holdsOnly draws.loads given holds).1
      rw [fetched] at kept
      exact ⟨kept, _, .render_fails fetched⟩
  | render_refused fetched refused =>
      cases same with | render frames given agree =>
      have kept := (Renderer.fetch_holdsOnly draws.loads given holds).1
      rw [fetched] at kept
      rw [← map_line_of_map_frame frames] at refused
      exact ⟨kept, _, .render_refused fetched refused⟩
  | render fetched entered _ ih =>
      cases same with | @render _ current' _ _ w frames given agree =>
      obtain ⟨kept, trees⟩ := Renderer.fetch_holdsOnly draws.loads given holds
      rw [fetched] at kept trees
      obtain ⟨data, own, read⟩ := trees _ _ rfl
      rw [← map_line_of_map_frame frames] at entered
      obtain ⟨after, _, nodes⟩ :=
        ih (.nodes (around current') (draws.trees data _ own read) agree) kept
      exact ⟨after, _, .render fetched entered nodes⟩
  | nil =>
      cases same with | nodes outer drawn agree =>
      exact ⟨holds, _, .nil⟩
  | cons_fails _ ih =>
      cases same with | nodes outer drawn agree =>
      obtain ⟨kept, _, first⟩ := ih (.node outer (drawn _ List.mem_cons_self) agree) holds
      exact ⟨kept, _, .cons_fails first⟩
  | cons_textless _ textless ih =>
      cases same with | nodes outer drawn agree =>
      obtain ⟨kept, _, first⟩ := ih (.node outer (drawn _ List.mem_cons_self) agree) holds
      exact ⟨kept, _, .cons_textless first textless⟩
  | cons _ shown _ ih ih' =>
      cases same with | nodes outer drawn agree =>
      obtain ⟨kept, _, first⟩ := ih (.node outer (drawn _ List.mem_cons_self) agree) holds
      have drawn' := fun node member => drawn node (List.mem_cons_of_mem _ member)
      obtain ⟨after, _, others⟩ := ih' (.nodes outer drawn' agree) kept
      exact ⟨after, _, .cons first shown others⟩
  | raw =>
      cases same with | node outer drawn agree =>
      exact ⟨holds, _, .raw⟩
  | constant =>
      cases same with | node outer drawn agree =>
      exact ⟨holds, _, .constant⟩
  | identifier =>
      cases same with | node outer drawn agree =>
      cases drawn with | path p steps wanted =>
      rw [← agree.fetch_eq wanted steps]
      exact ⟨holds, _, .identifier⟩
  | bare =>
      cases same with | node outer drawn agree =>
      exact ⟨holds, _, .bare⟩
  | tag_unknown unknown =>
      cases same with | node outer drawn agree =>
      exact ⟨holds, _, .tag_unknown unknown⟩
  | tag_fails known _ ih =>
      cases same with | node outer drawn agree =>
      cases drawn with | tag params body orelse =>
      obtain ⟨kept, _, failed⟩ := ih (.all outer params agree) holds
      exact ⟨kept, _, .tag_fails known failed⟩
  | @tag _ context p name _ body orelse entry values _ _ _ _ _ _ known _ _ ih ih' =>
      cases same with | @node _ _ _ w outer drawn agree =>
      cases drawn with | tag inParams inBody inElse =>
      obtain ⟨kept, _, evaluated⟩ := ih (.all outer inParams agree) holds
      let tag : Invocation := ⟨name, values, body, orelse, context, p⟩
      -- The values of the parameters are the same, so the two invocations differ in the context.
      have branches : ∀ which, ∀ node ∈ (tag.branch which).getD [], node.DrawsOn named
        | .body => inBody
        | .orelse => inElse
      have parallel := draws.tags.of_lookup known tag w agree
      obtain ⟨after, _, handled⟩ := ih' (.plan outer branches agree parallel) kept
      exact ⟨after, _, .tag known evaluated handled⟩
  | all_nil =>
      cases same with | all outer drawn agree =>
      exact ⟨holds, _, .all_nil⟩
  | all_fails _ ih =>
      cases same with | all outer drawn agree =>
      obtain ⟨kept, _, first⟩ := ih (.node outer (drawn _ List.mem_cons_self) agree) holds
      exact ⟨kept, _, .all_fails first⟩
  | all_cons _ _ ih ih' =>
      cases same with | all outer drawn agree =>
      obtain ⟨kept, _, first⟩ := ih (.node outer (drawn _ List.mem_cons_self) agree) holds
      have drawn' := fun node member => drawn node (List.mem_cons_of_mem _ member)
      obtain ⟨after, _, others⟩ := ih' (.all outer drawn' agree) kept
      exact ⟨after, _, .all_cons first others⟩
  | done =>
      cases same with | plan outer branches agree parallel =>
      cases parallel
      exact ⟨holds, _, .done⟩
  | fail =>
      cases same with | plan outer branches agree parallel =>
      cases parallel
      exact ⟨holds, _, .fail⟩
  | note _ ih =>
      cases same with | plan outer branches agree parallel =>
      cases parallel with | note text parallel =>
      obtain ⟨kept, _, later⟩ := ih (.plan outer branches agree parallel) holds
      exact ⟨kept, _, .note later⟩
  | ask _ ih =>
      cases same with | plan outer branches agree parallel =>
      cases parallel with | ask parallel =>
      obtain ⟨kept, _, later⟩ := ih (.plan outer branches agree (parallel _)) holds
      exact ⟨kept, _, .ask later⟩
  | branch_fails _ ih =>
      cases same with | plan outer branches agree parallel =>
      cases parallel with | branch which related parallel =>
      have agree' := Plan.related_getD related agree
      obtain ⟨kept, _, failed⟩ := ih (.nodes outer (branches _) agree') holds
      exact ⟨kept, _, .branch_fails failed⟩
  | branch _ _ ih ih' =>
      cases same with | plan outer branches agree parallel =>
      cases parallel with | branch which related parallel =>
      have agree' := Plan.related_getD related agree
      obtain ⟨kept, _, rendered⟩ := ih (.nodes outer (branches _) agree') holds
      obtain ⟨after, _, later⟩ := ih' (.plan outer branches agree (parallel _)) kept
      exact ⟨after, _, .branch rendered later⟩
  | path_fails _ ih =>
      cases same with | @plan _ _ w _ _ outer branches agree parallel =>
      cases parallel with | path path related parallel =>
      obtain ⟨kept, _, failed⟩ := ih (.path outer w related) holds
      exact ⟨kept, _, .path_fails failed⟩
  | path _ _ ih ih' =>
      cases same with | @plan _ _ w _ _ outer branches agree parallel =>
      cases parallel with | path path related parallel =>
      obtain ⟨kept, _, rendered⟩ := ih (.path outer w related) holds
      obtain ⟨after, _, later⟩ := ih' (.plan outer branches agree (parallel _)) kept
      exact ⟨after, _, .path rendered later⟩
  | source_fails | source =>
      cases same with | plan outer branches agree parallel =>
      cases parallel

theorem Renderer.renderIn_eq_of_agreeOn {r : Renderer} (draws : r.DrawsOn templates named)
    {target : Target} (given : target.From templates) {v w : Value} (agree : v.AgreeOn named w)
    {s : State} (holds : s.HoldsOnly templates) :
    r.renderIn none target w s = r.renderIn none target v s := by
  obtain ⟨trace, evaluates⟩ := derivable_render r none target v s _ _ rfl
  have alike : Task.Alike templates named (.render none target v) (.render none target w) :=
    .render rfl given agree
  obtain ⟨-, _, same⟩ := evaluates.alike draws alike holds
  exact same.renderIn_eq

end Alike

/-! ## Sessions -/

/-- The bytes of a template that a render of the target may come to: its own, or any that the loader
finds. -/
def Renderer.Offers (r : Renderer) (target : Target) (data : List UInt8) : Prop :=
  (∃ label, target = .source data label) ∨ ∃ path, r.loader path = .ok (some data)

/-- A path in one of these templates begins with the name. -/
def Renderer.Wants (r : Renderer) (target : Target) (name : String) : Prop :=
  ∃ data tree, r.Offers target data ∧ Template.read data = .ok tree ∧ name ∈ namesOf tree

theorem Renderer.drawsOn_wants {r : Renderer} (builtin : r.registry = Builtin.registry)
    (target : Target) : r.DrawsOn (r.Offers target) (r.Wants target) where
  loads path _ found := .inr ⟨path, found⟩
  trees _ _ offered read :=
    Template.drawsOn_of_read read fun _ inside => ⟨_, _, offered, read, inside⟩
  tags := by
    rw [builtin]
    exact Builtin.registry_parallel Value.keptByBinding_agreeOn

namespace Session

/-- With the built-in tags, a render depends on the entries of its context under the names in its
templates and on no others.  What is cached for these templates has to be their trees. -/
theorem render_eq_of_agree (s : Session) (builtin : s.renderer.registry = Builtin.registry)
    (target : Target)
    (cached : ∀ cache, s.state.cache = some cache → ∀ data, s.renderer.Offers target data →
      ∀ tree, (Digest.text data, tree) ∈ cache.entries → Template.read data = .ok tree)
    {context other : Object} {entries others : List (String × Value)}
    (ready : (Renderer.contextOf context s.state).1 = .ok (.dictionary entries))
    (ready' : (Renderer.contextOf other s.state).1 = .ok (.dictionary others))
    (agree : ∀ name, s.renderer.Wants target name →
      Value.entry entries name = Value.entry others name) :
    (s.render target context).1 = (s.render target other).1 := by
  have holds : s.state.HoldsOnly (s.renderer.Offers target) :=
    fun cache present data offered tree member =>
      ⟨data, offered, cached cache present data offered tree member⟩
  have given : target.From (s.renderer.Offers target) := by
    cases target with
    | path path => trivial
    | source data label => exact .inl ⟨label, rfl⟩
  have alike : (Value.dictionary entries).AgreeOn (s.renderer.Wants target) (.dictionary others) :=
    ⟨entries, others, rfl, rfl, agree⟩
  rw [s.render_eq_renderIn ready, s.render_eq_renderIn ready',
    Renderer.renderIn_eq_of_agreeOn (Renderer.drawsOn_wants builtin target) given alike holds]

/-- A page that includes a menu and goes through the users. -/
def pageSource : List UInt8 :=
  Text.Utf8.encode ("\x7b% include \"menu\" %\x7d\x7b% #for users, \"u\" %\x7d" ++
    "\x7b\x7b u.name \x7d\x7d\x7b% /for %\x7d")

def menuSource : List UInt8 := Text.Utf8.encode "\x7b\x7b title \x7d\x7d:"

def pageRenderer : Renderer where
  registry := Builtin.registry
  loader := Loader.table [("menu.html", menuSource)]
  ending := ".html"
  directory := ""
  limit := 5

def pageUsers : Value := .array [.dictionary [("name", .string "Ada")]]

/-- Data of an application, with users and something that the page does not name. -/
def pageData : Object where
  graph := ⟨fun
    | 0 => .mapping true [(.text "secret", 1), (.text "users", 2)]
    | 1 => .int 7
    | 2 => .list [3]
    | 3 => .mapping true [(.text "name", 4)]
    | _ => .string "Ada"⟩
  root := 0

theorem wants_page {name : String}
    (h : pageRenderer.Wants (.source pageSource "page") name) :
    name ∈ ["users", "u", "title"] := by
  obtain ⟨data, tree, offered, read, inside⟩ := h
  have known : data = pageSource ∨ data = menuSource := by
    rcases offered with ⟨label, same⟩ | ⟨path, found⟩
    · cases same
      exact .inl rfl
    · simp only [pageRenderer, Loader.table, bindEntries, bindEntry, List.foldl,
        List.lookup_cons, List.lookup_nil] at found
      split at found <;> cases found
      exact .inr rfl
  have named : namesOf tree = ["users", "u"] ∨ namesOf tree = ["title"] := by
    have page : (Template.read pageSource).toOption.map namesOf = some ["users", "u"] := by
      decide +kernel
    have menu : (Template.read menuSource).toOption.map namesOf = some ["title"] := by
      decide +kernel
    rcases known with rfl | rfl
    · rw [read] at page
      exact .inl (Option.some.inj page)
    · rw [read] at menu
      exact .inr (Option.some.inj menu)
  rcases named with same | same
  · rw [same] at inside
    exact List.mem_append_left ["title"] inside
  · rw [same] at inside
    exact List.mem_append_right ["users", "u"] inside

/-- What the page does not name is kept back, and a title that is null is as good as none. -/
theorem render_page :
    let s := start pageRenderer none
    let other := Object.ofValue (.dictionary [("title", .null), ("users", pageUsers)])
    (s.render (.source pageSource "page") pageData).1 =
        (s.render (.source pageSource "page") other).1 ∧
      (s.render (.source pageSource "page") other).1.toOption = some ":Ada" := by
  intro s other
  have ready : (Renderer.contextOf pageData s.state).1 =
      .ok (.dictionary [("secret", .int 7), ("users", pageUsers)]) := rfl
  have same : (s.render (.source pageSource "page") pageData).1 =
      (s.render (.source pageSource "page") other).1 := by
    refine render_eq_of_agree s rfl _ nofun ready rfl fun name wanted => ?_
    have named := wants_page wanted
    simp only [List.mem_cons, List.not_mem_nil, or_false] at named
    rcases named with rfl | rfl | rfl <;> rfl
  exact ⟨same, by decide +kernel⟩

end Session

end Templating
