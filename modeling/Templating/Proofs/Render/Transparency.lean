import Templating.Proofs.Cache.Recency
import Templating.Proofs.Render.Composition

/-!
# A cache changes no answer

A session with a cache is compared with the same session without one.  Every entry of the cache is
the tree of the bytes whose digest is its key, and a tree does not depend on the label of its
template.  Thus a tree found in the cache is the one that reading would give, provided that no two
of the templates that the session reads share a digest.
-/

namespace Templating

/-! ## Entries of a cache -/

/-- Every entry is the tree of one of the templates, under the digest of its bytes. -/
def HoldsTrees (templates : List (List UInt8)) (cache : Cache String (List Node)) : Prop :=
  ∀ entry ∈ cache.entries,
    ∃ data ∈ templates, entry.1 = Digest.text data ∧ Template.read data = .ok entry.2

def DistinctDigests (templates : List (List UInt8)) : Prop :=
  ∀ a ∈ templates, ∀ b ∈ templates, Digest.text a = Digest.text b → a = b

instance (templates : List (List UInt8)) : Decidable (DistinctDigests templates) :=
  inferInstanceAs (Decidable
    (∀ a ∈ templates, ∀ b ∈ templates, Digest.text a = Digest.text b → a = b))

namespace HoldsTrees

variable {templates : List (List UInt8)} {cache : Cache String (List Node)}

theorem empty (capacity : Option Nat) : HoldsTrees templates (Cache.empty capacity) := by
  intro entry h
  cases h

/-- What a look-up finds is the tree of the template that was looked up. -/
theorem read_of_find? (holds : HoldsTrees templates cache) (distinct : DistinctDigests templates)
    {data : List UInt8} (hdata : data ∈ templates) {tree : List Node}
    (found : cache.find? (Digest.text data) = some tree) : Template.read data = .ok tree := by
  obtain ⟨other, hother, same, read⟩ := holds _ (Cache.mem_of_find? found)
  rw [distinct data hdata other hother same]
  exact read

theorem get (holds : HoldsTrees templates cache) (key : String) :
    HoldsTrees templates (cache.get key).2 := by
  unfold Cache.get
  split
  · exact holds
  · next tree found =>
    intro entry h
    rcases Cache.mem_renew_iff.1 h with ⟨old, -⟩ | rfl
    · exact holds entry old
    · exact holds _ (Cache.mem_of_find? found)

theorem put (holds : HoldsTrees templates cache) {data : List UInt8} (hdata : data ∈ templates)
    {tree : List Node} (read : Template.read data = .ok tree) :
    HoldsTrees templates (cache.put (Digest.text data) tree) := by
  intro entry h
  rcases Cache.mem_renew_iff.1 (Cache.mem_of_mem_fit h) with ⟨old, -⟩ | rfl
  · exact holds entry old
  · exact ⟨data, hdata, rfl, read⟩

end HoldsTrees

/-! ## States that differ in their cache -/

/-- The events other than the reading of a template. -/
def unread (journal : List Event) : List Event :=
  journal.filter fun event => event.template?.isNone

/-- All that was read is among the templates. -/
def ReadsAmong (templates : List (List UInt8)) (journal : List Event) : Prop :=
  ∀ event ∈ journal, ∀ data, event.template? = some data → data ∈ templates

theorem ReadsAmong.of_suffix {templates : List (List UInt8)} {earlier later : List Event}
    (reads : ReadsAmong templates later) (h : earlier <:+ later) : ReadsAmong templates earlier :=
  fun event hevent => reads event (h.subset hevent)

/-- The states agree on all but the cache, which only one of them has, and on the templates read. -/
structure State.Agrees (templates : List (List UInt8)) (plain cached : State) : Prop where
  line : cached.line = plain.line
  journal : unread cached.journal = unread plain.journal
  bare : plain.cache = none
  holds : ∃ cache, cached.cache = some cache ∧ HoldsTrees templates cache

/-- A run that gives the same result with a cache and without, and leaves states that agree. -/
structure Run.Transparent (templates : List (List UInt8)) {α : Type} (action : Run α) : Prop where
  grows : ∀ s : State, s.journal <:+ (action s).2.journal
  agrees : ∀ plain cached : State, plain.Agrees templates cached →
    ReadsAmong templates (action plain).2.journal →
    (action cached).1 = (action plain).1 ∧ (action plain).2.Agrees templates (action cached).2

namespace Run.Transparent

variable {templates : List (List UInt8)} {α β : Type}

theorem of_apply_eq {result : Except Error α} {action : Run α}
    (h : ∀ s, action s = (result, s)) : action.Transparent templates where
  grows s := by
    rewrite [h]
    exact List.suffix_rfl
  agrees plain cached agree _ := by
    rw [h, h]
    exact ⟨rfl, agree⟩

theorem bind {action : Run α} {next : α → Run β} (first : action.Transparent templates)
    (second : ∀ a, (next a).Transparent templates) :
    (action >>= next).Transparent templates where
  grows s := by
    have begun := first.grows s
    rcases action.ok_or_error s with ⟨a, after, h⟩ | ⟨e, after, h⟩
    · rw [Run.bind_of_ok h]
      rw [h] at begun
      exact begun.trans ((second a).grows after)
    · rw [Run.bind_of_error h]
      rwa [h] at begun
  agrees plain cached agree reads := by
    have step := first.agrees plain cached agree
    rcases action.ok_or_error plain with ⟨a, plainAfter, h⟩ | ⟨e, plainAfter, h⟩
    · rw [Run.bind_of_ok h] at reads ⊢
      rw [h] at step
      obtain ⟨same, later⟩ := step (reads.of_suffix ((second a).grows plainAfter))
      have hcached : action cached = (.ok a, (action cached).2) := Prod.ext same rfl
      rw [Run.bind_of_ok hcached]
      exact (second a).agrees plainAfter _ later reads
    · rw [Run.bind_of_error h] at reads ⊢
      rw [h] at step
      obtain ⟨same, later⟩ := step reads
      have hcached : action cached = (.error e, (action cached).2) := Prod.ext same rfl
      rw [Run.bind_of_error hcached]
      exact ⟨rfl, later⟩

theorem observe {event : Event} (h : event.template? = none) :
    (Run.observe event).Transparent templates where
  grows s := List.suffix_cons event s.journal
  agrees plain cached agree _ := by
    refine ⟨rfl, agree.line, ?_, agree.bare, agree.holds⟩
    simpa [unread, h] using agree.journal

theorem setLine (line : Int) : (Run.setLine line).Transparent templates where
  grows _ := List.suffix_rfl
  agrees _ _ agree _ := ⟨rfl, rfl, agree.journal, agree.bare, agree.holds⟩

theorem ask {next : Int → Run α} (h : ∀ line, (next line).Transparent templates) :
    (do next (← get).line : Run α).Transparent templates where
  grows s := (h s.line).grows s
  agrees plain cached agree reads := by
    change (next cached.line cached).1 = (next plain.line plain).1 ∧
      (next plain.line plain).2.Agrees templates (next cached.line cached).2
    rw [agree.line]
    exact (h plain.line).agrees plain cached agree reads

theorem mapErrors {action : Run α} (f : Error → Error) (h : action.Transparent templates) :
    (Run.mapErrors f action).Transparent templates where
  grows := h.grows
  agrees plain cached agree reads := by
    obtain ⟨same, later⟩ := h.agrees plain cached agree reads
    exact ⟨congrArg (Except.mapError f) same, later⟩

theorem withOwnLine {action : Run α} (h : action.Transparent templates) :
    (Run.withOwnLine action).Transparent templates where
  grows s := h.grows { s with line := 0 }
  agrees plain cached agree reads := by
    obtain ⟨same, later⟩ := h.agrees { plain with line := 0 } { cached with line := 0 }
      ⟨rfl, agree.journal, agree.bare, agree.holds⟩ reads
    exact ⟨same, agree.line, later.journal, later.bare, later.holds⟩

theorem compositional (templates : List (List UInt8)) :
    Run.Compositional fun _ action => Run.Transparent templates action where
  pure a := of_apply_eq (Run.pure_apply a)
  throw e := of_apply_eq (Run.throw_apply e)
  bind := bind
  observe _ := observe
  setLine := setLine
  ask := ask
  mapErrors := mapErrors
  withOwnLine := withOwnLine

end Run.Transparent

/-! ## Looking up trees -/

namespace Renderer

theorem read_apply (label : String) (data : List UInt8) (s : State) :
    read label data s =
      (Template.parse label data, { s with journal := .parsed label data :: s.journal }) := by
  unfold read
  rw [Run.bind_of_ok (Run.observe_apply _ s), Run.ofExcept_apply]

theorem treeOf_of_none {s : State} (h : s.cache = none) (label : String) (data : List UInt8) :
    treeOf label data s = read label data s := by
  unfold treeOf
  rw [Run.bind_of_ok (Run.get_apply s), h]

theorem treeOf_of_hit {s : State} {cache : Cache String (List Node)} (h : s.cache = some cache)
    {data : List UInt8} {tree : List Node} (found : cache.find? (Digest.text data) = some tree)
    (label : String) :
    treeOf label data s =
      (.ok tree, { s with cache := some (cache.get (Digest.text data)).2 }) := by
  unfold treeOf
  rw [Run.bind_of_ok (Run.get_apply s), h]
  simp only [Cache.get, found]
  rw [Run.bind_of_ok (Run.modify_apply _ s), Run.pure_apply]

theorem treeOf_of_miss {s : State} {cache : Cache String (List Node)} (h : s.cache = some cache)
    {data : List UInt8} (missing : cache.find? (Digest.text data) = none) (label : String) :
    treeOf label data s =
      let key := Digest.text data
      let looked := (cache.get key).2
      let journal := .parsed label data :: s.journal
      match Template.parse label data with
      | .ok tree => (.ok tree, { s with cache := some (looked.put key tree), journal := journal })
      | .error e => (.error e, { s with cache := some looked, journal := journal }) := by
  unfold treeOf
  rw [Run.bind_of_ok (Run.get_apply s), h]
  simp only [Cache.get, missing]
  rw [Run.bind_of_ok (Run.modify_apply _ s)]
  cases parsed : Template.parse label data with
  | ok tree =>
      rw [Run.bind_of_ok (by rw [read_apply, parsed]), Run.bind_of_ok (Run.modify_apply _ _)]
      rfl
  | error e =>
      rw [Run.bind_of_error (by rw [read_apply, parsed])]

theorem treeOf_transparent {templates : List (List UInt8)} (distinct : DistinctDigests templates)
    (label : String) (data : List UInt8) :
    (treeOf label data).Transparent templates where
  grows s := by
    cases h : s.cache with
    | none =>
        rw [treeOf_of_none h, read_apply]
        exact List.suffix_cons _ _
    | some cache =>
        cases found : cache.find? (Digest.text data) with
        | some tree =>
            rewrite [treeOf_of_hit h found]
            exact List.suffix_rfl
        | none =>
            rw [treeOf_of_miss h found]
            cases Template.parse label data <;> exact List.suffix_cons _ _
  agrees plain cached agree reads := by
    obtain ⟨cache, hcache, holds⟩ := agree.holds
    rw [treeOf_of_none agree.bare, read_apply] at reads ⊢
    have hdata : data ∈ templates := reads _ (List.mem_cons_self ..) data rfl
    -- Both runs end with the tree of `data`: on a hit because the entry was made from bytes with
    -- the same digest, and these are `data`.
    cases found : cache.find? (Digest.text data) with
    | some tree =>
        have read := holds.read_of_find? distinct hdata found
        rw [treeOf_of_hit hcache found, Template.parse_eq_ok_iff.2 read]
        exact ⟨rfl, agree.line, agree.journal, agree.bare, _, rfl, holds.get _⟩
    | none =>
        have looked := holds.get (Digest.text data)
        rw [treeOf_of_miss hcache found]
        cases parsed : Template.parse label data with
        | ok tree =>
            have kept := looked.put hdata (Template.parse_eq_ok_iff.1 parsed)
            exact ⟨rfl, agree.line, agree.journal, agree.bare, _, rfl, kept⟩
        | error e => exact ⟨rfl, agree.line, agree.journal, agree.bare, _, rfl, looked⟩

end Renderer

/-! ## Sessions -/

def Request.asksCache : Request → Bool
  | .isCached _ => true
  | _ => false

namespace Session

def forget (s : Session) : Session := { s with state := { s.state with journal := [] } }

/-- The replies to requests in order, each with the log of its own. -/
def converse (tracing : Tracing) (s : Session) : List Request → List (Reply × List String)
  | [] => []
  | request :: rest =>
    let (reply, after) := s.perform request
    let (log, next) := after.takeLog tracing
    (reply, log) :: next.converse tracing rest

/-- The templates that a session reads in answer to requests. -/
def templatesRead (s : Session) : List Request → List (List UInt8)
  | [] => []
  | request :: rest =>
    let after := (s.perform request).2
    after.state.journal.filterMap Event.template? ++ after.forget.templatesRead rest

/-- The sessions agree on all but the cache, which only one of them has. -/
structure Agrees (templates : List (List UInt8)) (plain cached : Session) : Prop where
  renderer : cached.renderer = plain.renderer
  state : plain.state.Agrees templates cached.state

variable {templates : List (List UInt8)}

theorem renderRun_transparent (distinct : DistinctDigests templates) (r : Renderer)
    (target : Target) (context : Object) :
    (renderRun r target context).Transparent templates :=
  renderRun_compositional (Run.Transparent.compositional templates)
    (Renderer.treeOf_transparent distinct) r target context

theorem render_agrees (distinct : DistinctDigests templates) {plain cached : Session}
    (agree : plain.Agrees templates cached) (target : Target) (context : Object)
    (reads : ReadsAmong templates (plain.render target context).2.state.journal) :
    (cached.render target context).1 = (plain.render target context).1 ∧
      (plain.render target context).2.Agrees templates (cached.render target context).2 := by
  obtain ⟨same, later⟩ :=
    (renderRun_transparent distinct plain.renderer target context).agrees
      plain.state cached.state agree.state reads
  unfold render
  rw [agree.renderer]
  exact ⟨same, rfl, later⟩

theorem gather_cons (s : Session) (job : Target × Object) (rest : List (Target × Object)) :
    s.gather (job :: rest) =
      ((s.render job.1 job.2).1 :: ((s.render job.1 job.2).2.gather rest).1,
        ((s.render job.1 job.2).2.gather rest).2) := rfl

theorem journal_suffix_gather (s : Session) (jobs : List (Target × Object)) :
    s.state.journal <:+ (s.gather jobs).2.state.journal := by
  induction jobs generalizing s with
  | nil => exact List.suffix_rfl
  | cons job rest ih =>
      have nothing : DistinctDigests [] := by simp [DistinctDigests]
      have begun : s.state.journal <:+ (s.render job.1 job.2).2.state.journal :=
        (renderRun_transparent nothing s.renderer job.1 job.2).grows s.state
      rw [gather_cons]
      exact begun.trans (ih _)

theorem gather_agrees (distinct : DistinctDigests templates) {plain cached : Session}
    (agree : plain.Agrees templates cached) (jobs : List (Target × Object))
    (reads : ReadsAmong templates (plain.gather jobs).2.state.journal) :
    (cached.gather jobs).1 = (plain.gather jobs).1 ∧
      (plain.gather jobs).2.Agrees templates (cached.gather jobs).2 := by
  induction jobs generalizing plain cached with
  | nil => exact ⟨rfl, agree⟩
  | cons job rest ih =>
      obtain ⟨first, later⟩ := render_agrees distinct agree job.1 job.2
        (reads.of_suffix (journal_suffix_gather _ rest))
      obtain ⟨others, last⟩ := ih later reads
      rw [gather_cons, gather_cons, first, others]
      exact ⟨rfl, last⟩

/-- One request that is not about the cache is answered alike, and the sessions agree again. -/
theorem perform_agrees (distinct : DistinctDigests templates) {plain cached : Session}
    (agree : plain.Agrees templates cached) {request : Request}
    (unaware : request.asksCache = false)
    (reads : ReadsAmong templates (plain.perform request).2.state.journal) :
    (cached.perform request).1 = (plain.perform request).1 ∧
      (plain.perform request).2.Agrees templates (cached.perform request).2 := by
  cases request with
  | render target context =>
      obtain ⟨same, later⟩ := render_agrees distinct agree target context reads
      exact ⟨congrArg Reply.rendered same, later⟩
  | gather jobs =>
      obtain ⟨same, later⟩ := gather_agrees distinct agree jobs reads
      exact ⟨congrArg Reply.gathered same, later⟩
  | resolve path =>
      refine ⟨?_, agree⟩
      simp only [perform, agree.renderer]
  | isCached data => cases unaware
  | clear =>
      obtain ⟨cache, hcache, -⟩ := agree.state.holds
      refine ⟨rfl, agree.renderer, agree.state.line, agree.state.journal, ?_, cache.clear, ?_, ?_⟩
      · simp [perform, clear, agree.state.bare]
      · simp [perform, clear, hcache]
      · exact HoldsTrees.empty _
  | useLoader loader =>
      exact ⟨rfl, congrArg (fun r => { r with loader := loader }) agree.renderer, agree.state⟩
  | setEnding ending =>
      exact ⟨rfl, congrArg (fun r => { r with ending := ending }) agree.renderer, agree.state⟩
  | setDirectory directory =>
      exact ⟨rfl, congrArg (fun r => { r with directory := directory }) agree.renderer, agree.state⟩
  | setLimit limit =>
      exact ⟨rfl, congrArg (fun r => { r with limit := limit }) agree.renderer, agree.state⟩

/-- A log without the reading of templates is made from the other events. -/
theorem filterMap_show?_unread {tracing : Tracing} (quiet : tracing.parses = false)
    (journal : List Event) :
    (unread journal).reverse.filterMap tracing.show? = journal.reverse.filterMap tracing.show? := by
  unfold unread
  rw [← List.filter_reverse, List.filterMap_filter]
  congr 1
  funext event
  cases event <;> simp [Event.template?, Tracing.show?, quiet]

theorem takeLog_agrees {plain cached : Session} (agree : plain.Agrees templates cached)
    {tracing : Tracing} (quiet : tracing.parses = false) :
    (cached.takeLog tracing).1 = (plain.takeLog tracing).1 ∧
      (plain.takeLog tracing).2.Agrees templates (cached.takeLog tracing).2 := by
  refine ⟨?_, agree.renderer, agree.state.line, rfl, agree.state.bare, agree.state.holds⟩
  change cached.state.journal.reverse.filterMap tracing.show? =
    plain.state.journal.reverse.filterMap tracing.show?
  rw [← filterMap_show?_unread quiet, agree.state.journal, filterMap_show?_unread quiet]

theorem converse_agrees (distinct : DistinctDigests templates) {tracing : Tracing}
    (quiet : tracing.parses = false) {requests : List Request}
    (unaware : ∀ request ∈ requests, request.asksCache = false) {plain cached : Session}
    (agree : plain.Agrees templates cached)
    (reads : ∀ data ∈ plain.templatesRead requests, data ∈ templates) :
    cached.converse tracing requests = plain.converse tracing requests := by
  induction requests generalizing plain cached with
  | nil => rfl
  | cons request rest ih =>
      have now : ReadsAmong templates (plain.perform request).2.state.journal := by
        intro event hevent data hdata
        exact reads data (List.mem_append_left _ (List.mem_filterMap.2 ⟨event, hevent, hdata⟩))
      obtain ⟨reply, later⟩ := perform_agrees distinct agree
        (unaware request (List.mem_cons_self ..)) now
      obtain ⟨log, next⟩ := takeLog_agrees later quiet
      have others := ih (fun q hq => unaware q (List.mem_cons_of_mem _ hq)) next
        (fun data hdata => reads data (List.mem_append_right _ hdata))
      simp only [converse, reply, log, others]

/-- A session answers alike with a cache of any capacity and without one, and its tags leave the
same logs: renders nested in one another, templates under several labels, entries dropped between
two uses and renders that fail make no difference. -/
theorem converse_with_cache (r : Renderer) (capacity : Option Nat) {tracing : Tracing}
    (quiet : tracing.parses = false) {requests : List Request}
    (unaware : ∀ request ∈ requests, request.asksCache = false)
    (distinct : DistinctDigests ((start r none).templatesRead requests)) :
    (start r (some (Cache.empty capacity))).converse tracing requests =
      (start r none).converse tracing requests :=
  converse_agrees distinct quiet unaware
    ⟨rfl, rfl, rfl, rfl, _, rfl, HoldsTrees.empty capacity⟩ fun _ h => h

/-- Two templates, one of which includes the other. -/
def includingRenderer : Renderer where
  registry := Builtin.registry
  loader := Loader.table
    [("menu.html", Text.Utf8.encode "soup"),
      ("page.html", Text.Utf8.encode "\x7b% include \"menu\" %\x7d")]
  ending := ".html"
  directory := ""
  limit := 50

/-- Requests that drop each template from a cache of one entry before it is used again, one of them
for a template that cannot be read. -/
def crowdingRequests : List Request :=
  [.render (.path "page") Object.none, .render (.path "menu") Object.none,
    .render (.source (Text.Utf8.encode "\x7b\x7b") "broken") Object.none,
    .gather [(.path "page", Object.none), (.source (Text.Utf8.encode "soup") "tray", Object.none)]]

theorem converse_with_crowded_cache :
    (∀ request ∈ crowdingRequests, request.asksCache = false) ∧
      DistinctDigests ((start includingRenderer none).templatesRead crowdingRequests) ∧
      (start includingRenderer (some (Cache.empty (some 1)))).converse ⟨false, true, true⟩
          crowdingRequests =
        (start includingRenderer none).converse ⟨false, true, true⟩ crowdingRequests := by
  have unaware : ∀ request ∈ crowdingRequests, request.asksCache = false := by decide
  have distinct :
      DistinctDigests ((start includingRenderer none).templatesRead crowdingRequests) := by
    decide +kernel
  exact ⟨unaware, distinct, converse_with_cache includingRenderer (some 1) rfl unaware distinct⟩

end Session

end Templating
