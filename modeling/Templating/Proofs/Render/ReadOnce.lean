import Templating.Proofs.Render.Progress
import Templating.Proofs.Render.Transparency

/-!
# Templates are read once

A cache without a limit forgets nothing until it is cleared.  A template that can be read is thus
read at most once in between, whatever renders it and however renders are nested: the tree is stored
before its evaluation begins.  A template that cannot be read leaves nothing to be found and is read
again each time.
-/

namespace Templating

/-! ## A cache that forgets nothing -/

namespace Cache

variable {κ α : Type} [BEq κ] [LawfulBEq κ]

theorem contains_iff (c : Cache κ α) (key : κ) :
    c.contains key = true ↔ ∃ entry ∈ c.entries, entry.1 = key := by
  rw [contains_eq, List.contains_iff_mem, keys, List.mem_reverse, List.mem_map]

theorem contains_renewed {c later : Cache κ α} {key : κ} {x : α}
    (renewed : later.entries = renew c.entries key x) (other : κ) :
    later.contains other = (key == other || c.contains other) := by
  rw [Bool.eq_iff_iff, Bool.or_eq_true, beq_iff_eq, contains_iff, contains_iff, renewed]
  constructor
  · rintro ⟨entry, member, same⟩
    rcases mem_renew_iff.1 member with ⟨old, -⟩ | rfl
    · exact .inr ⟨entry, old, same⟩
    · exact .inl same
  · rintro (rfl | ⟨entry, old, same⟩)
    · exact ⟨(key, x), mem_renew_iff.2 (.inr rfl), rfl⟩
    · by_cases own : entry.1 = key
      · exact ⟨(key, x), mem_renew_iff.2 (.inr rfl), own.symm.trans same⟩
      · exact ⟨entry, mem_renew_iff.2 (.inl ⟨old, own⟩), same⟩

theorem contains_put {c : Cache κ α} (unlimited : c.capacity = none) (key other : κ) (x : α) :
    (c.put key x).contains other = (key == other || c.contains other) := by
  refine contains_renewed (x := x) ?_ other
  rw [put, unlimited]
  rfl

theorem contains_get (c : Cache κ α) (key other : κ) :
    (c.get key).2.contains other = c.contains other := by
  rw [get]
  cases found : c.find? key with
  | none => rfl
  | some x =>
      have held : c.contains key = true := by rw [contains, found]; rfl
      let later : Cache κ α := { c with entries := renew c.entries key x, hits := c.hits + 1 }
      have renewed : later.contains other = (key == other || c.contains other) :=
        contains_renewed rfl other
      refine renewed.trans ?_
      cases same : key == other with
      | true => rw [← eq_of_beq same, held]; rfl
      | false => rfl

end Cache

/-- Of the templates that were read, those that could be were read once and are in the cache, and
nothing else is there. -/
structure Remembers (cache : Cache String (List Node)) (reads : List (List UInt8)) : Prop where
  unlimited : cache.capacity = none
  known : ∀ data ∈ reads, ∀ tree, Template.read data = .ok tree →
    cache.contains (Digest.text data) = true
  once : ∀ data tree, Template.read data = .ok tree → reads.count data ≤ 1
  holds : HoldsTrees reads cache

namespace Remembers

variable {cache : Cache String (List Node)} {reads : List (List UInt8)}

theorem empty : Remembers (Cache.empty none) [] where
  unlimited := rfl
  known _ member := nomatch member
  once _ _ _ := Nat.zero_le 1
  holds := .empty none

theorem get (remembers : Remembers cache reads) (key : String) :
    Remembers (cache.get key).2 reads where
  unlimited := by
    rw [← remembers.unlimited, Cache.get]
    split <;> rfl
  known data member tree read := by
    rw [Cache.contains_get]
    exact remembers.known data member tree read
  once := remembers.once
  holds := remembers.holds.get key

/-- A template that can be read and is not in the cache was not read before. -/
theorem put (remembers : Remembers cache reads) {data : List UInt8} {tree : List Node}
    (absent : cache.contains (Digest.text data) = false) (read : Template.read data = .ok tree) :
    Remembers (cache.put (Digest.text data) tree) (data :: reads) where
  unlimited := remembers.unlimited
  known other member own readable := by
    rw [Cache.contains_put remembers.unlimited, Bool.or_eq_true, beq_iff_eq]
    rcases List.mem_cons.1 member with rfl | old
    · exact .inl rfl
    · exact .inr (remembers.known other old own readable)
  once other own readable := by
    have before := remembers.once other own readable
    have unread : data ∉ reads := by
      intro member
      rw [remembers.known data member tree read] at absent
      cases absent
    rw [List.count_cons]
    split
    · next same =>
      have absent : reads.count other = 0 := List.count_eq_zero.2 (eq_of_beq same ▸ unread)
      omega
    · exact before
  holds := by
    have kept : HoldsTrees (data :: reads) cache := by
      intro entry member
      obtain ⟨own, old, same⟩ := remembers.holds entry member
      exact ⟨own, List.mem_cons_of_mem _ old, same⟩
    exact kept.put List.mem_cons_self read

theorem refused (remembers : Remembers cache reads) {data : List UInt8}
    (unreadable : ∀ tree, Template.read data ≠ .ok tree) : Remembers cache (data :: reads) where
  unlimited := remembers.unlimited
  known other member own readable := by
    rcases List.mem_cons.1 member with rfl | old
    · exact absurd readable (unreadable own)
    · exact remembers.known other old own readable
  once other own readable := by
    have other' : (data == other) = false := by
      rw [beq_eq_false_iff_ne]
      rintro rfl
      exact unreadable own readable
    rw [List.count_cons, other']
    exact remembers.once other own readable
  holds entry member := by
    obtain ⟨own, old, same⟩ := remembers.holds entry member
    exact ⟨own, List.mem_cons_of_mem _ old, same⟩

end Remembers

/-! ## Looking up trees -/

/-- There is a cache, and it has no limit. -/
def Unlimited : Stock := fun cache _ => ∃ c, cache = some c ∧ c.capacity = none

def Remembered : Stock := fun cache reads => ∃ c, cache = some c ∧ Remembers c reads

namespace Renderer

theorem treeOf_unlimited (label : String) (data : List UInt8) :
    (treeOf label data).Keeps Unlimited := by
  rintro s ⟨cache, hcache, unlimited⟩
  have looked : (cache.get (Digest.text data)).2.capacity = none := by
    rw [Cache.get]
    split <;> exact unlimited
  cases found : cache.find? (Digest.text data) with
  | some tree =>
      rw [treeOf_of_hit hcache found]
      exact ⟨_, rfl, looked⟩
  | none =>
      rw [treeOf_of_miss hcache found]
      cases Template.parse label data <;> exact ⟨_, rfl, looked⟩

theorem treeOf_remembered (label : String) (data : List UInt8) :
    (treeOf label data).Keeps Remembered := by
  rintro s ⟨cache, hcache, remembers⟩
  have looked := remembers.get (Digest.text data)
  cases found : cache.find? (Digest.text data) with
  | some tree =>
      rw [treeOf_of_hit hcache found]
      exact ⟨_, rfl, looked⟩
  | none =>
      rw [treeOf_of_miss hcache found]
      cases parsed : Template.parse label data with
      | ok tree =>
          refine ⟨_, rfl, looked.put ?_ (Template.parse_eq_ok_iff.1 parsed)⟩
          rw [Cache.contains_get, Cache.contains, found]
          rfl
      | error e =>
          refine ⟨_, rfl, looked.refused fun tree read => ?_⟩
          rw [Template.parse_eq_ok_iff.2 read] at parsed
          cases parsed

/-- What was read is found again. -/
theorem treeOf_of_known {s : State} (has : s.Has Remembered) {data : List UInt8}
    {tree : List Node} (read : Template.read data = .ok tree) (known : data ∈ s.reads)
    (label : String) : (treeOf label data s).2.journal = s.journal := by
  obtain ⟨cache, hcache, remembers⟩ := has
  obtain ⟨found, hfound⟩ := Option.isSome_iff_exists.1 (remembers.known data known tree read)
  rw [treeOf_of_hit hcache hfound]

/-- What cannot be read is not found, unless for what has the same digest. -/
theorem treeOf_of_unreadable {s : State} (has : s.Has Remembered) {label : String}
    {data : List UInt8} {e : Error} (parsed : Template.parse label data = .error e)
    (distinct : ∀ other ∈ s.reads, Digest.text other = Digest.text data → other = data) :
    ∃ after, treeOf label data s = (.error e, after) ∧
      after.journal = .parsed label data :: s.journal ∧
      after.cache.map Cache.entries = s.cache.map Cache.entries := by
  obtain ⟨cache, hcache, remembers⟩ := has
  cases found : cache.find? (Digest.text data) with
  | some tree =>
      -- What is found was read from a template with this digest, which could be read.
      obtain ⟨other, member, same, read⟩ := remembers.holds _ (Cache.mem_of_find? found)
      rw [distinct other member same.symm] at read
      rw [Template.parse_eq_ok_iff.2 read] at parsed
      cases parsed
  | none =>
      rw [treeOf_of_miss hcache found, parsed]
      refine ⟨_, rfl, rfl, ?_⟩
      rw [hcache, Cache.get, found]
      rfl

/-- Work that is begun in a state comes to a render, and looks up the tree of its template. -/
def LooksUp (r : Renderer) (work : Work) (s : State) (label : String) (data : List UInt8)
    (now : State) : Prop :=
  ∃ current target context mid, r.Comes (work, s) (.render current target context, mid) ∧
    r.locate target mid = (.ok (label, data), now)

theorem LooksUp.has {P : Stock} (trees : ∀ label data, (treeOf label data).Keeps P)
    {r : Renderer} {work : Work} {s : State} {label : String} {data : List UInt8} {now : State}
    (h : r.LooksUp work s label data now) (has : s.Has P) : now.Has P := by
  obtain ⟨current, target, context, mid, comes, located⟩ := h
  have kept := Run.Keeps.compositional P
  have there := comes.keeps trees r has
  cases target with
  | path path => exact (r.load_compositional kept path).of_apply_eq located there
  | source data label => exact (kept.pure _).of_apply_eq located there

end Renderer

/-! ## Sessions -/

def Request.clears : Request → Bool
  | .clear => true
  | _ => false

/-- What a request has rendered, one after the other. -/
def Request.jobs : Request → List (Target × Object)
  | .render target context => [(target, context)]
  | .gather jobs => jobs
  | _ => []

namespace Session

def advance (s : Session) (requests : List Request) : Session :=
  requests.foldl (fun s request => (s.perform request).2) s

/-- The session comes, in answer to the requests, to look up the tree of a template. -/
inductive Looks : Session → List Request → String → List UInt8 → State → Prop
  | now {s : Session} {request : Request} {rest : List Request}
      {before after : List (Target × Object)} {target : Target} {context : Object}
      {label : String} {data : List UInt8} {now : State} :
      request.jobs = before ++ (target, context) :: after →
      s.renderer.LooksUp (.root target context) (s.gather before).2.state label data now →
      Looks s (request :: rest) label data now
  | later {s : Session} {request : Request} {rest : List Request} {label : String}
      {data : List UInt8} {now : State} :
      Looks (s.perform request).2 rest label data now → Looks s (request :: rest) label data now

section Kept

variable {P : Stock} (trees : ∀ label data, (Renderer.treeOf label data).Keeps P)

include trees

theorem renderRun_keeps (r : Renderer) (target : Target) (context : Object) :
    (renderRun r target context).Keeps P :=
  renderRun_compositional (Run.Keeps.compositional P) trees r target context

theorem gather_keeps {s : Session} (has : s.state.Has P) (jobs : List (Target × Object)) :
    (s.gather jobs).2.state.Has P := by
  induction jobs generalizing s with
  | nil => exact has
  | cons job rest ih =>
      rw [gather_cons]
      exact ih (renderRun_keeps trees s.renderer job.1 job.2 s.state has)

theorem perform_keeps {s : Session} (has : s.state.Has P) {request : Request}
    (uncleared : request.clears = false) : (s.perform request).2.state.Has P := by
  cases request with
  | render target context =>
      exact renderRun_keeps trees s.renderer target context s.state has
  | gather jobs => exact gather_keeps trees has jobs
  | clear => cases uncleared
  | resolve | isCached | useLoader | setEnding | setDirectory | setLimit => exact has

theorem advance_keeps {s : Session} (has : s.state.Has P) {requests : List Request}
    (uncleared : ∀ request ∈ requests, request.clears = false) :
    (s.advance requests).state.Has P := by
  induction requests generalizing s with
  | nil => exact has
  | cons request rest ih =>
      obtain ⟨first, others⟩ := List.forall_mem_cons.1 uncleared
      exact ih (perform_keeps trees has first) others

theorem Looks.has {s : Session} {requests : List Request} {label : String} {data : List UInt8}
    {now : State} (h : s.Looks requests label data now) (has : s.state.Has P)
    (uncleared : ∀ request ∈ requests, request.clears = false) : now.Has P := by
  induction h with
  | now _ looks => exact looks.has trees (gather_keeps trees has _)
  | later _ ih =>
      obtain ⟨first, others⟩ := List.forall_mem_cons.1 uncleared
      exact ih (perform_keeps trees has first) others

end Kept

theorem unlimited_advance {s : Session} (has : s.state.Has Unlimited) (requests : List Request) :
    (s.advance requests).state.Has Unlimited := by
  induction requests generalizing s with
  | nil => exact has
  | cons request rest ih =>
      refine ih ?_
      cases clears : request.clears with
      | false => exact perform_keeps Renderer.treeOf_unlimited has clears
      | true =>
          cases request with
          | clear =>
              obtain ⟨cache, hcache, unlimited⟩ := has
              exact ⟨cache.clear, by simp [perform, clear, hcache], unlimited⟩
          | _ => cases clears

/-- The session with nothing in its cache, its journal begun anew. -/
def reopen (s : Session) : Session := s.clear.forget

theorem remembered_reopen {s : Session} (has : s.state.Has Unlimited) :
    s.reopen.state.Has Remembered := by
  obtain ⟨cache, hcache, unlimited⟩ := has
  refine ⟨Cache.empty none, ?_, .empty⟩
  change s.state.cache.map Cache.clear = _
  rw [hcache, Option.map_some, Cache.clear, unlimited]

/-- With a cache that has no limit, and from when it is cleared until it is cleared again, a
template that can be read is read at most once.  From then on no render of it reads it, neither one
begun by a request nor one within another render.  A render of a template that cannot be read reads
it again and leaves the cache as it was, unless a template with the same digest was read. -/
theorem reads_once (r : Renderer) (before : List Request) {between : List Request}
    (uncleared : ∀ request ∈ between, request.clears = false) (data : List UInt8) :
    let opened := ((start r (some (Cache.empty none))).advance before).reopen
    (∀ tree, Template.read data = .ok tree →
      (opened.advance between).state.reads.count data ≤ 1 ∧
      ∀ label now, opened.Looks between label data now → data ∈ now.reads →
        (Renderer.treeOf label data now).2.journal = now.journal) ∧
    (∀ label e, Template.parse label data = .error e →
      ∀ now, opened.Looks between label data now →
        (∀ other ∈ now.reads, Digest.text other = Digest.text data → other = data) →
        ∃ after, Renderer.treeOf label data now = (.error e, after) ∧
          after.journal = .parsed label data :: now.journal ∧
          after.cache.map Cache.entries = now.cache.map Cache.entries) := by
  intro opened
  have fresh : opened.state.Has Remembered :=
    remembered_reopen (unlimited_advance ⟨_, rfl, rfl⟩ before)
  refine ⟨fun tree read => ⟨?_, fun label now looks known => ?_⟩,
    fun label e parsed now looks distinct => ?_⟩
  · obtain ⟨cache, -, remembers⟩ := advance_keeps Renderer.treeOf_remembered fresh uncleared
    exact remembers.once data tree read
  · have has := looks.has Renderer.treeOf_remembered fresh uncleared
    exact Renderer.treeOf_of_known has read known label
  · have has := looks.has Renderer.treeOf_remembered fresh uncleared
    exact Renderer.treeOf_of_unreadable has parsed distinct

/-- A template that includes itself. -/
def loopSource : List UInt8 := Text.Utf8.encode "\x7b% include \"loop\" %\x7d"

def loopRenderer : Renderer where
  registry := Builtin.registry
  loader := Loader.table [("loop.html", loopSource)]
  ending := ".html"
  directory := ""
  limit := 2

/-- Requests for the template by its path and, under another label, by its bytes, with a template
that cannot be read in between. -/
def loopRequests : List Request :=
  [.render (.path "loop") Object.none,
    .gather [(.source (Text.Utf8.encode "\x7b\x7b") "broken", Object.none),
      (.source loopSource "page", Object.none)]]

theorem reads_once_loop :
    (∀ request ∈ loopRequests, request.clears = false) ∧
      let opened := ((start loopRenderer (some (Cache.empty none))).advance loopRequests).reopen
      (opened.advance loopRequests).state.reads.count loopSource ≤ 1 ∧
      ∃ now, opened.Looks loopRequests "page" loopSource now ∧ loopSource ∈ now.reads ∧
        (Renderer.treeOf "page" loopSource now).2.journal = now.journal := by
  have uncleared : ∀ request ∈ loopRequests, request.clears = false := by decide
  obtain ⟨tree, read⟩ := exists_of_isOk
    (show (Template.read loopSource).isOk = true by decide +kernel)
  obtain ⟨once, found⟩ :=
    (reads_once loopRenderer loopRequests uncleared loopSource).1 tree read
  refine ⟨uncleared, once, ?_⟩
  let opened := ((start loopRenderer (some (Cache.empty none))).advance loopRequests).reopen
  let job : Target × Object := (.source (Text.Utf8.encode "\x7b\x7b") "broken", Object.none)
  let page : Target × Object := (.source loopSource "page", Object.none)
  let now := ((opened.perform (.render (.path "loop") Object.none)).2.gather [job]).2.state
  have split : (Request.gather [job, page]).jobs = [job] ++ [page] := rfl
  have looks : opened.Looks loopRequests "page" loopSource now :=
    .later (.now split ⟨none, _, .null, now, .single (.root rfl), rfl⟩)
  have known : loopSource ∈ now.reads := by decide +kernel
  exact ⟨now, looks, known, found "page" now looks known⟩

end Session

end Templating
