import Templating.Proofs.Render.Derivation
import Templating.Proofs.Render.Transparency

/-!
# The journal of a render

A render notes what it does and never looks at what was noted.  Its result, its line and its cache
are the same whatever stands in the journal when it begins; in particular it does not matter whether
its context was encoded first.
-/

namespace Templating

/-- The states agree on all but their journals. -/
structure State.Matches (s t : State) : Prop where
  line : s.line = t.line
  cache : s.cache = t.cache

/-- What has been noted before plays no part in the run. -/
def Run.Unmindful {α : Type} (action : Run α) : Prop :=
  ∀ s t : State, s.Matches t → (action s).1 = (action t).1 ∧ (action s).2.Matches (action t).2

namespace Run.Unmindful

theorem compositional : Compositional fun _ action => action.Unmindful where
  pure _ _ _ same := ⟨rfl, same⟩
  throw _ _ _ same := ⟨rfl, same⟩
  bind {_ _ action next} first second s t same := by
    obtain ⟨result, later⟩ := first s t same
    rcases action.ok_or_error s with ⟨a, mid, ran⟩ | ⟨e, mid, ran⟩
    · rw [ran] at result later
      have ran' : action t = (.ok a, (action t).2) := Prod.ext result.symm rfl
      rw [bind_of_ok ran, bind_of_ok ran']
      exact second a mid _ later
    · rw [ran] at result later
      have ran' : action t = (.error e, (action t).2) := Prod.ext result.symm rfl
      rw [bind_of_error ran, bind_of_error ran']
      exact ⟨rfl, later⟩
  observe _ _ _ _ same := ⟨rfl, same.line, same.cache⟩
  setLine _ _ _ same := ⟨rfl, rfl, same.cache⟩
  ask {_ next} kept s t same := by
    have answered := kept t.line s t same
    rw [bind_of_ok (get_apply s), bind_of_ok (get_apply t), same.line]
    exact answered
  mapErrors f kept s t same := by
    obtain ⟨result, later⟩ := kept s t same
    exact ⟨congrArg (Except.mapError f) result, later⟩
  withOwnLine kept s t same := by
    obtain ⟨result, later⟩ := kept { s with line := 0 } { t with line := 0 } ⟨rfl, same.cache⟩
    exact ⟨result, same.line, later.cache⟩

theorem treeOf (label : String) (data : List UInt8) :
    (Renderer.treeOf label data).Unmindful := by
  intro s t same
  cases hcache : t.cache with
  | none =>
      have hcache' := same.cache.trans hcache
      rw [Renderer.treeOf_of_none hcache, Renderer.treeOf_of_none hcache', Renderer.read_apply,
        Renderer.read_apply]
      exact ⟨rfl, same.line, same.cache⟩
  | some cache =>
      have hcache' := same.cache.trans hcache
      cases found : cache.find? (Digest.text data) with
      | some tree =>
          rw [Renderer.treeOf_of_hit hcache found, Renderer.treeOf_of_hit hcache' found]
          exact ⟨rfl, same.line, rfl⟩
      | none =>
          rw [Renderer.treeOf_of_miss hcache found, Renderer.treeOf_of_miss hcache' found]
          cases Template.parse label data <;> exact ⟨rfl, same.line, rfl⟩

end Run.Unmindful

theorem Renderer.matches_contextOf (context : Object) (s : State) :
    (contextOf context s).2.Matches s := by
  unfold contextOf
  cases context.node with
  | null | ready => exact ⟨rfl, rfl⟩
  | _ =>
      dsimp only
      rw [Run.bind_of_ok (Run.observe_apply _ s), Run.ofExcept_apply]
      exact ⟨rfl, rfl⟩

namespace Session

theorem render_eq_renderIn (s : Session) {target : Target} {context : Object} {v : Value}
    (ready : (Renderer.contextOf context s.state).1 = .ok v) :
    (s.render target context).1 = (s.renderer.renderIn none target v s.state).1 := by
  have begun : Renderer.contextOf context s.state =
      (.ok v, (Renderer.contextOf context s.state).2) := Prod.ext ready rfl
  have unmindful := s.renderer.renderIn_compositional Run.Unmindful.compositional
    Run.Unmindful.treeOf none target v
  show (renderRun s.renderer target context s.state).1 = _
  rw [Renderer.renderRun_eq, Run.bind_of_ok begun]
  exact (unmindful _ s.state (Renderer.matches_contextOf context s.state)).1

end Session

end Templating
