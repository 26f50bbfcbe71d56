import Templating.Proofs.Tag.Order

/-!
# Handlers against two contexts

A tag may be invoked against two contexts with all else the same.  Then a built-in handler takes the
same steps.  It never looks at the context itself; it only puts bindings on top of it and hands it
on to the branches of its block and to the templates that it includes.
-/

namespace Templating

/-- Contexts that are related are so with the same bindings on top of both. -/
def Value.KeptByBinding (R : Value → Value → Prop) : Prop :=
  ∀ (i : Invocation) (w : Value), R i.context w →
    ∀ bindings, R (i.bind bindings) ({ i with context := w }.bind bindings)

namespace Plan

variable {R : Value → Value → Prop} {α β : Type}

/-- The plans take the same steps, each against contexts that are related.  Neither renders a source
that it comes with itself. -/
inductive Parallel (R : Value → Value → Prop) {α : Type} : Plan α → Plan α → Prop
  | done (result : α) : Parallel R (.done result) (.done result)
  | fail (error : Error) : Parallel R (.fail error) (.fail error)
  | note (text : String) {next other : Plan α} :
      Parallel R next other → Parallel R (.note text next) (.note text other)
  | ask {next other : Option (Frame × Int) → Plan α} :
      (∀ frame, Parallel R (next frame) (other frame)) → Parallel R (.ask next) (.ask other)
  | branch (which : Branch) {v w : Option Value} {next other : String → Plan α} :
      Option.Rel R v w → (∀ text, Parallel R (next text) (other text)) →
      Parallel R (.branch which v next) (.branch which w other)
  | path (path : String) {v w : Value} {next other : String → Plan α} :
      R v w → (∀ text, Parallel R (next text) (other text)) →
      Parallel R (.path path v next) (.path path w other)

theorem related_getD {v w : Option Value} (h : Option.Rel R v w) {x y : Value} (related : R x y) :
    R (v.getD x) (w.getD y) := by
  cases h with
  | none => exact related
  | some own => exact own

theorem Parallel.bind {plan other : Plan α} (h : Parallel R plan other) {f g : α → Plan β}
    (h' : ∀ a, Parallel R (f a) (g a)) : Parallel R (plan >>= f) (other >>= g) := by
  induction h with
  | done result => exact h' result
  | fail error => exact .fail error
  | note text _ ih => exact .note text ih
  | ask _ ih => exact .ask ih
  | branch which related _ ih => exact .branch which related ih
  | path path related _ ih => exact .path path related ih

/-- A plan that renders nothing has no context to be told apart by. -/
theorem Confined.parallel {plan : Plan α} (h : plan.Confined False False) :
    Parallel R plan plan := by
  induction plan with
  | done result => exact .done result
  | fail error => exact .fail error
  | note text next ih => exact .note text (ih h)
  | ask next ih => exact .ask fun frame => ih frame (h frame)
  | branch | path | source => exact h.1.elim

theorem parallel_ofExcept (result : Except Error α) :
    Parallel R (Plan.ofExcept result) (Plan.ofExcept result) :=
  (confined_ofExcept result).parallel

end Plan

/-- Invocations that differ in contexts that are related give parallel plans. -/
def TagEntry.Parallel (R : Value → Value → Prop) (entry : TagEntry) : Prop :=
  ∀ i w, R i.context w →
    Plan.Parallel R (entry.handler i) (entry.handler { i with context := w })

def Registry.Parallel (R : Value → Value → Prop) (registry : Registry) : Prop :=
  ∀ entry ∈ registry.entries, entry.2.Parallel R

theorem Registry.Parallel.of_lookup {R : Value → Value → Prop} {registry : Registry}
    (h : registry.Parallel R) {name : String} {entry : TagEntry}
    (found : registry.lookup name = some entry) : entry.Parallel R :=
  h (name, entry) (mem_of_lookup found)

/-! ## Built-in tags -/

namespace Builtin

open Invocation
open Plan (parallel_ofExcept)

variable {R : Value → Value → Prop} {i : Invocation} {w : Value}

theorem parallel_branch (which : Branch) :
    Plan.Parallel R (.branch which none .done) (.branch which none .done) :=
  .branch which .none .done

theorem parallel_condition : Plan.Parallel R (condition i) (condition { i with context := w }) := by
  refine (i.confined_requireCount _ _).parallel.bind fun _ => i.confined_requireBody.parallel.bind
    fun _ => (i.confined_param _).parallel.bind fun v => (parallel_ofExcept _).bind fun truth => ?_
  cases truth with
  | true => exact (parallel_branch .body).bind fun _ => .done _
  | false => exact (parallel_branch .orelse).bind fun _ => .done _

theorem parallel_rounds (kept : Value.KeptByBinding R) (related : R i.context w)
    (name : String) (length place : Nat) (written : String) (items : List Value) :
    Plan.Parallel R (rounds i name length place written items)
      (rounds { i with context := w } name length place written items) := by
  induction items generalizing place written with
  | nil => exact .done written
  | cons element rest ih =>
      have round : Plan.Parallel R
          (.branch .body (some (roundContext i name length place element)) .done)
          (.branch .body (some (roundContext { i with context := w } name length place element))
            .done) :=
        .branch .body (.some (kept i w related _)) .done
      exact round.bind fun _ => ih _ _

theorem parallel_loop (kept : Value.KeptByBinding R) (related : R i.context w) :
    Plan.Parallel R (loop i) (loop { i with context := w }) := by
  refine (i.confined_requireCount _ _).parallel.bind fun _ => i.confined_requireBody.parallel.bind
    fun _ => (i.confined_param _).parallel.bind fun v => (parallel_ofExcept _).bind fun items =>
      (confined_optionalText i _ _).parallel.bind fun name => ?_
  split
  · exact (parallel_branch .orelse).bind fun _ => .done _
  · exact (parallel_rounds kept related _ _ _ _ _).bind fun _ => .done _

theorem parallel_binding (kept : Value.KeptByBinding R) (related : R i.context w) :
    Plan.Parallel R (binding i) (binding { i with context := w }) := by
  refine (i.confined_requireCount _ _).parallel.bind fun _ => i.confined_requireBody.parallel.bind
    fun _ => (i.confined_param _).parallel.bind fun _ => (parallel_ofExcept _).bind fun name =>
      (i.confined_param _).parallel.bind fun v => ?_
  have bound : Plan.Parallel R (.branch .body (some (i.bind [(name, v)])) .done)
      (.branch .body (some ({ i with context := w }.bind [(name, v)])) .done) :=
    .branch .body (.some (kept i w related _)) .done
  exact bound.bind fun _ => .done _

/-- An included template is rendered against the whole context. -/
theorem parallel_inclusion (related : R i.context w) :
    Plan.Parallel R (inclusion i) (inclusion { i with context := w }) := by
  refine (i.confined_requireCount _ _).parallel.bind fun _ => i.confined_requireNoBody.parallel.bind
    fun _ => (i.confined_param _).parallel.bind fun _ => (parallel_ofExcept _).bind fun path => ?_
  have included : Plan.Parallel R (.path path i.context .done) (.path path w .done) :=
    .path path related .done
  exact included.bind fun _ => .done _

theorem registry_parallel (kept : Value.KeptByBinding R) : registry.Parallel R := by
  intro entry member i w related
  simp only [registry, entries, List.mem_cons, List.not_mem_nil, or_false] at member
  rcases member with rfl | rfl | rfl | rfl | rfl | rfl | rfl | rfl | rfl | rfl | rfl | rfl | rfl |
    rfl | rfl
  · exact (confined_output i).parallel
  · exact parallel_condition
  · exact parallel_loop kept related
  · exact parallel_binding kept related
  · exact parallel_inclusion related
  · exact (confined_rawBlock i).parallel
  · exact .done _
  · exact (confined_count i).parallel
  · exact (confined_contains i).parallel
  · exact (confined_transform i _).parallel
  · exact (confined_transform i _).parallel
  · exact (confined_transform i _).parallel
  · exact (confined_fallback i).parallel
  · exact (confined_join i).parallel
  · exact (confined_date i).parallel

end Builtin

end Templating
