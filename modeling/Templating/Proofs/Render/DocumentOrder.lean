import Templating.Proofs.Render.Arising
import Templating.Proofs.Render.Rounds
import Templating.Proofs.Render.Transparency

/-!
# Document order

What stands first is evaluated first, and what stands behind a failure is not evaluated at all.  The
same holds of the parameters of a tag, and its handler starts after all of them.  The journal bears
this out: a run adds its events to it, and those of a sequence are those of its parts, one after the
other.
-/

namespace Templating

namespace Run

variable {α β : Type}

/-- The run comes to a result and leaves a state; the events that it notes are in order. -/
structure Yields (action : Run α) (s : State) (result : Except Error α) (events : List Event)
    (after : State) : Prop where
  ran : action s = (result, after)
  noted : after.journal = events.reverse ++ s.journal

theorem Transparent.exists_yields {templates : List (List UInt8)} {action : Run α}
    (h : action.Transparent templates) (s : State) :
    ∃ result events after, action.Yields s result events after := by
  obtain ⟨added, grown⟩ := h.grows s
  refine ⟨_, added.reverse, _, rfl, ?_⟩
  rw [List.reverse_reverse, grown]

theorem Yields.append_noted {action : Run α} {s mid after : State} {result : Except Error α}
    {events later : List Event} (noted : mid.journal = events.reverse ++ s.journal)
    (h : action.Yields mid result later after) :
    after.journal = (events ++ later).reverse ++ s.journal := by
  rw [h.noted, noted, List.reverse_append, List.append_assoc]

/-- One run after the other.  If the first one fails, the second one is left out; else the result is
both texts. -/
inductive InSequence (first second : Run String) (s : State) :
    Except Error String → List Event → State → Prop
  | fails {e : Error} {events : List Event} {after : State} :
      first.Yields s (.error e) events after →
      InSequence first second s (.error e) events after
  | both {text : String} {result : Except Error String} {events later : List Event}
      {mid after : State} :
      first.Yields s (.ok text) events mid → second.Yields mid result later after →
      InSequence first second s (result.map (text ++ ·)) (events ++ later) after

/-- One run for each of the given, from left to right, up to the first that fails. -/
inductive OneByOne (action : α → Run β) :
    List α → State → Except Error (List β) → List Event → State → Prop
  | nil {s : State} : OneByOne action [] s (.ok []) [] s
  | fails {a : α} {rest : List α} {s after : State} {e : Error} {events : List Event} :
      (action a).Yields s (.error e) events after →
      OneByOne action (a :: rest) s (.error e) events after
  | cons {a : α} {rest : List α} {s mid after : State} {b : β} {others : Except Error (List β)}
      {events later : List Event} :
      (action a).Yields s (.ok b) events mid → OneByOne action rest mid others later after →
      OneByOne action (a :: rest) s (others.map (b :: ·)) (events ++ later) after

theorem exists_oneByOne {action : α → Run β}
    (yields : ∀ a s, ∃ result events after, (action a).Yields s result events after)
    (list : List α) (s : State) :
    ∃ results events after, OneByOne action list s results events after := by
  induction list generalizing s with
  | nil => exact ⟨_, _, _, .nil⟩
  | cons a rest ih =>
      obtain ⟨result, events, mid, ran⟩ := yields a s
      cases result with
      | error e => exact ⟨_, _, _, .fails ran⟩
      | ok b =>
          obtain ⟨others, later, after, later⟩ := ih mid
          exact ⟨_, _, _, .cons ran later⟩

end Run

/-! ## Nodes and parameters -/

section Order

variable {host : Host} {context : Value}

theorem yields_renderNodes_append {xs ys : List Node} {s after : State}
    {result : Except Error String} {events : List Event}
    (h : Run.InSequence (renderNodes host context xs) (renderNodes host context ys) s result events
      after) :
    (renderNodes host context (xs ++ ys)).Yields s result events after := by
  cases h with
  | fails first =>
      refine ⟨?_, first.noted⟩
      rw [renderNodes_append, Run.bind_of_error first.ran]
  | both first second =>
      refine ⟨?_, second.append_noted first.noted⟩
      rw [renderNodes_append, Run.bind_of_ok first.ran, Run.bind_pure_apply, second.ran]

theorem Run.OneByOne.yields_evaluateAll {params : List Node} {s after : State}
    {results : Except Error (List Value)} {events : List Event}
    (h : OneByOne (evaluate host context) params s results events after) :
    (evaluateAll host context params).Yields s results events after := by
  induction h with
  | nil => exact ⟨rfl, rfl⟩
  | fails first =>
      refine ⟨?_, first.noted⟩
      rw [evaluateAll, Run.bind_of_error first.ran]
  | cons first _ others =>
      refine ⟨?_, others.append_noted first.noted⟩
      rw [evaluateAll, Run.bind_of_ok first.ran, Run.bind_pure_apply, others.ran]

theorem Host.journal_entered (host : Host) (line : Int) (s : State) :
    (host.entered line s).journal = s.journal := by
  unfold Host.entered
  split <;> rfl

/-- A known tag evaluates its parameters one by one.  Then its handler runs with their values,
unless one of them has failed. -/
inductive Host.EvaluatesTag (host : Host) (context : Value) (p : Position) (name : String)
    (params : List Node) (body orelse : Option (List Node)) (s : State) :
    Except Error Value → List Event → State → Prop
  | unknown : host.registry.lookup name = none →
      EvaluatesTag host context p name params body orelse s
        (.error (host.unknownTag name p.line)) [] s
  | refused {entry : TagEntry} {e : Error} {events : List Event} {after : State} :
      host.registry.lookup name = some entry →
      Run.OneByOne (evaluate host context) params s (.error e) events after →
      EvaluatesTag host context p name params body orelse s
        (.error (host.report name p.line e)) events after
  | handled {entry : TagEntry} {values : List Value} {result : Except Error Object}
      {events later : List Event} {mid after : State} :
      host.registry.lookup name = some entry →
      Run.OneByOne (evaluate host context) params s (.ok values) events mid →
      ((entry.handler ⟨name, values, body, orelse, context, p⟩).run host
        (Invocation.branchIn host ⟨name, values, body, orelse, context, p⟩)).Yields
        (host.entered p.line mid) result later after →
      EvaluatesTag host context p name params body orelse s
        ((result.bind Object.toValue).mapError (host.report name p.line)) (events ++ later) after

theorem Host.EvaluatesTag.yields_evaluate {p : Position} {name : String} {params : List Node}
    {body orelse : Option (List Node)} {s after : State} {result : Except Error Value}
    {events : List Event}
    (h : host.EvaluatesTag context p name params body orelse s result events after) :
    (evaluate host context (.tag p name params body orelse)).Yields s result events after := by
  cases h with
  | unknown unknown =>
      refine ⟨?_, rfl⟩
      rw [evaluate_of_unknown unknown]
      rfl
  | refused known params =>
      have failed := params.yields_evaluateAll
      refine ⟨?_, failed.noted⟩
      rw [evaluate_of_known known, Run.mapErrors_apply, Run.bind_of_error failed.ran]
      rfl
  | handled known params handled =>
      have evaluated := params.yields_evaluateAll
      refine ⟨evaluate_of_params known evaluated.ran body orelse handled.ran, ?_⟩
      refine handled.append_noted ?_
      rw [host.journal_entered, evaluated.noted]

end Order

/-! ## Renders -/

namespace Renderer

variable (r : Renderer) (place : Option Place)

theorem hostAt_transparent :
    (r.hostAt place).Renders fun _ action => action.Transparent [] := by
  have nothing : DistinctDigests [] := by simp [DistinctDigests]
  exact hostAt_renders (Run.Transparent.compositional []) (treeOf_transparent nothing) r place

theorem exists_yields_renderNodes (context : Value) (nodes : List Node) (s : State) :
    ∃ result events after,
      (renderNodes (r.hostAt place) context nodes).Yields s result events after :=
  (renderNodes_compositional (Run.Transparent.compositional []) (r.hostAt_transparent place) context
    nodes).exists_yields s

theorem exists_yields_evaluate (context : Value) (node : Node) (s : State) :
    ∃ result events after,
      (evaluate (r.hostAt place) context node).Yields s result events after :=
  (evaluate_compositional (Run.Transparent.compositional []) (r.hostAt_transparent place) context
    node).exists_yields s

theorem exists_inSequence (context : Value) (xs ys : List Node) (s : State) :
    ∃ result events after,
      Run.InSequence (renderNodes (r.hostAt place) context xs)
        (renderNodes (r.hostAt place) context ys) s result events after := by
  obtain ⟨result, events, mid, first⟩ := r.exists_yields_renderNodes place context xs s
  cases result with
  | error e => exact ⟨_, _, _, .fails first⟩
  | ok text =>
      obtain ⟨others, later, after, second⟩ := r.exists_yields_renderNodes place context ys mid
      exact ⟨_, _, _, .both first second⟩

theorem exists_evaluatesTag (context : Value) (p : Position) (name : String) (params : List Node)
    (body orelse : Option (List Node)) (s : State) :
    ∃ result events after,
      (r.hostAt place).EvaluatesTag context p name params body orelse s result events after := by
  cases known : (r.hostAt place).registry.lookup name with
  | none => exact ⟨_, _, _, .unknown known⟩
  | some entry =>
      obtain ⟨results, events, mid, evaluated⟩ :=
        Run.exists_oneByOne (r.exists_yields_evaluate place context) params s
      cases results with
      | error e => exact ⟨_, _, _, .refused known evaluated⟩
      | ok values =>
          let i : Invocation := ⟨name, values, body, orelse, context, p⟩
          have renders := r.hostAt_transparent place
          have plain := Run.Transparent.compositional []
          have branches (which : Branch) (other : Option Value) :
              (i.branchIn (r.hostAt place) which other).Transparent [] :=
            renderBranch_compositional plain renders _ _
          obtain ⟨result, later, after, handled⟩ :=
            (Plan.run_compositional plain renders branches (entry.handler i)).exists_yields
              ((r.hostAt place).entered p.line mid)
          exact ⟨_, _, _, .handled known evaluated handled⟩

/-- Two lists of nodes are rendered one after the other, and a tag evaluates its parameters before
its handler starts; a failure leaves out what comes behind it. -/
theorem evaluates_in_document_order (context : Value) (s : State) :
    (∀ xs ys, ∃ result events after,
      (renderNodes (r.hostAt place) context (xs ++ ys)).Yields s result events after ∧
        Run.InSequence (renderNodes (r.hostAt place) context xs)
          (renderNodes (r.hostAt place) context ys) s result events after) ∧
      ∀ p name params body orelse, ∃ result events after,
        (evaluate (r.hostAt place) context (.tag p name params body orelse)).Yields s result events
            after ∧
          (r.hostAt place).EvaluatesTag context p name params body orelse s result events
            after := by
  constructor
  · intro xs ys
    obtain ⟨result, events, after, ordered⟩ := r.exists_inSequence place context xs ys s
    exact ⟨result, events, after, yields_renderNodes_append ordered, ordered⟩
  · intro p name params body orelse
    obtain ⟨result, events, after, ordered⟩ :=
      r.exists_evaluatesTag place context p name params body orelse s
    exact ⟨result, events, after, ordered.yields_evaluate, ordered⟩

end Renderer

end Templating
