import Templating.Proofs.Outcome
import Templating.Proofs.Render.Derivation

/-!
# Failures

When a run ends in an error, in terms of the runs that it is put together from.  The nodes of a
template are rendered one after the other, and the first that fails, or whose value has no text, is
where the template fails.  What goes wrong within a tag is reported by a tag; the text of what a tag
comes to is made outside of it, and what goes wrong there is not reported by any.
-/

namespace Templating

namespace Run

variable {α β : Type} {s : State} {e : Error}

def Fails (action : Run α) (s : State) (e : Error) : Prop := (action s).1 = .error e

theorem fails_of_apply_eq {action : Run α} {after : State} (h : action s = (.error e, after)) :
    action.Fails s e := by
  rw [Fails, h]

@[simp] theorem fails_pure_iff (a : α) : (pure a : Run α).Fails s e ↔ False :=
  iff_of_false nofun id

@[simp] theorem fails_throw_iff (cause : Error) :
    (throw cause : Run α).Fails s e ↔ cause = e := by
  simp [Fails]

@[simp] theorem fails_ofExcept_iff (result : Except Error α) :
    (ofExcept result).Fails s e ↔ result = .error e := by
  simp [Fails]

theorem fails_bind_iff (action : Run α) (next : α → Run β) :
    (action >>= next).Fails s e ↔
      action.Fails s e ∨ ∃ a mid, action s = (.ok a, mid) ∧ (next a).Fails mid e := by
  constructor
  · intro failed
    rcases action.ok_or_error s with ⟨a, mid, ran⟩ | ⟨cause, mid, ran⟩
    · rw [Fails, bind_of_ok ran] at failed
      exact .inr ⟨a, mid, ran, failed⟩
    · rw [Fails, bind_of_error ran] at failed
      cases failed
      exact .inl (fails_of_apply_eq ran)
  · rintro (failed | ⟨a, mid, ran, failed⟩)
    · exact fails_of_apply_eq (bind_of_error (Prod.ext failed rfl) next)
    · rwa [Fails, bind_of_ok ran]

theorem fails_bind_of_ok {action : Run α} {a : α} {mid : State} (h : action s = (.ok a, mid))
    (next : α → Run β) : (action >>= next).Fails s e ↔ (next a).Fails mid e := by
  rw [Fails, bind_of_ok h, Fails]

theorem fails_ofExcept_bind_iff (result : Except Error α) (next : α → Run β) :
    (ofExcept result >>= next).Fails s e ↔
      result = .error e ∨ ∃ a, result = .ok a ∧ (next a).Fails s e := by
  cases result with
  | error cause => simp [Fails, bind_of_error (ofExcept_apply _ s)]
  | ok a => simp [Fails, bind_of_ok (ofExcept_apply _ s)]

theorem fails_bind_pure_iff (action : Run α) (f : α → β) :
    (action >>= fun a => pure (f a)).Fails s e ↔ action.Fails s e := by
  rw [Fails, bind_pure_apply, map_eq_error_iff, Fails]

theorem fails_mapErrors_iff (f : Error → Error) (action : Run α) :
    (mapErrors f action).Fails s e ↔ ∃ cause, action.Fails s cause ∧ f cause = e := by
  simp only [Fails, mapErrors_apply, mapError_eq_error_iff]

end Run

theorem Host.namesTag_report (host : Host) (name : String) (line : Int) (e : Error) :
    (host.report name line e).namesTag = true := by
  unfold Host.report
  split
  · assumption
  · rfl

section Trees

variable {host : Host} {context : Value} {s : State} {e : Error}

theorem namesTag_of_fails {p : Position} {name : String} {params : List Node}
    {body orelse : Option (List Node)}
    (h : (evaluate host context (.tag p name params body orelse)).Fails s e) :
    e.namesTag = true := by
  rw [evaluate] at h
  cases known : host.registry.lookup name with
  | none =>
      simp only [known, Run.fails_throw_iff] at h
      rw [← h]
      rfl
  | some entry =>
      simp only [known, Run.fails_mapErrors_iff] at h
      obtain ⟨cause, -, rfl⟩ := h
      exact host.namesTag_report name p.line cause

theorem renderNodes_append (host : Host) (context : Value) (before rest : List Node) :
    renderNodes host context (before ++ rest) = (do
      let first ← renderNodes host context before
      let others ← renderNodes host context rest
      return first ++ others) := by
  induction before with
  | nil => simp only [List.nil_append, renderNodes, pure_bind, String.empty_append, bind_pure]
  | cons node before ih =>
      simp only [List.cons_append, renderNodes, ih, bind_assoc, pure_bind, String.append_assoc]

/-- Rendering the nodes comes to one of them, the ones before it rendered. -/
def ComesTo (host : Host) (context : Value) (nodes : List Node) (s : State) (node : Node)
    (mid : State) : Prop :=
  ∃ before rest text, nodes = before ++ node :: rest ∧
    renderNodes host context before s = (.ok text, mid)

theorem ComesTo.cons {node other : Node} {rest : List Node} {mid last : State} {v : Value}
    {text : String} (evaluated : evaluate host context node s = (.ok v, mid))
    (shown : v.text = .ok text) (later : ComesTo host context rest mid other last) :
    ComesTo host context (node :: rest) s other last := by
  obtain ⟨before, after, others, rfl, rendered⟩ := later
  refine ⟨node :: before, after, text ++ others, rfl, ?_⟩
  rw [renderNodes, Run.bind_of_ok evaluated, shown,
    Run.bind_of_ok (Run.ofExcept_apply _ _), Run.bind_of_ok rendered]
  rfl

theorem fails_cons_iff (node : Node) (rest : List Node) :
    (renderNodes host context (node :: rest)).Fails s e ↔
      (evaluate host context node).Fails s e ∨
      ∃ v mid, evaluate host context node s = (.ok v, mid) ∧
        (v.text = .error e ∨
          ∃ text, v.text = .ok text ∧ (renderNodes host context rest).Fails mid e) := by
  rw [renderNodes, Run.fails_bind_iff]
  refine or_congr_right (exists_congr fun v => exists_congr fun mid =>
    and_congr_right fun _ => ?_)
  simp only [Run.fails_ofExcept_bind_iff, Run.fails_bind_pure_iff]

theorem fails_renderNodes_iff (nodes : List Node) (s : State) (e : Error) :
    (renderNodes host context nodes).Fails s e ↔
      ∃ node mid, ComesTo host context nodes s node mid ∧
        ((evaluate host context node).Fails mid e ∨
          ∃ v after, evaluate host context node mid = (.ok v, after) ∧ v.text = .error e) := by
  constructor
  · intro h
    induction nodes generalizing s with
    | nil =>
        rw [renderNodes, Run.fails_pure_iff] at h
        exact h.elim
    | cons node rest ih =>
        have here : ComesTo host context (node :: rest) s node s :=
          ⟨[], rest, "", rfl, by rw [renderNodes, Run.pure_apply]⟩
        rcases (fails_cons_iff node rest).1 h with failed | ⟨v, mid, evaluated, after⟩
        · exact ⟨node, s, here, .inl failed⟩
        rcases after with textless | ⟨text, shown, failed⟩
        · exact ⟨node, s, here, .inr ⟨v, mid, evaluated, textless⟩⟩
        · obtain ⟨other, last, comes, fails⟩ := ih mid failed
          exact ⟨other, last, comes.cons evaluated shown, fails⟩
  · rintro ⟨node, mid, ⟨before, rest, text, rfl, rendered⟩, fails⟩
    rw [renderNodes_append, Run.fails_bind_of_ok rendered, Run.fails_bind_iff, fails_cons_iff]
    refine .inl (fails.imp_right ?_)
    rintro ⟨v, after, evaluated, textless⟩
    exact ⟨v, after, evaluated, .inl textless⟩

/-- Nodes as they stand in a document: a text or a tag. -/
def Node.IsDocument : Node → Prop
  | .raw .. | .tag .. => True
  | _ => False

/-- A document fails where a tag reports an error, or where the value of a tag has no text; that
error names no tag. -/
theorem fails_document_iff {nodes : List Node} (document : ∀ node ∈ nodes, node.IsDocument)
    (s : State) (e : Error) :
    (renderNodes host context nodes).Fails s e ↔
      ∃ node mid, ComesTo host context nodes s node mid ∧
        ((evaluate host context node).Fails mid e ∧ e.namesTag = true ∨
          ∃ v after, evaluate host context node mid = (.ok v, after) ∧ v.text = .error e) := by
  rw [fails_renderNodes_iff]
  refine exists_congr fun node => exists_congr fun mid => and_congr_right fun comes => ?_
  refine or_congr_left (iff_self_and.2 fun failed => ?_)
  obtain ⟨before, rest, -, rfl, -⟩ := comes
  have stands := document node (by simp)
  cases node with
  | raw p text =>
      rw [evaluate, Run.fails_pure_iff] at failed
      exact failed.elim
  | tag p name params body orelse => exact namesTag_of_fails failed
  | constant | identifier | bare => exact stands.elim

end Trees

/-! ## A document that no tag answers for -/

/-- An object whose field raises whenever it is looked at. -/
def lazyGraph : Graph where
  node
    | 0 => .record "User" [("name", .error (.fault (.raised .value "lazy")))]
    | _ => .null

def lazyContext : Value := .dictionary [("who", .foreign (lazyGraph.toForeign 0))]

def lazyPage : List Node := [.tag ⟨1, 0⟩ "get" [.identifier ⟨1, 3⟩ [.key "who"]] none none]

/-- A render with the built-in tags, in which other templates are empty. -/
def lonelyHost : Host where
  registry := Builtin.registry
  frame := some (Frame.root "page" Frame.defaultLimit)
  renderPath _ _ := pure ""
  renderSource _ _ _ := pure ""

theorem isDocument_lazyPage : ∀ node ∈ lazyPage, node.IsDocument := by
  intro node member
  rw [List.mem_singleton.1 member]
  trivial

theorem lazyPage_fails : (renderNodes lonelyHost lazyContext lazyPage).Fails ⟨0, none, []⟩
    (.fault (.raised .value "lazy")) := rfl

theorem lazyPage_comes_to_textless :
    (∀ node ∈ lazyPage, node.IsDocument) ∧
      ∃ node mid, ComesTo lonelyHost lazyContext lazyPage ⟨0, none, []⟩ node mid ∧
        ∃ v after, evaluate lonelyHost lazyContext node mid = (.ok v, after) ∧
          v.text = .error (.fault (.raised .value "lazy")) := by
  obtain ⟨node, mid, comes, outcome⟩ :=
    (fails_document_iff isDocument_lazyPage ⟨0, none, []⟩ _).1 lazyPage_fails
  refine ⟨isDocument_lazyPage, node, mid, comes, ?_⟩
  rcases outcome with ⟨-, named⟩ | textless
  · cases named
  · exact textless

theorem exists_document_failing_without_tag :
    ∃ nodes context s e, (∀ node ∈ nodes, node.IsDocument) ∧
      (renderNodes lonelyHost context nodes).Fails s e ∧ e.namesTag = false :=
  ⟨lazyPage, lazyContext, _, _, isDocument_lazyPage, lazyPage_fails, rfl⟩

end Templating
