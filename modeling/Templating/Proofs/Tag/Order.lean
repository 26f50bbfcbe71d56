import Templating.Tag.Builtin

/-!
# Order of renders and branches

A branch of a block holds tags of its own, and when it has been rendered the line of the current
render is theirs.  A handler that renders other templates before the branches of its block renders
them at the line of its own tag, and so does one that renders none at all.
-/

namespace Templating

namespace Plan

variable {α β : Type}

/-- The plan renders other templates only if `renders`, and branches of its block only if
`branches`. -/
def Confined (renders branches : Prop) : Plan α → Prop
  | .done _ | .fail _ => True
  | .note _ next => next.Confined renders branches
  | .ask next => ∀ frame, (next frame).Confined renders branches
  | .branch _ _ next => branches ∧ ∀ text, (next text).Confined renders branches
  | .path _ _ next => renders ∧ ∀ text, (next text).Confined renders branches
  | .source _ _ _ next => renders ∧ ∀ text, (next text).Confined renders branches

/-- The plan renders no other template. -/
abbrev Quiet (plan : Plan α) : Prop := plan.Confined False True

/-- The plan renders no other template after a branch of its block. -/
def RendersFirst : Plan α → Prop
  | .done _ | .fail _ => True
  | .note _ next => next.RendersFirst
  | .ask next => ∀ frame, (next frame).RendersFirst
  | .branch _ _ next => ∀ text, (next text).Quiet
  | .path _ _ next => ∀ text, (next text).RendersFirst
  | .source _ _ _ next => ∀ text, (next text).RendersFirst

theorem Confined.bind {renders branches : Prop} {plan : Plan α}
    (h : plan.Confined renders branches) {f : α → Plan β}
    (h' : ∀ a, (f a).Confined renders branches) : (plan >>= f).Confined renders branches := by
  induction plan with
  | done result => exact h' result
  | fail => trivial
  | note text next ih => exact ih h
  | ask next ih => exact fun frame => ih frame (h frame)
  | branch which context next ih => exact ⟨h.1, fun text => ih text (h.2 text)⟩
  | path path context next ih => exact ⟨h.1, fun text => ih text (h.2 text)⟩
  | source data context label next ih => exact ⟨h.1, fun text => ih text (h.2 text)⟩

theorem Quiet.rendersFirst {plan : Plan α} (h : plan.Quiet) : plan.RendersFirst := by
  induction plan with
  | done | fail => trivial
  | note text next ih => exact ih h
  | ask next ih => exact fun frame => ih frame (h frame)
  | branch which context next => exact h.2
  | path | source => exact h.1.elim

theorem rendersFirst_of_no_branch {plan : Plan α} (h : plan.Confined True False) :
    plan.RendersFirst := by
  induction plan with
  | done | fail => trivial
  | note text next ih => exact ih h
  | ask next ih => exact fun frame => ih frame (h frame)
  | branch which context next => exact h.1.elim
  | path path context next ih => exact fun text => ih text (h.2 text)
  | source data context label next ih => exact fun text => ih text (h.2 text)

end Plan

def TagEntry.RendersFirst (entry : TagEntry) : Prop := ∀ i, (entry.handler i).RendersFirst

def Registry.RendersFirst (registry : Registry) : Prop :=
  ∀ entry ∈ registry.entries, entry.2.RendersFirst

theorem Registry.RendersFirst.of_lookup {registry : Registry} (h : registry.RendersFirst)
    {name : String} {entry : TagEntry} (found : registry.lookup name = some entry) :
    entry.RendersFirst :=
  h (name, entry) (mem_of_lookup found)

/-! ## Steps that handlers share -/

section Steps

variable {renders branches : Prop} (i : Invocation)

theorem Plan.confined_ofExcept {α : Type} (result : Except Error α) :
    (Plan.ofExcept result).Confined renders branches := by
  cases result <;> trivial

namespace Invocation

theorem confined_breach {α : Type} (problem : ContractProblem) :
    (i.breach problem : Plan α).Confined renders branches := fun _ => trivial

theorem confined_requireCount (minimum : Int) (maximum : Option Int) :
    (i.requireCount minimum maximum).Confined renders branches := by
  unfold requireCount
  simp only
  split
  · trivial
  · exact i.confined_breach _

theorem confined_requireBody : i.requireBody.Confined renders branches := by
  unfold requireBody
  split
  · trivial
  · exact i.confined_breach _

theorem confined_requireNoBody : i.requireNoBody.Confined renders branches := by
  unfold requireNoBody
  split
  · exact i.confined_breach _
  · trivial

theorem confined_param (place : Nat) : (i.param place).Confined renders branches := by
  unfold param
  split <;> trivial

theorem quiet_renderBody (context : Option Value) : (renderBody context).Quiet :=
  ⟨trivial, fun _ => trivial⟩

theorem quiet_renderElse (context : Option Value) : (renderElse context).Quiet :=
  ⟨trivial, fun _ => trivial⟩

end Invocation

end Steps

/-! ## Built-in tags -/

namespace Builtin

open Invocation
open Plan (confined_ofExcept)

variable (i : Invocation)

section Values

/-! A tag that hands out a value renders nothing. -/

variable {renders branches : Prop}

theorem confined_output : (output i).Confined renders branches :=
  (i.confined_requireCount _ _).bind fun _ => i.confined_requireNoBody.bind fun _ =>
    (i.confined_param _).bind fun _ => trivial

theorem confined_rawBlock : (rawBlock i).Confined renders branches :=
  (i.confined_requireCount _ _).bind fun _ => i.confined_requireBody.bind fun _ => trivial

theorem confined_count : (count i).Confined renders branches :=
  (i.confined_requireCount _ _).bind fun _ => (i.confined_param _).bind fun _ =>
    (confined_ofExcept _).bind fun _ => trivial

theorem confined_contains : (contains i).Confined renders branches :=
  (i.confined_requireCount _ _).bind fun _ => (i.confined_param _).bind fun _ =>
    (i.confined_param _).bind fun _ => (confined_ofExcept _).bind fun _ => trivial

theorem confined_transform (f : String → String) : (transform f i).Confined renders branches := by
  refine (i.confined_requireCount _ _).bind fun _ => (i.confined_param _).bind fun v => ?_
  split
  · trivial
  · exact (confined_ofExcept _).bind fun _ => trivial

theorem confined_fallback : (fallback i).Confined renders branches := by
  refine (i.confined_requireCount _ _).bind fun _ => (i.confined_param _).bind fun v => ?_
  split
  · exact (i.confined_param _).bind fun _ => trivial
  · trivial

theorem confined_optionalText (place : Nat) (otherwise : String) :
    (optionalText i place otherwise).Confined renders branches := by
  unfold optionalText
  split
  · exact confined_ofExcept _
  · trivial

theorem confined_join : (join i).Confined renders branches := by
  refine (i.confined_requireCount _ _).bind fun _ => (i.confined_param _).bind fun v =>
    (confined_optionalText i _ _).bind fun separator => ?_
  split
  · trivial
  · exact (confined_ofExcept _).bind fun _ => trivial
  · trivial

theorem confined_date : (date i).Confined renders branches := by
  refine (i.confined_requireCount _ _).bind fun _ => (i.confined_param _).bind fun v =>
    (confined_ofExcept _).bind fun timestamp => ?_
  cases timestamp with
  | none => trivial
  | some timestamp =>
      exact (confined_optionalText i _ _).bind fun _ => (confined_ofExcept _).bind fun _ => trivial

end Values

theorem quiet_condition : (condition i).Quiet := by
  refine (i.confined_requireCount _ _).bind fun _ => i.confined_requireBody.bind fun _ =>
    (i.confined_param _).bind fun v => (confined_ofExcept _).bind fun truth => ?_
  cases truth with
  | true => exact (quiet_renderBody _).bind fun _ => trivial
  | false => exact (quiet_renderElse _).bind fun _ => trivial

theorem quiet_rounds (name : String) (length place : Nat) (written : String)
    (items : List Value) : (rounds i name length place written items).Quiet := by
  induction items generalizing place written with
  | nil => trivial
  | cons element rest ih => exact (quiet_renderBody _).bind fun _ => ih _ _

theorem quiet_loop : (loop i).Quiet := by
  refine (i.confined_requireCount _ _).bind fun _ => i.confined_requireBody.bind fun _ =>
    (i.confined_param _).bind fun v => (confined_ofExcept _).bind fun items =>
      (confined_optionalText i _ _).bind fun name => ?_
  split
  · exact (quiet_renderElse _).bind fun _ => trivial
  · exact (quiet_rounds i _ _ _ _ _).bind fun _ => trivial

theorem quiet_binding : (binding i).Quiet :=
  (i.confined_requireCount _ _).bind fun _ => i.confined_requireBody.bind fun _ =>
    (i.confined_param _).bind fun _ => (confined_ofExcept _).bind fun _ =>
      (i.confined_param _).bind fun _ => (quiet_renderBody _).bind fun _ => trivial

/-- An inclusion renders another template, and no branch. -/
theorem confined_inclusion : (inclusion i).Confined True False :=
  (i.confined_requireCount _ _).bind fun _ => i.confined_requireNoBody.bind fun _ =>
    (i.confined_param _).bind fun _ => (confined_ofExcept _).bind fun _ =>
      ⟨trivial, fun _ => trivial⟩

theorem registry_rendersFirst : registry.RendersFirst := by
  intro entry member i
  simp only [registry, entries, List.mem_cons, List.not_mem_nil, or_false] at member
  rcases member with rfl | rfl | rfl | rfl | rfl | rfl | rfl | rfl | rfl | rfl | rfl | rfl | rfl |
    rfl | rfl
  · exact Plan.Quiet.rendersFirst (confined_output i)
  · exact (quiet_condition i).rendersFirst
  · exact (quiet_loop i).rendersFirst
  · exact (quiet_binding i).rendersFirst
  · exact Plan.rendersFirst_of_no_branch (confined_inclusion i)
  · exact Plan.Quiet.rendersFirst (confined_rawBlock i)
  · trivial
  · exact Plan.Quiet.rendersFirst (confined_count i)
  · exact Plan.Quiet.rendersFirst (confined_contains i)
  · exact Plan.Quiet.rendersFirst (confined_transform i _)
  · exact Plan.Quiet.rendersFirst (confined_transform i _)
  · exact Plan.Quiet.rendersFirst (confined_transform i _)
  · exact Plan.Quiet.rendersFirst (confined_fallback i)
  · exact Plan.Quiet.rendersFirst (confined_join i)
  · exact Plan.Quiet.rendersFirst (confined_date i)

end Builtin

end Templating
