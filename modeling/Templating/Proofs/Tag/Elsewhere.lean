import Templating.Error.Report
import Templating.Proofs.Template.Relocation
import Templating.Tag.Builtin

/-!
# Handlers of tags that stand elsewhere

A handler sees where its tag stands and the nodes of its block with their positions.  The built-in
handlers put the line of the tag into their reports and do nothing else with it: for a tag that
stands elsewhere they take the same steps, and fail for the same reason.
-/

namespace Templating

/-! ## Lines left out -/

/-- A chain of renders without the lines of the tags that began them. -/
def unplacedChain (chain : List (String × Int)) : List (String × Int) :=
  chain.map fun entry => (entry.1, 0)

def Site.unplaced (site : Site) : Site :=
  { site with line := none, chain := unplacedChain site.chain }

namespace Error

/-- An error without the lines of the tags that it and its causes were reported by. -/
def unplaced : Error → Error
  | .encodingFailed cause path => .encodingFailed cause.unplaced path
  | .runtime problem site => .runtime problem site.unplaced
  | .contract problem site => .contract problem site.unplaced
  | .unknownTag name available site => .unknownTag name available site.unplaced
  | .tagFailed name cause site => .tagFailed name cause.unplaced site.unplaced
  | e => e

/-- The tag that an error names as the failing one. -/
def tagName? : Error → Option String
  | .unknownTag name .. | .tagFailed name .. => some name
  | _ => none

/-- The error that another one reports. -/
def cause? : Error → Option Error
  | .encodingFailed cause _ | .tagFailed _ cause _ => some cause
  | _ => none

@[simp] theorem className_unplaced (e : Error) : e.unplaced.className = e.className := by
  cases e <;> rfl

@[simp] theorem namesTag_unplaced (e : Error) : e.unplaced.namesTag = e.namesTag := by
  cases e <;> rfl

@[simp] theorem tagName?_unplaced (e : Error) : e.unplaced.tagName? = e.tagName? := by
  cases e <;> rfl

@[simp] theorem cause?_unplaced (e : Error) : e.unplaced.cause? = e.cause?.map unplaced := by
  cases e <;> rfl

end Error

namespace Frame

def unplaced (f : Frame) : Frame := { f with chain := unplacedChain f.chain }

variable {f g : Frame}

theorem unplaced_eq_iff : f.unplaced = g.unplaced ↔
    f.label = g.label ∧ f.depth = g.depth ∧ f.limit = g.limit ∧
      unplacedChain f.chain = unplacedChain g.chain := by
  simp only [unplaced, mk.injEq]

theorem remaining_of_unplaced (same : f.unplaced = g.unplaced) : f.remaining = g.remaining := by
  obtain ⟨-, depth, limit, -⟩ := unplaced_eq_iff.1 same
  rw [remaining, remaining, depth, limit]

theorem unplaced_refusal (same : f.unplaced = g.unplaced) (line line' : Int) (label : String) :
    (f.refusal line label).unplaced = (g.refusal line' label).unplaced := by
  obtain ⟨own, -, limit, chain⟩ := unplaced_eq_iff.1 same
  simp only [refusal, Error.unplaced, Site.unplaced, own, limit, chain]

theorem unplacedChain_chainAt (same : f.unplaced = g.unplaced) (line line' : Int) :
    unplacedChain (f.chainAt line) = unplacedChain (g.chainAt line') := by
  obtain ⟨own, -, -, chain⟩ := unplaced_eq_iff.1 same
  unfold chainAt
  rw [own]
  split
  · exact chain
  · exact chain
  · simp only [unplacedChain, List.map_append, List.map_cons, List.map_nil] at chain ⊢
    rw [chain]

theorem unplaced_child (same : f.unplaced = g.unplaced) (line line' : Int) (label : String) :
    (f.child line label).unplaced = (g.child line' label).unplaced := by
  obtain ⟨-, depth, limit, -⟩ := unplaced_eq_iff.1 same
  rw [unplaced_eq_iff]
  exact ⟨rfl, congrArg (· + 1) depth, limit, unplacedChain_chainAt same line line'⟩

end Frame

/-! ## Plans -/

namespace Plan

/-- The plans take the same steps but may fail with errors that differ in lines; so may the frames
that they are told. -/
inductive Elsewhere {α : Type} : Plan α → Plan α → Prop
  | done (result : α) : Elsewhere (.done result) (.done result)
  | fail {e e' : Error} : e.unplaced = e'.unplaced → Elsewhere (.fail e) (.fail e')
  | note (text : String) {next other : Plan α} :
      Elsewhere next other → Elsewhere (.note text next) (.note text other)
  | ask {next other : Option (Frame × Int) → Plan α} :
      (∀ current current' : Option (Frame × Int),
        current.map (fun c => c.1.unplaced) = current'.map (fun c => c.1.unplaced) →
        Elsewhere (next current) (other current')) →
      Elsewhere (.ask next) (.ask other)
  | branch (which : Branch) (context : Option Value) {next other : String → Plan α} :
      (∀ text, Elsewhere (next text) (other text)) →
      Elsewhere (.branch which context next) (.branch which context other)
  | path (path : String) (context : Value) {next other : String → Plan α} :
      (∀ text, Elsewhere (next text) (other text)) →
      Elsewhere (.path path context next) (.path path context other)
  | source (data : List UInt8) (context : Value) (label : String) {next other : String → Plan α} :
      (∀ text, Elsewhere (next text) (other text)) →
      Elsewhere (.source data context label next) (.source data context label other)

variable {α β : Type}

theorem Elsewhere.bind {plan other : Plan α} (h : plan.Elsewhere other) {f g : α → Plan β}
    (h' : ∀ a, (f a).Elsewhere (g a)) : (plan >>= f).Elsewhere (other >>= g) := by
  induction h with
  | done result => exact h' result
  | fail same => exact .fail same
  | note text _ ih => exact .note text ih
  | ask _ ih => exact .ask ih
  | branch which context _ ih => exact .branch which context ih
  | path path context _ ih => exact .path path context ih
  | source data context label _ ih => exact .source data context label ih

theorem Elsewhere.ite {c c' : Prop} [Decidable c] [Decidable c'] (same : c ↔ c')
    {plan plan' other other' : Plan α} (h : plan.Elsewhere other) (h' : plan'.Elsewhere other') :
    (if c then plan else plan').Elsewhere (if c' then other else other') := by
  by_cases holds : c
  · rw [if_pos holds, if_pos (same.1 holds)]
    exact h
  · rw [if_neg holds, if_neg (mt same.2 holds)]
    exact h'

theorem elsewhere_ofExcept (result : Except Error α) :
    (ofExcept result).Elsewhere (ofExcept result) := by
  cases result with
  | ok a => exact .done a
  | error e => exact .fail rfl

end Plan

/-! ## Invocations -/

/-- The same tag with all positions moved. -/
def Invocation.relocate (f : Position → Position) (i : Invocation) : Invocation :=
  { i with
    body := relocateBranch f i.body
    orelse := relocateBranch f i.orelse
    position := f i.position }

/-- The handler takes no notice of where its tag stands. -/
def TagEntry.Placeless (entry : TagEntry) : Prop :=
  ∀ f i, (entry.handler i).Elsewhere (entry.handler (i.relocate f))

def Registry.Placeless (registry : Registry) : Prop :=
  ∀ entry ∈ registry.entries, entry.2.Placeless

theorem Registry.Placeless.of_lookup {registry : Registry} (h : registry.Placeless)
    {name : String} {entry : TagEntry} (found : registry.lookup name = some entry) :
    entry.Placeless :=
  h (name, entry) (mem_of_lookup found)

theorem rawText_relocate (f : Position → Position) (node : Node) :
    (node.relocate f).rawText = node.rawText := by
  cases node <;> rfl

theorem map_rawText_relocateBranch (f : Position → Position) (branch : Option (List Node)) :
    ((relocateBranch f branch).getD []).map Node.rawText =
      (branch.getD []).map Node.rawText := by
  cases branch with
  | none => rfl
  | some nodes =>
      rw [relocateBranch, Option.getD_some, relocateAll_eq_map, List.map_map]
      exact List.map_congr_left fun node _ => rawText_relocate f node

namespace Invocation

variable (i : Invocation) (f : Position → Position)

theorem isSome_body_relocate : i.body.isSome = true ↔ (i.relocate f).body.isSome = true := by
  cases body : i.body <;> simp [relocate, relocateBranch, body]

theorem elsewhere_breach {α : Type} (problem : ContractProblem) :
    (i.breach problem : Plan α).Elsewhere ((i.relocate f).breach problem) := by
  refine .ask fun current current' same => .fail ?_
  have template : (current.bind fun c => c.1.label) = current'.bind fun c => c.1.label := by
    have labels := congrArg (fun frame => frame.bind Frame.label) same
    simpa only [Option.bind_map, Function.comp_def, Frame.unplaced] using labels
  simp only [Error.unplaced, Site.unplaced, template]

theorem elsewhere_requireCount (minimum : Int) (maximum : Option Int) :
    (i.requireCount minimum maximum).Elsewhere ((i.relocate f).requireCount minimum maximum) :=
  .ite Iff.rfl (.done ()) (i.elsewhere_breach f _)

theorem elsewhere_requireBody : i.requireBody.Elsewhere (i.relocate f).requireBody :=
  .ite (i.isSome_body_relocate f) (.done ()) (i.elsewhere_breach f _)

theorem elsewhere_requireNoBody : i.requireNoBody.Elsewhere (i.relocate f).requireNoBody :=
  .ite (i.isSome_body_relocate f) (i.elsewhere_breach f _) (.done ())

theorem elsewhere_param (place : Nat) :
    (i.param place).Elsewhere ((i.relocate f).param place) := by
  change Plan.Elsewhere _ (i.param place)
  unfold param
  split
  · exact .done _
  · exact .fail rfl

theorem elsewhere_renderBody (context : Option Value) :
    (renderBody context).Elsewhere (renderBody context) :=
  .branch _ _ .done

theorem elsewhere_renderElse (context : Option Value) :
    (renderElse context).Elsewhere (renderElse context) :=
  .branch _ _ .done

end Invocation

/-! ## Built-in tags -/

namespace Builtin

open Invocation
open Plan (elsewhere_ofExcept)

variable (i : Invocation) (f : Position → Position)

theorem elsewhere_output : (output i).Elsewhere (output (i.relocate f)) :=
  (i.elsewhere_requireCount f _ _).bind fun _ => (i.elsewhere_requireNoBody f).bind fun _ =>
    (i.elsewhere_param f _).bind fun _ => .done _

theorem elsewhere_condition : (condition i).Elsewhere (condition (i.relocate f)) := by
  refine (i.elsewhere_requireCount f _ _).bind fun _ => (i.elsewhere_requireBody f).bind fun _ =>
    (i.elsewhere_param f _).bind fun v => (elsewhere_ofExcept _).bind fun truth => ?_
  cases truth with
  | true => exact (elsewhere_renderBody _).bind fun _ => .done _
  | false => exact (elsewhere_renderElse _).bind fun _ => .done _

theorem elsewhere_rounds (name : String) (length place : Nat) (written : String)
    (items : List Value) :
    (rounds i name length place written items).Elsewhere
      (rounds (i.relocate f) name length place written items) := by
  induction items generalizing place written with
  | nil => exact .done written
  | cons element rest ih => exact (elsewhere_renderBody _).bind fun _ => ih _ _

theorem elsewhere_optionalText (place : Nat) (otherwise : String) :
    (optionalText i place otherwise).Elsewhere
      (optionalText (i.relocate f) place otherwise) := by
  change Plan.Elsewhere _ (optionalText i place otherwise)
  unfold optionalText
  split
  · exact elsewhere_ofExcept _
  · exact .done _

theorem elsewhere_loop : (loop i).Elsewhere (loop (i.relocate f)) := by
  refine (i.elsewhere_requireCount f _ _).bind fun _ => (i.elsewhere_requireBody f).bind fun _ =>
    (i.elsewhere_param f _).bind fun v => (elsewhere_ofExcept _).bind fun items =>
      (elsewhere_optionalText i f _ _).bind fun name => ?_
  split
  · exact (elsewhere_renderElse _).bind fun _ => .done _
  · exact (elsewhere_rounds i f _ _ _ _ _).bind fun _ => .done _

theorem elsewhere_binding : (binding i).Elsewhere (binding (i.relocate f)) :=
  (i.elsewhere_requireCount f _ _).bind fun _ => (i.elsewhere_requireBody f).bind fun _ =>
    (i.elsewhere_param f _).bind fun _ => (elsewhere_ofExcept _).bind fun _ =>
      (i.elsewhere_param f _).bind fun _ => (elsewhere_renderBody _).bind fun _ => .done _

theorem elsewhere_inclusion : (inclusion i).Elsewhere (inclusion (i.relocate f)) :=
  (i.elsewhere_requireCount f _ _).bind fun _ => (i.elsewhere_requireNoBody f).bind fun _ =>
    (i.elsewhere_param f _).bind fun _ => (elsewhere_ofExcept _).bind fun _ =>
      .path _ _ fun _ => .done _

/-- A raw block hands out the text in its body, wherever the body stands. -/
theorem elsewhere_rawBlock : (rawBlock i).Elsewhere (rawBlock (i.relocate f)) := by
  refine (i.elsewhere_requireCount f _ _).bind fun _ => (i.elsewhere_requireBody f).bind fun _ => ?_
  simp only [relocate, map_rawText_relocateBranch]
  exact .done _

theorem elsewhere_count : (count i).Elsewhere (count (i.relocate f)) :=
  (i.elsewhere_requireCount f _ _).bind fun _ => (i.elsewhere_param f _).bind fun _ =>
    (elsewhere_ofExcept _).bind fun _ => .done _

theorem elsewhere_contains : (contains i).Elsewhere (contains (i.relocate f)) :=
  (i.elsewhere_requireCount f _ _).bind fun _ => (i.elsewhere_param f _).bind fun _ =>
    (i.elsewhere_param f _).bind fun _ => (elsewhere_ofExcept _).bind fun _ => .done _

theorem elsewhere_transform (g : String → String) :
    (transform g i).Elsewhere (transform g (i.relocate f)) := by
  refine (i.elsewhere_requireCount f _ _).bind fun _ => (i.elsewhere_param f _).bind fun v => ?_
  split
  · exact .done _
  · exact (elsewhere_ofExcept _).bind fun _ => .done _

theorem elsewhere_fallback : (fallback i).Elsewhere (fallback (i.relocate f)) := by
  refine (i.elsewhere_requireCount f _ _).bind fun _ => (i.elsewhere_param f _).bind fun v => ?_
  split
  · exact (i.elsewhere_param f _).bind fun _ => .done _
  · exact .done _

theorem elsewhere_join : (join i).Elsewhere (join (i.relocate f)) := by
  refine (i.elsewhere_requireCount f _ _).bind fun _ => (i.elsewhere_param f _).bind fun v =>
    (elsewhere_optionalText i f _ _).bind fun separator => ?_
  split
  · exact .done _
  · exact (elsewhere_ofExcept _).bind fun _ => .done _
  · exact .fail rfl

theorem elsewhere_date : (date i).Elsewhere (date (i.relocate f)) := by
  refine (i.elsewhere_requireCount f _ _).bind fun _ => (i.elsewhere_param f _).bind fun v =>
    (elsewhere_ofExcept _).bind fun timestamp => ?_
  cases timestamp with
  | none => exact .fail rfl
  | some timestamp =>
      exact (elsewhere_optionalText i f _ _).bind fun _ => (elsewhere_ofExcept _).bind fun _ =>
        .done _

theorem registry_placeless : registry.Placeless := by
  intro entry member f i
  simp only [registry, entries, List.mem_cons, List.not_mem_nil, or_false] at member
  rcases member with rfl | rfl | rfl | rfl | rfl | rfl | rfl | rfl | rfl | rfl | rfl | rfl | rfl |
    rfl | rfl
  · exact elsewhere_output i f
  · exact elsewhere_condition i f
  · exact elsewhere_loop i f
  · exact elsewhere_binding i f
  · exact elsewhere_inclusion i f
  · exact elsewhere_rawBlock i f
  · exact .done _
  · exact elsewhere_count i f
  · exact elsewhere_contains i f
  · exact elsewhere_transform i f _
  · exact elsewhere_transform i f _
  · exact elsewhere_transform i f _
  · exact elsewhere_fallback i f
  · exact elsewhere_join i f
  · exact elsewhere_date i f

end Builtin

end Templating
