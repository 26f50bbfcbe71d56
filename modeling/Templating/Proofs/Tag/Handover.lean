import Templating.Proofs.Value.Data
import Templating.Tag.Builtin

/-!
# What handlers hand over

A handler hands values to the branches of its block, to the templates that it renders, and to
whoever uses its result.  From a built-in handler these are of whatever closed sort its parameters
and its context are of.  It asks for the frame that it runs in only to say where it failed, so that
nothing of the frame is handed over.
-/

namespace Templating

/-- The object stands for no value but of the sort. -/
def Object.GivesOnly (D : Value → Prop) (object : Object) : Prop :=
  ∀ v, object.toValue = .ok v → D v

namespace Plan

variable {α β : Type} {D : Value → Prop} {P : α → Prop} {Q : β → Prop}

/-- The plan renders against contexts of the sort only, and comes to results that are `P` only.
When it asks for the frame, it is about to fail. -/
def HandsOver (D : Value → Prop) (P : α → Prop) : Plan α → Prop
  | .done result => P result
  | .fail _ => True
  | .note _ next => next.HandsOver D P
  | .ask next => ∀ frame, ∃ e, next frame = .fail e
  | .branch _ context next => (∀ v ∈ context, D v) ∧ ∀ text, (next text).HandsOver D P
  | .path _ context next => D context ∧ ∀ text, (next text).HandsOver D P
  | .source _ context _ next => D context ∧ ∀ text, (next text).HandsOver D P

theorem HandsOver.bind {plan : Plan α} (h : plan.HandsOver D P) {f : α → Plan β}
    (h' : ∀ a, P a → (f a).HandsOver D Q) : (plan >>= f).HandsOver D Q := by
  induction plan with
  | done result => exact h' result h
  | fail => trivial
  | note text next ih => exact ih h
  | ask next =>
      intro frame
      obtain ⟨e, fails⟩ := h frame
      exact ⟨e, congrArg (·.bind f) fails⟩
  | branch which context next ih => exact ⟨h.1, fun text => ih text (h.2 text)⟩
  | path path context next ih => exact ⟨h.1, fun text => ih text (h.2 text)⟩
  | source data context label next ih => exact ⟨h.1, fun text => ih text (h.2 text)⟩

theorem HandsOver.andThen {plan : Plan α} (h : plan.HandsOver D fun _ => True) {f : α → Plan β}
    (h' : ∀ a, (f a).HandsOver D Q) : (plan >>= f).HandsOver D Q :=
  h.bind fun a _ => h' a

theorem handsOver_ofExcept {result : Except Error α} (h : ∀ a, result = .ok a → P a) :
    (Plan.ofExcept result).HandsOver D P := by
  cases result with
  | ok a => exact h a rfl
  | error e => trivial

theorem handsOver_ofExcept_any (result : Except Error α) :
    (Plan.ofExcept result).HandsOver D fun _ => True :=
  handsOver_ofExcept fun _ _ => trivial

end Plan

/-- Parameters and a context of the sort. -/
structure Invocation.Of (D : Value → Prop) (i : Invocation) : Prop where
  params : ∀ v ∈ i.params, D v
  context : D i.context

def TagEntry.HandsOver (D : Value → Prop) (entry : TagEntry) : Prop :=
  ∀ i, Invocation.Of D i → (entry.handler i).HandsOver D (Object.GivesOnly D)

def Registry.HandsOver (D : Value → Prop) (registry : Registry) : Prop :=
  ∀ entry ∈ registry.entries, entry.2.HandsOver D

theorem Registry.HandsOver.of_lookup {D : Value → Prop} {registry : Registry}
    (h : registry.HandsOver D) {name : String} {entry : TagEntry}
    (found : registry.lookup name = some entry) : entry.HandsOver D :=
  h (name, entry) (mem_of_lookup found)

/-! ## Steps that handlers share -/

namespace Invocation

variable {D : Value → Prop} {i : Invocation}

theorem handsOver_breach {α : Type} {P : α → Prop} (problem : ContractProblem) :
    (i.breach problem : Plan α).HandsOver D P := fun _ => ⟨_, rfl⟩

theorem handsOver_requireCount (minimum : Int) (maximum : Option Int) :
    (i.requireCount minimum maximum).HandsOver D fun _ => True := by
  unfold requireCount
  dsimp only
  split
  · trivial
  · exact handsOver_breach _

theorem handsOver_requireBody : i.requireBody.HandsOver D fun _ => True := by
  unfold requireBody
  split
  · trivial
  · exact handsOver_breach _

theorem handsOver_requireNoBody : i.requireNoBody.HandsOver D fun _ => True := by
  unfold requireNoBody
  split
  · exact handsOver_breach _
  · trivial

theorem handsOver_param (own : Of D i) (place : Nat) : (i.param place).HandsOver D D := by
  unfold param
  split
  · next v found => exact own.params v (List.mem_of_getElem? found)
  · trivial

theorem handsOver_renderBody {context : Option Value} (h : ∀ v ∈ context, D v) :
    (renderBody context).HandsOver D fun _ => True :=
  ⟨h, fun _ => trivial⟩

theorem handsOver_renderElse {context : Option Value} (h : ∀ v ∈ context, D v) :
    (renderElse context).HandsOver D fun _ => True :=
  ⟨h, fun _ => trivial⟩

theorem Of.bind (closed : Value.Closed D) (own : Of D i) {bindings : List (String × Value)}
    (h : ∀ binding ∈ bindings, D binding.2) : D (i.bind bindings) := by
  refine (closed.dictionary_iff _).2 (forall_mem_bindEntries ?_ h)
  have outer := own.context
  cases context : i.context with
  | dictionary entries =>
      rw [context] at outer
      exact (closed.dictionary_iff entries).1 outer
  | _ => exact fun _ inside => nomatch inside

end Invocation

/-! ## Built-in tags -/

namespace Builtin

open Invocation
open Plan (handsOver_ofExcept handsOver_ofExcept_any)

variable {D : Value → Prop} {i : Invocation}

theorem givesOnly_value {v : Value} (h : D v) : (value v).GivesOnly D := by
  rintro _ ⟨⟩
  exact h

theorem handsOver_optionalText (place : Nat) (otherwise : String) :
    (optionalText i place otherwise).HandsOver D fun _ => True := by
  unfold optionalText
  split
  · exact handsOver_ofExcept_any _
  · trivial

theorem handsOver_output (own : Of D i) : (output i).HandsOver D (Object.GivesOnly D) :=
  (handsOver_requireCount _ _).andThen fun _ => handsOver_requireNoBody.andThen fun _ =>
    (handsOver_param own _).bind fun _ => givesOnly_value

theorem handsOver_fallback (own : Of D i) : (fallback i).HandsOver D (Object.GivesOnly D) := by
  refine (handsOver_requireCount _ _).andThen fun _ => (handsOver_param own _).bind fun v held => ?_
  split
  · exact (handsOver_param own _).bind fun _ => givesOnly_value
  · exact givesOnly_value held

section Closed

variable (closed : Value.Closed D)

include closed

theorem givesOnly_text (s : String) : (text s).GivesOnly D := by
  rintro _ ⟨⟩
  exact closed.string s

theorem elements_of {v : Value} (own : D v) {items : List Value} (h : elements v = .ok items) :
    ∀ w ∈ items, D w := by
  cases v with
  | array inside =>
      cases h
      exact closed.of_array own
  | dictionary entries =>
      cases h
      intro w member
      obtain ⟨entry, inside, rfl⟩ := List.mem_map.1 member
      have held := (closed.dictionary_iff entries).1 own entry inside
      simp [closed.dictionary_iff, closed.string, held]
  | null =>
      cases h
      exact fun _ member => nomatch member
  | _ => cases h

theorem loopValue_of (length place : Nat) : D (loopValue length place) := by
  simp [loopValue, closed.dictionary_iff, closed.int, closed.bool]

variable (own : Of D i)

include own

theorem handsOver_condition : (condition i).HandsOver D (Object.GivesOnly D) := by
  refine (handsOver_requireCount _ _).andThen fun _ => handsOver_requireBody.andThen fun _ =>
    (handsOver_param own _).bind fun v _ => (handsOver_ofExcept_any _).andThen fun truth => ?_
  cases truth with
  | true => exact (handsOver_renderBody nofun).andThen fun _ => givesOnly_text closed _
  | false => exact (handsOver_renderElse nofun).andThen fun _ => givesOnly_text closed _

theorem handsOver_rounds (name : String) (length place : Nat) (written : String)
    {items : List Value} (h : ∀ v ∈ items, D v) :
    (rounds i name length place written items).HandsOver D fun _ => True := by
  induction items generalizing place written with
  | nil => trivial
  | cons element rest ih =>
      have round : D (roundContext i name length place element) :=
        own.bind closed (by simp [h element, loopValue_of closed])
      have others := fun v member => h v (List.mem_cons_of_mem element member)
      exact (handsOver_renderBody fun _ same => Option.some.inj same ▸ round).andThen
        fun _ => ih _ _ others

theorem handsOver_loop : (loop i).HandsOver D (Object.GivesOnly D) := by
  refine (handsOver_requireCount _ _).andThen fun _ => handsOver_requireBody.andThen fun _ =>
    (handsOver_param own _).bind fun v held =>
      (handsOver_ofExcept fun _ => elements_of closed held).bind fun items all =>
        (handsOver_optionalText _ _).andThen fun name => ?_
  split
  · exact (handsOver_renderElse nofun).andThen fun _ => givesOnly_text closed _
  · exact (handsOver_rounds closed own _ _ _ _ all).andThen fun _ => givesOnly_text closed _

theorem handsOver_binding : (binding i).HandsOver D (Object.GivesOnly D) := by
  refine (handsOver_requireCount _ _).andThen fun _ => handsOver_requireBody.andThen fun _ =>
    (handsOver_param own _).bind fun _ _ => (handsOver_ofExcept_any _).andThen fun name =>
      (handsOver_param own _).bind fun v held => ?_
  have bound : D (i.bind [(name, v)]) := own.bind closed (by simp [held])
  exact (handsOver_renderBody fun _ same => Option.some.inj same ▸ bound).andThen
    fun _ => givesOnly_text closed _

/-- An included template is rendered against the whole context. -/
theorem handsOver_inclusion : (inclusion i).HandsOver D (Object.GivesOnly D) := by
  refine (handsOver_requireCount _ _).andThen fun _ => handsOver_requireNoBody.andThen fun _ =>
    (handsOver_param own _).bind fun _ _ => (handsOver_ofExcept_any _).andThen fun path => ?_
  exact ⟨own.context, fun _ => givesOnly_text closed _⟩

omit own in
theorem handsOver_rawBlock : (rawBlock i).HandsOver D (Object.GivesOnly D) :=
  (handsOver_requireCount _ _).andThen fun _ => handsOver_requireBody.andThen fun _ =>
    givesOnly_text closed _

omit own in
theorem handsOver_comment : (comment i).HandsOver D (Object.GivesOnly D) := by
  rintro _ ⟨⟩
  exact closed.null

theorem handsOver_count : (count i).HandsOver D (Object.GivesOnly D) :=
  (handsOver_requireCount _ _).andThen fun _ => (handsOver_param own _).bind fun _ _ =>
    (handsOver_ofExcept_any _).andThen fun _ => givesOnly_value (closed.int _)

theorem handsOver_contains : (contains i).HandsOver D (Object.GivesOnly D) :=
  (handsOver_requireCount _ _).andThen fun _ => (handsOver_param own _).bind fun _ _ =>
    (handsOver_param own _).bind fun _ _ => (handsOver_ofExcept_any _).andThen fun _ =>
      givesOnly_value (closed.bool _)

theorem handsOver_transform (f : String → String) :
    (transform f i).HandsOver D (Object.GivesOnly D) := by
  refine (handsOver_requireCount _ _).andThen fun _ => (handsOver_param own _).bind fun v held => ?_
  split
  · exact givesOnly_value held
  · exact (handsOver_ofExcept_any _).andThen fun _ => givesOnly_text closed _

theorem handsOver_join : (join i).HandsOver D (Object.GivesOnly D) := by
  refine (handsOver_requireCount _ _).andThen fun _ => (handsOver_param own _).bind fun v _ =>
    (handsOver_optionalText _ _).andThen fun separator => ?_
  split
  · exact givesOnly_text closed _
  · exact (handsOver_ofExcept_any _).andThen fun _ => givesOnly_text closed _
  · trivial

theorem handsOver_date : (date i).HandsOver D (Object.GivesOnly D) := by
  refine (handsOver_requireCount _ _).andThen fun _ => (handsOver_param own _).bind fun v _ =>
    (handsOver_ofExcept_any _).andThen fun timestamp => ?_
  cases timestamp with
  | none => trivial
  | some timestamp =>
      exact (handsOver_optionalText _ _).andThen fun _ => (handsOver_ofExcept_any _).andThen
        fun _ => givesOnly_text closed _

omit own in
/-- What the built-in tags are given decides of what sort all is that they hand over. -/
theorem registry_handsOver : registry.HandsOver D := by
  intro entry member i own
  simp only [registry, entries, List.mem_cons, List.not_mem_nil, or_false] at member
  rcases member with rfl | rfl | rfl | rfl | rfl | rfl | rfl | rfl | rfl | rfl | rfl | rfl | rfl |
    rfl | rfl
  · exact handsOver_output own
  · exact handsOver_condition closed own
  · exact handsOver_loop closed own
  · exact handsOver_binding closed own
  · exact handsOver_inclusion closed own
  · exact handsOver_rawBlock closed
  · exact handsOver_comment (i := i) closed
  · exact handsOver_count closed own
  · exact handsOver_contains closed own
  · exact handsOver_transform closed own _
  · exact handsOver_transform closed own _
  · exact handsOver_transform closed own _
  · exact handsOver_fallback own
  · exact handsOver_join closed own
  · exact handsOver_date closed own

end Closed

end Builtin

end Templating
