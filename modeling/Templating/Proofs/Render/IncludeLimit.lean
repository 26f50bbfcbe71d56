import Templating.Proofs.Render.Derivation
import Templating.Proofs.Tag.Handover

/-!
# The limit of includes

The limit of a renderer bounds how many renders enclose one, and does nothing else.  A render beyond
it is refused, the tag that began that render fails in turn, and no handler makes up for a failure.
A render that succeeds was thus refused nowhere, and goes through the same steps under any limit
that is as high or higher.
-/

namespace Templating

/-! ## Other limits -/

def Frame.withLimit (limit : Int) (f : Frame) : Frame := { f with limit := limit }

theorem Frame.isFull_withLimit {f : Frame} {limit : Int} (higher : f.limit ≤ limit)
    (free : f.isFull = false) : (f.withLimit limit).isFull = false := by
  have room : ¬ f.limit ≤ f.depth := of_decide_eq_false free
  have more : ¬ limit ≤ f.depth := fun reached => room (Int.le_trans higher reached)
  exact decide_eq_false more

def Place.withLimit (limit : Int) (place : Place) : Place :=
  { place with frame := place.frame.withLimit limit }

def Renderer.withLimit (limit : Int) (r : Renderer) : Renderer := { r with limit := limit }

/-- A place in which no more is allowed than up to the limit, and the tag that is there. -/
def Place.UpTo (limit : Int) (current : Option (Place × Invocation)) : Prop :=
  ∀ c ∈ current, c.1.frame.limit ≤ limit

/-- A render that may begin may begin under the higher limit as well. -/
theorem Frame.enter_withLimit {current : Option (Place × Invocation)} {line own limit : Int}
    {label : String} {frame : Frame} (upTo : Place.UpTo limit current) (higher : own ≤ limit)
    (entered : enter (current.map fun c => (c.1.frame, line)) label own = .ok frame) :
    frame.limit ≤ limit ∧
      enter ((current.map (Prod.map (Place.withLimit limit) id)).map fun c => (c.1.frame, line))
        label limit = .ok (frame.withLimit limit) := by
  cases current with
  | none =>
      cases entered
      exact ⟨higher, rfl⟩
  | some c =>
      have outer : c.1.frame.limit ≤ limit := upTo c rfl
      cases full : c.1.frame.isFull with
      | true =>
          rw [Option.map_some, enter_of_isFull full] at entered
          cases entered
      | false =>
          rw [Option.map_some, enter_of_free full] at entered
          cases entered
          exact ⟨outer, enter_of_free (isFull_withLimit outer full) line label limit⟩

/-! ## Evaluation under a higher limit -/

/-- The plan fails if it comes to look at the frame. -/
abbrev Plan.Unaware (steps : Plan Object) : Prop :=
  steps.HandsOver (fun _ => True) (Object.GivesOnly fun _ => True)

/-- The same task under a limit that is as high or higher. -/
inductive Task.Widened (limit : Int) : {k : Task.Kind} → Task k → Task k → Prop
  | root (target : Target) (context : Object) :
      Widened limit (.root target context) (.root target context)
  | render {current : Option (Place × Invocation)} {target : Target} {context : Value} :
      Place.UpTo limit current →
      Widened limit (.render current target context)
        (.render (current.map (Prod.map (Place.withLimit limit) id)) target context)
  | nodes {place : Place} {context : Value} {nodes : List Node} :
      place.frame.limit ≤ limit →
      Widened limit (.nodes place context nodes) (.nodes (place.withLimit limit) context nodes)
  | node {place : Place} {context : Value} {node : Node} :
      place.frame.limit ≤ limit →
      Widened limit (.node place context node) (.node (place.withLimit limit) context node)
  | all {place : Place} {context : Value} {nodes : List Node} :
      place.frame.limit ≤ limit →
      Widened limit (.all place context nodes) (.all (place.withLimit limit) context nodes)
  | plan {place : Place} {tag : Invocation} {steps : Plan Object} :
      place.frame.limit ≤ limit → steps.Unaware →
      Widened limit (.plan place tag steps) (.plan (place.withLimit limit) tag steps)

theorem Task.Widened.inner {limit : Int} {place : Place} {tag : Invocation} {target : Target}
    {context : Value} (upTo : place.frame.limit ≤ limit) :
    Widened limit (.render (some (place, tag)) target context)
      (.render (some (place.withLimit limit, tag)) target context) := by
  refine .render fun c same => ?_
  cases same
  exact upTo

theorem around_withLimit (limit : Int) (current : Option (Place × Invocation)) :
    around (current.map (Prod.map (Place.withLimit limit) id)) = around current := by
  cases current <;> rfl

/-- What succeeds does so in the same way under a limit that is as high or higher. -/
theorem Evaluates.withLimit {r : Renderer} {limit : Int}
    (unaware : r.registry.HandsOver fun _ => True) (higher : r.limit ≤ limit) {k : Task.Kind}
    {task task' : Task k} {s after : State} {result : Except Error k.Result}
    {trace : List Incident} (h : Evaluates r task s result after trace)
    (same : Task.Widened limit task task') {x : k.Result} (succeeds : result = .ok x) :
    ∃ trace', Evaluates (r.withLimit limit) task' s result after trace' := by
  induction h with
  | root_fails | render_fails | render_refused | cons_fails | cons_textless | bare | tag_unknown
  | tag_fails | all_fails | fail | branch_fails | path_fails | source_fails => cases succeeds
  | root ready _ ih =>
      cases same with | root target context =>
      obtain ⟨_, rendered⟩ := ih (.render nofun) succeeds
      exact ⟨_, .root ready rendered⟩
  | @render current _ _ _ _ _ _ _ _ _ _ fetched entered _ ih =>
      cases same with | render upTo =>
      obtain ⟨below, entered'⟩ := Frame.enter_withLimit upTo higher entered
      obtain ⟨_, nodes⟩ := ih (.nodes below) succeeds
      rw [← around_withLimit limit current] at nodes
      exact ⟨_, .render fetched entered' nodes⟩
  | nil =>
      cases same with | nodes upTo =>
      exact ⟨_, .nil⟩
  | cons _ shown _ ih ih' =>
      cases same with | nodes upTo =>
      obtain ⟨_, others, -⟩ := map_eq_ok_iff.1 succeeds
      obtain ⟨_, first⟩ := ih (.node upTo) rfl
      obtain ⟨_, later⟩ := ih' (.nodes upTo) others
      exact ⟨_, .cons first shown later⟩
  | raw =>
      cases same with | node upTo =>
      exact ⟨_, .raw⟩
  | constant =>
      cases same with | node upTo =>
      exact ⟨_, .constant⟩
  | identifier =>
      cases same with | node upTo =>
      exact ⟨_, .identifier⟩
  | @tag place context p name _ body orelse entry values _ _ _ result _ _ known _ _ ih ih' =>
      cases same with | node upTo =>
      let tag : Invocation := ⟨name, values, body, orelse, context, p⟩
      have steps : (entry.handler tag).Unaware :=
        unaware.of_lookup known tag ⟨fun _ _ => trivial, trivial⟩
      cases result with
      | error e => cases succeeds
      | ok object =>
          obtain ⟨_, params⟩ := ih (.all upTo) rfl
          obtain ⟨_, handled⟩ := ih' (.plan upTo steps) rfl
          exact ⟨_, .tag known params handled⟩
  | all_nil =>
      cases same with | all upTo =>
      exact ⟨_, .all_nil⟩
  | all_cons _ _ ih ih' =>
      cases same with | all upTo =>
      obtain ⟨_, others, -⟩ := map_eq_ok_iff.1 succeeds
      obtain ⟨_, first⟩ := ih (.node upTo) rfl
      obtain ⟨_, later⟩ := ih' (.all upTo) others
      exact ⟨_, .all_cons first later⟩
  | done =>
      cases same with | plan upTo steps =>
      exact ⟨_, .done⟩
  | note _ ih =>
      cases same with | plan upTo steps =>
      obtain ⟨_, later⟩ := ih (.plan upTo steps) succeeds
      exact ⟨_, .note later⟩
  | ask later =>
      cases same with | plan upTo steps =>
      -- A plan that asks for the frame fails, whatever frame it is.
      obtain ⟨e, fails⟩ := steps _
      rw [fails] at later
      cases later
      cases succeeds
  | branch _ _ ih ih' =>
      cases same with | plan upTo steps =>
      obtain ⟨_, rendered⟩ := ih (.nodes upTo) rfl
      obtain ⟨_, later⟩ := ih' (.plan upTo (steps.2 _)) succeeds
      exact ⟨_, .branch rendered later⟩
  | path _ _ ih ih' =>
      cases same with | plan upTo steps =>
      obtain ⟨_, rendered⟩ := ih (.inner upTo) rfl
      obtain ⟨_, later⟩ := ih' (.plan upTo (steps.2 _)) succeeds
      exact ⟨_, .path rendered later⟩
  | source _ _ ih ih' =>
      cases same with | plan upTo steps =>
      obtain ⟨_, rendered⟩ := ih (.inner upTo) rfl
      obtain ⟨_, later⟩ := ih' (.plan upTo (steps.2 _)) succeeds
      exact ⟨_, .source rendered later⟩

/-! ## Sessions -/

namespace Session

/-- With the built-in tags, a render that succeeds does so under every higher limit, with the same
text, and leaves the same behind. -/
theorem render_of_setLimit (s : Session) (builtin : s.renderer.registry = Builtin.registry)
    {limit : Int} (higher : s.renderer.limit ≤ limit) {target : Target} {context : Object}
    {text : String} (succeeds : (s.render target context).1 = .ok text) :
    let widened := (s.perform (.setLimit limit)).2
    (widened.render target context).1 = .ok text ∧
      (widened.render target context).2.state = (s.render target context).2.state := by
  have unaware : s.renderer.registry.HandsOver fun _ => True := by
    rw [builtin]
    exact Builtin.registry_handsOver Value.closed_true
  obtain ⟨trace, own⟩ := derivable_root s.renderer target context s.state _ _ rfl
  obtain ⟨trace', wide⟩ := own.withLimit unaware higher (.root target context) succeeds
  obtain ⟨_, run⟩ :=
    derivable_root (s.renderer.withLimit limit) target context s.state _ _ rfl
  obtain ⟨result, after, -⟩ := wide.unique run
  exact ⟨result.trans succeeds, after⟩

def letterSource : List UInt8 :=
  Text.Utf8.encode "Dear \x7b\x7b name \x7d\x7d, \x7b% include \"closing\" %\x7d"

/-- A letter includes its closing, and that a signature. -/
def letterRenderer : Renderer where
  registry := Builtin.registry
  loader := Loader.table
    [("closing.html", Text.Utf8.encode "yours, \x7b% include \"signature\" %\x7d"),
      ("signature.html", Text.Utf8.encode "Bob")]
  ending := ".html"
  directory := ""
  limit := 2

/-- Two renders within the letter are enough for it, so more do no harm; one is too few. -/
theorem render_letter :
    let s := start letterRenderer none
    let letter : Target := .source letterSource "letter"
    let context := Object.ofValue (.dictionary [("name", .string "Ada")])
    let wide := (s.perform (.setLimit 50)).2
    let narrow := (s.perform (.setLimit 1)).2
    (s.render letter context).1 = .ok "Dear Ada, yours, Bob" ∧
      (wide.render letter context).1 = .ok "Dear Ada, yours, Bob" ∧
      (narrow.render letter context).1.toOption = none := by
  intro s letter context wide narrow
  have succeeds : (s.render letter context).1 = .ok "Dear Ada, yours, Bob" :=
    eq_ok_of_toOption (by decide +kernel)
  have same := render_of_setLimit s rfl (by decide : (2 : Int) ≤ 50) succeeds
  exact ⟨succeeds, same.1, by decide +kernel⟩

end Session

end Templating
