import Templating.Proofs.Render.Failure

/-!
# Rounds of a loop

A loop renders its body once for each element of its collection, one round after the other.  Each
round has a context of its own, the enclosing one with two bindings laid over it, and no other round
and no tag of the body lays anything over that: what a tag renders its own body against is gone
after the tag.
-/

namespace Templating

namespace Run

/-- One run for each of the given in order, each from the state that the last one left, up to the
first that fails, whose error is the result. -/
inductive InTurn {α β : Type} (action : α → Run β) :
    List α → State → Except Error (List β) → State → Prop
  | nil {s : State} : InTurn action [] s (.ok []) s
  | fails {a : α} {rest : List α} {s after : State} {e : Error} :
      action a s = (.error e, after) → InTurn action (a :: rest) s (.error e) after
  | cons {a : α} {rest : List α} {s mid after : State} {b : β} {others : Except Error (List β)} :
      action a s = (.ok b, mid) → InTurn action rest mid others after →
      InTurn action (a :: rest) s (others.map (b :: ·)) after

end Run

theorem run_bind {α β : Type} (host : Host) (branch : Branch → Option Value → Run String)
    (plan : Plan α) (f : α → Plan β) :
    (plan.bind f).run host branch = (do (f (← plan.run host branch)).run host branch) := by
  induction plan with
  | done result => rfl
  | fail error => rfl
  | note text next ih => simp only [Plan.bind, Plan.run, ih, bind_assoc]
  | ask next ih => simp only [Plan.bind, Plan.run, ih, bind_assoc]
  | branch which context next ih => simp only [Plan.bind, Plan.run, ih, bind_assoc]
  | path target context next ih => simp only [Plan.bind, Plan.run, ih, bind_assoc]
  | source data context label next ih => simp only [Plan.bind, Plan.run, ih, bind_assoc]

/-! ## Tags whose parameters are evaluated -/

/-- The state in which the handler of a tag starts. -/
def Host.entered (host : Host) (line : Int) (s : State) : State :=
  if host.frame.isSome then { s with line := line } else s

theorem Host.enterTag_apply (host : Host) (line : Int) (s : State) :
    host.enterTag line s = (.ok (), host.entered line s) := by
  unfold Host.enterTag Host.entered
  split <;> rfl

/-- A branch of the tag rendered, against its own context if no other is given. -/
def Invocation.branchIn (host : Host) (i : Invocation) (which : Branch) (other : Option Value) :
    Run String :=
  renderBranch host (other.getD i.context) (i.branch which)

theorem evaluate_of_params {host : Host} {name : String} {entry : TagEntry}
    (known : host.registry.lookup name = some entry) {context : Value} {p : Position}
    {params : List Node} {values : List Value} {s mid : State}
    (evaluated : evaluateAll host context params s = (.ok values, mid))
    (body orelse : Option (List Node)) {result : Except Error Object} {after : State}
    (handled : (entry.handler ⟨name, values, body, orelse, context, p⟩).run host
      (Invocation.branchIn host ⟨name, values, body, orelse, context, p⟩)
      (host.entered p.line mid) = (result, after)) :
    evaluate host context (.tag p name params body orelse) s =
      ((result.bind Object.toValue).mapError (host.report name p.line), after) := by
  rw [evaluate_of_known known, Run.mapErrors_apply, Run.bind_of_ok evaluated,
    Run.bind_of_ok (host.enterTag_apply p.line mid), Run.bind_ofExcept_apply]
  unfold Invocation.branchIn at handled
  rw [handled]

/-! ## Collections and rounds -/

/-- What a loop over a collection goes through: the elements of an array, or the entries of a
dictionary, each as a dictionary of its key and its value. -/
inductive Value.HasElements : Value → List Value → Prop
  | array {items : List Value} : HasElements (.array items) items
  | dictionary {entries : List (String × Value)} :
      HasElements (.dictionary entries)
        (entries.map fun entry => .dictionary [("key", .string entry.1), ("value", entry.2)])

/-- The name under which a loop binds the element: the text of its second parameter. -/
inductive NamesElement : List Value → String → Prop
  | default : NamesElement [] "item"
  | given {v : Value} {name : String} : v.text = .ok name → NamesElement [v] name

/-- What a name stands for in a round of a loop. -/
def boundInRound (context : Value) (name : String) (length place : Nat) (element : Value)
    (key : String) : Option Value :=
  if key = "loop" then
    some (.dictionary
      [("index", .int (place + 1)), ("index0", .int place), ("first", .bool (decide (place = 0))),
        ("last", .bool (decide (place = length - 1))), ("length", .int length)])
  else if key = name then some element
  else
    match context with
    | .dictionary entries => entries.lookup key
    | _ => none

def IsRound (context : Value) (name : String) (length place : Nat) (element round : Value) : Prop :=
  ∃ entries, round = .dictionary entries ∧
    ∀ key, entries.lookup key = boundInRound context name length place element key

namespace Builtin

open Invocation

variable {host : Host} {i : Invocation}

theorem isRound_roundContext {length place : Nat} (inside : place < length) (name : String)
    (element : Value) :
    IsRound i.context name length place element (roundContext i name length place element) := by
  refine ⟨_, rfl, fun key => ?_⟩
  have last : (place + 1 == length) = decide (place = length - 1) := by
    rw [Bool.eq_iff_iff]
    simp only [beq_iff_eq, decide_eq_true_eq]
    omega
  have first : (place == 0) = decide (place = 0) := rfl
  simp only [bindEntries, List.foldl_cons, List.foldl_nil, lookup_bindEntry, loopValue, last, first,
    boundInRound]
  cases i.context <;> rfl

theorem toValue_of_text {α : Type} (result : Except Error α) (f : α → String) :
    (result.map fun a => text (f a)).bind Object.toValue = result.map fun a => .string (f a) := by
  cases result <;> rfl

theorem run_rounds (branch : Branch → Option Value → Run String) (name : String) (length : Nat)
    (items : List Value) (place : Nat) (written : String) (s : State) :
    ∃ parts after,
      Run.InTurn (fun turn => branch .body (some (roundContext i name length turn.2 turn.1)))
        (items.zipIdx place) s parts after ∧
      (rounds i name length place written items).run host branch s =
        (parts.map fun texts => written ++ String.join texts, after) := by
  induction items generalizing place written s with
  | nil =>
      refine ⟨.ok [], s, .nil, ?_⟩
      rw [rounds, Plan.run]
      simp [Except.map]
  | cons element rest ih =>
      have opened : (rounds i name length place written (element :: rest)).run host branch =
          branch .body (some (roundContext i name length place element)) >>= fun next =>
            (rounds i name length (place + 1) (written ++ next) rest).run host branch := rfl
      rw [List.zipIdx_cons, opened]
      rcases ran : branch .body (some (roundContext i name length place element)) s with
        ⟨e | text, mid⟩
      · exact ⟨.error e, mid, .fails ran, Run.bind_of_error ran _⟩
      · obtain ⟨parts, after, later, rest⟩ := ih (place + 1) (written ++ text) mid
        refine ⟨_, after, .cons ran later, ?_⟩
        rw [Run.bind_of_ok ran, rest]
        cases parts <;> simp [Except.map, String.append_assoc]

section Loop

variable {collection : Value} {named : List Value} {name : String} {body : List Node}

theorem loop_eq (params : i.params = collection :: named) (block : i.body = some body)
    (called : NamesElement named name) :
    loop i = (Plan.ofExcept (elements collection)).bind fun items =>
      (if items.isEmpty then renderElse none else rounds i name items.length 0 "" items).bind
        fun written => .done (text written) := by
  have given : i.param 0 = .done collection := by simp [param, params]
  have closed : i.requireBody = .done () := by simp [requireBody, block]
  have counted : i.requireCount 1 (some 2) = .done () := by
    cases called <;> simp [requireCount, params]
  have chosen : optionalText i 1 "item" = .done name := by
    cases called with
    | default => simp [optionalText, params]
    | given own => simp [optionalText, params, own, Plan.ofExcept]
  rw [loop, counted, closed, given, chosen]
  change (Plan.ofExcept (elements collection)).bind _ = _
  congr 1
  funext items
  change (if items.isEmpty then (renderElse none).bind _ else (rounds _ _ _ _ _ _).bind _) = _
  split <;> rfl

variable (host) (branch : Branch → Option Value → Run String) (s : State)

theorem run_loop_rounds (params : i.params = collection :: named) (block : i.body = some body)
    (called : NamesElement named name) {items : List Value}
    (own : elements collection = .ok items) (more : items ≠ []) :
    ∃ texts after,
      Run.InTurn
        (fun turn => branch .body (some (roundContext i name items.length turn.2 turn.1)))
        items.zipIdx s texts after ∧
      (loop i).run host branch s =
        (texts.map fun parts => text (String.join parts), after) := by
  obtain ⟨texts, after, turns, ran⟩ :=
    @run_rounds host i branch name items.length items 0 "" s
  refine ⟨texts, after, turns, ?_⟩
  have nonempty : ¬ items.isEmpty = true := by simpa using more
  rw [loop_eq params block called, own]
  change (((if items.isEmpty then _ else _ : Plan String).bind _).run host branch) s = _
  rw [if_neg nonempty, run_bind]
  change (_ >>= fun written => pure (text written) : Run Object) s = _
  rw [Run.bind_pure_apply, ran]
  cases texts <;> simp [Except.map]

theorem run_loop_empty (params : i.params = collection :: named) (block : i.body = some body)
    (called : NamesElement named name) (own : elements collection = .ok []) :
    (loop i).run host branch s =
      ((branch .orelse none s).1.map text, (branch .orelse none s).2) := by
  rw [loop_eq params block called, own]
  change (branch .orelse none >>= fun written => pure (text written) : Run Object) s = _
  rw [Run.bind_pure_apply]

theorem run_loop_refused (params : i.params = collection :: named) (block : i.body = some body)
    (called : NamesElement named name) {e : Error} (own : elements collection = .error e) :
    (loop i).run host branch s = (.error e, s) := by
  rw [loop_eq params block called, own]
  rfl

end Loop

end Builtin

/-! ## Loops -/

theorem elements_of_hasElements {collection : Value} {items : List Value}
    (h : collection.HasElements items) : Builtin.elements collection = .ok items := by
  cases h <;> rfl

theorem elements_of_other {collection : Value} (some : collection ≠ .null)
    (other : ∀ items, ¬ collection.HasElements items) :
    Builtin.elements collection = .error (.fault (.notIterable collection.kind)) := by
  cases collection with
  | null => exact absurd rfl some
  | array items => exact absurd .array (other _)
  | dictionary entries => exact absurd .dictionary (other _)
  | _ => rfl

/-- The body rendered against the contexts of the rounds in turn, one for each element. -/
def RendersRounds (host : Host) (context : Value) (name : String) (body : List Node)
    (items : List Value) (s : State) (texts : Except Error (List String)) (after : State) : Prop :=
  ∃ round : Value × Nat → Value,
    (∀ turn ∈ items.zipIdx,
      IsRound context name items.length turn.2 turn.1 (round turn)) ∧
    Run.InTurn (fun turn => renderNodes host (round turn) body) items.zipIdx s texts after

/-- Rendering nodes is evaluating them in turn, all against one context. -/
theorem renderNodes_inTurn (host : Host) (context : Value) (nodes : List Node) (s : State) :
    ∃ texts after,
      Run.InTurn (fun node => do Run.ofExcept (← evaluate host context node).text) nodes s texts
        after ∧
      renderNodes host context nodes s = (texts.map String.join, after) := by
  induction nodes generalizing s with
  | nil =>
      refine ⟨.ok [], s, .nil, ?_⟩
      rw [renderNodes]
      rfl
  | cons node rest ih =>
      have opened : renderNodes host context (node :: rest) =
          ((do Run.ofExcept (← evaluate host context node).text) >>= fun first => do
            let others ← renderNodes host context rest
            return first ++ others) := by
        rw [renderNodes, bind_assoc]
      rw [opened]
      rcases ran : (do Run.ofExcept (← evaluate host context node).text : Run String) s with
        ⟨e | first, mid⟩
      · exact ⟨.error e, mid, .fails ran, Run.bind_of_error ran _⟩
      · obtain ⟨texts, after, later, others⟩ := ih mid
        refine ⟨_, after, .cons ran later, ?_⟩
        rw [Run.bind_of_ok ran, Run.bind_pure_apply, others]
        cases texts <;> simp [Except.map]

theorem IsRound.evaluate_identifier {host : Host} {context : Value} {name : String}
    {length place : Nat} {element round : Value}
    (h : IsRound context name length place element round) (q : Position) (key : String) :
    evaluate host round (.identifier q [.key key]) =
      pure ((boundInRound context name length place element key).getD .null) := by
  obtain ⟨entries, rfl, bound⟩ := h
  rw [evaluate, ← bound key]
  simp only [Value.fetch, Value.get, Value.entry, ok_bind]
  split
  · next empty =>
      rw [(Value.isNull_iff _).1 empty]
      rfl
  · rfl

/-- A loop over one element or more renders its body in rounds and writes their texts one after the
other; a failure of a round is the failure that the tag reports.  Only null and an empty collection
make it render its other branch, and what is no collection is a failure at once.  All nodes of the
body are evaluated against the context of the round, those behind a loop within it too, and see the
bindings of that round. -/
theorem evaluate_loop {host : Host} {tag : String} {entry : TagEntry}
    (known : host.registry.lookup tag = some entry) (loops : entry.handler = Builtin.loop)
    {context : Value} {p : Position} {params : List Node} {s mid : State} {collection : Value}
    {named : List Value} {name : String}
    (evaluated : evaluateAll host context params s = (.ok (collection :: named), mid))
    (called : NamesElement named name) (body : List Node) (orelse : Option (List Node)) :
    let start := host.entered p.line mid
    let outcome := evaluate host context (.tag p tag params (some body) orelse) s
    (∀ items, collection.HasElements items → items ≠ [] →
      ∃ texts after, RendersRounds host context name body items start texts after ∧
        outcome = ((texts.map fun parts => Value.string (String.join parts)).mapError
          (host.report tag p.line), after)) ∧
    (collection = .null ∨ collection.HasElements [] →
      outcome = (((renderBranch host context orelse start).1.map Value.string).mapError
        (host.report tag p.line), (renderBranch host context orelse start).2)) ∧
    (collection ≠ .null → (∀ items, ¬ collection.HasElements items) →
      outcome =
        (.error (host.report tag p.line (.fault (.notIterable collection.kind))), start)) ∧
    ∀ length place element round, IsRound context name length place element round →
      (∀ s, ∃ texts after,
        Run.InTurn (fun node => do Run.ofExcept (← evaluate host round node).text) body s texts
          after ∧
        renderNodes host round body s = (texts.map String.join, after)) ∧
      ∀ q key, evaluate host round (.identifier q [.key key]) =
        pure ((boundInRound context name length place element key).getD .null) := by
  intro start outcome
  let i : Invocation := ⟨tag, collection :: named, some body, orelse, context, p⟩
  have runs {result : Except Error Object} {after : State}
      (handled : (Builtin.loop i).run host (i.branchIn host) start = (result, after)) :
      outcome = ((result.bind Object.toValue).mapError (host.report tag p.line), after) := by
    rw [← loops] at handled
    exact evaluate_of_params known evaluated (some body) orelse handled
  refine ⟨fun items own more => ?rounds, fun empty => ?orelse, fun some other => ?refused,
    fun length place element round shown => ⟨renderNodes_inTurn host round body,
      shown.evaluate_identifier⟩⟩
  case rounds =>
    obtain ⟨texts, after, turns, handled⟩ := Builtin.run_loop_rounds host (i.branchIn host) start
      (i := i) rfl rfl called (elements_of_hasElements own) more
    refine ⟨texts, after, ⟨fun turn => Builtin.roundContext i name items.length turn.2 turn.1,
      fun turn among => ?_, turns⟩, ?_⟩
    · obtain ⟨-, inside, -⟩ := List.mem_zipIdx among
      exact Builtin.isRound_roundContext (i := i) (by simpa using inside) name turn.1
    · rw [runs handled, Builtin.toValue_of_text]
  case orelse =>
    have own : Builtin.elements collection = .ok [] := by
      rcases empty with rfl | empty
      · rfl
      · exact elements_of_hasElements empty
    rw [runs (Builtin.run_loop_empty host (i.branchIn host) start (i := i) rfl rfl called own),
      Builtin.toValue_of_text]
    rfl
  case refused =>
    rw [runs (Builtin.run_loop_refused host (i.branchIn host) start (i := i) rfl rfl called
      (elements_of_other some other))]
    rfl

/-! ## A loop within a loop -/

def tableRows : List Value :=
  [.array [.string "a", .string "b"], .array [.string "c"]]

def tableContext : Value := .dictionary [("rows", .array tableRows)]

def cellLoop : Node :=
  .tag ⟨1, 20⟩ "for" [.identifier ⟨1, 25⟩ [.key "item"]]
    (some [.tag ⟨1, 32⟩ "get" [.identifier ⟨1, 35⟩ [.key "item"]] none none]) none

/-- The inner loop binds both names of the outer one anew; the output behind it sees the outer one
again. -/
def rowBody : List Node :=
  [cellLoop, .tag ⟨1, 50⟩ "get" [.identifier ⟨1, 53⟩ [.key "loop", .key "first"]] none none]

theorem evaluate_nestedLoop :
    lonelyHost.registry.lookup "for" = some (Builtin.object "For" Builtin.loop) ∧
      evaluateAll lonelyHost tableContext [.identifier ⟨1, 8⟩ [.key "rows"]] ⟨0, none, []⟩ =
        (.ok [.array tableRows], ⟨0, none, []⟩) ∧
      ∃ parts after,
        RendersRounds lonelyHost tableContext "item" rowBody tableRows ⟨1, none, []⟩ (.ok parts)
          after ∧
        String.join parts = "abtruecfalse" := by
  obtain ⟨loops, -⟩ := @evaluate_loop lonelyHost "for" (Builtin.object "For" Builtin.loop) rfl rfl
    tableContext ⟨1, 0⟩ [.identifier ⟨1, 8⟩ [.key "rows"]] ⟨0, none, []⟩ ⟨0, none, []⟩
    (.array tableRows) [] "item" rfl .default rowBody none
  obtain ⟨texts, after, rounds, outcome⟩ := loops tableRows .array nofun
  refine ⟨rfl, rfl, ?_⟩
  have written : evaluate lonelyHost tableContext (.tag ⟨1, 0⟩ "for"
      [.identifier ⟨1, 8⟩ [.key "rows"]] (some rowBody) none) ⟨0, none, []⟩ =
      (.ok (.string "abtruecfalse"), ⟨1, none, []⟩) := rfl
  rw [written] at outcome
  cases texts with
  | error e => cases outcome
  | ok parts =>
      obtain ⟨same, -⟩ := Prod.mk.inj outcome
      exact ⟨parts, after, rounds, (Value.string.inj (Except.ok.inj same)).symm⟩

end Templating
