import Templating.Proofs.Object.Plain
import Templating.Proofs.Printing.RoundTrip
import Templating.Proofs.Render.Journal

/-!
# Places of the data in a template

Every place in plain data can be named in a template: by the name of an entry of the root and then
by steps in brackets, a key in quotes or a position.  An output of this path writes the text of what
stands there.  Nothing is written if the data cannot be encoded, since a render begins with that.
-/

namespace Templating

/-! ## Outputs of paths -/

/-- An output of a path: the name and the steps in brackets.  A position has no more digits than are
read, which is no limit for a list that there can be. -/
def pathOutput (head : Name) (steps : List PathStep) : List UInt8 :=
  Text.Utf8.encode (String.ofList ('\x7b' :: '\x7b' :: ' ' ::
    (head.text.toList ++ (steps.flatMap PathStep.print ++ [' ', '\x7d', '\x7d']))))

/-- The steps of the path, the name first. -/
def pathSteps (head : Name) (steps : List PathStep) : List Step :=
  .key head.text :: steps.map PathStep.step

def outputTree (q : Position) (path : List Step) : List Node :=
  [.tag .start "get" [.identifier q path] none none]

variable {head : Name} {steps : List PathStep}

theorem exists_term_of_path (free : steps = [] → Expression.keyword? head.text = none) :
    ∃ t : Term, t.print = head.text.toList ++ steps.flatMap PathStep.print ∧
      t.node = .identifier .start (pathSteps head steps) := by
  cases steps with
  | nil => exact ⟨.name head (free rfl), by simp [Term.print], by simp [Term.node, pathSteps]⟩
  | cons first others =>
      exact ⟨.path head first others, by simp [Term.print], by simp [Term.node, pathSteps]⟩

/-- The output is read as one tag with the path for its parameter. -/
theorem Template.read_pathOutput (free : steps = [] → Expression.keyword? head.text = none) :
    ∃ q, read (pathOutput head steps) = .ok (outputTree q (pathSteps head steps)) := by
  obtain ⟨t, written, stands⟩ := exists_term_of_path free
  obtain ⟨node, piece, same⟩ := Construct.piece_output t .start []
  have bytes : pathOutput head steps = encodeChars (Item.output t).print ++ [] := by
    rw [pathOutput, Text.Utf8.encode, String.toList_ofList, Item.print, written, List.append_assoc,
      List.append_nil]
    rfl
  have tree : read (pathOutput head steps) = .ok [.tag .start "get" [node] none none] := by
    rw [bytes, read_eq_ok_iff, Construct.survey_of_reads (.single piece)]
    exact ⟨rfl, _, rfl, rfl⟩
  rw [stands] at same
  cases node with
  | identifier q path =>
      rw [Node.erase] at same
      cases same
      exact ⟨q, tree⟩
  | _ =>
      rw [Node.erase] at same
      cases same

theorem Builtin.output_eq {i : Invocation} {v : Value} (params : i.params = [v])
    (inline : i.body = none) : output i = .done (Object.ofValue v) := by
  have counted : i.requireCount 1 none = .done () := by simp [Invocation.requireCount, params]
  have closed : i.requireNoBody = .done () := by simp [Invocation.requireNoBody, inline]
  have given : i.param 0 = .done v := by simp [Invocation.param, params]
  rw [output, counted, closed, given]
  rfl

/-- An output of a path writes the text of what the path leads to. -/
theorem Evaluates.output {r : Renderer} (builtin : r.registry = Builtin.registry) {place : Place}
    {q : Position} {v w : Value} {path : List Step} (found : v.fetch path = .ok w) {text : String}
    (shown : w.text = .ok text) (s : State) :
    ∃ after trace, Evaluates r (.nodes place v (outputTree q path)) s (.ok text) after trace := by
  have known : r.registry.lookup "get" = some (Builtin.object "Get" Builtin.output) := by
    rw [builtin]
    rfl
  have param : Evaluates r (.node place v (.identifier q path)) s (.ok w) s [] := by
    rw [← found]
    exact .identifier
  let tag : Invocation := ⟨"get", [w], none, none, v, .start⟩
  let entered : State := { s with line := Position.start.line }
  have handled : Evaluates r (.plan place tag (Builtin.output tag)) entered
      (.ok (Object.ofValue w)) entered [] := by
    rw [Builtin.output_eq rfl rfl]
    exact .done
  have written := Evaluates.cons (.tag known (.all_cons param .all_nil) handled) shown .nil
  have alone : (Except.ok "" : Except Error String).map (text ++ ·) = .ok text :=
    congrArg Except.ok String.append_empty
  rw [alone] at written
  exact ⟨_, _, written⟩

namespace Renderer

theorem treeOf_of_read {data : List UInt8} {tree : List Node} (read : Template.read data = .ok tree)
    {s : State} (cached : ∀ cache, s.cache = some cache → ∀ other,
      (Digest.text data, other) ∈ cache.entries → Template.read data = .ok other)
    (label : String) : ∃ after, treeOf label data s = (.ok tree, after) := by
  have parsed : Template.parse label data = .ok tree := Template.parse_eq_ok_iff.2 read
  cases hcache : s.cache with
  | none =>
      rw [treeOf_of_none hcache, read_apply, parsed]
      exact ⟨_, rfl⟩
  | some cache =>
      cases found : cache.find? (Digest.text data) with
      | some other =>
          have same := cached cache hcache other (Cache.mem_of_find? found)
          rw [read] at same
          cases same
          exact ⟨_, treeOf_of_hit hcache found label⟩
      | none =>
          rw [treeOf_of_miss hcache found, parsed]
          exact ⟨_, rfl⟩

theorem renderIn_pathOutput {r : Renderer} (builtin : r.registry = Builtin.registry)
    (free : steps = [] → Expression.keyword? head.text = none) {v w : Value}
    (found : v.fetch (pathSteps head steps) = .ok w) {text : String} (shown : w.text = .ok text)
    {s : State}
    (cached : ∀ cache, s.cache = some cache → ∀ tree,
      (Digest.text (pathOutput head steps), tree) ∈ cache.entries →
        Template.read (pathOutput head steps) = .ok tree)
    (label : String) :
    (r.renderIn none (.source (pathOutput head steps) label) v s).1 = .ok text := by
  obtain ⟨q, read⟩ := Template.read_pathOutput free
  obtain ⟨mid, looked⟩ := treeOf_of_read read cached label
  have fetched : r.fetch (.source (pathOutput head steps) label) s =
      (.ok (label, outputTree q (pathSteps head steps)), mid) := by
    rw [fetch, locate, Run.bind_of_ok (Run.pure_apply _ s)]
    dsimp only
    rw [Run.bind_pure_apply, looked]
    rfl
  obtain ⟨after, trace, written⟩ := Evaluates.output builtin found shown { mid with line := 0 }
  have rendered : Evaluates r (.render none (.source (pathOutput head steps) label) v) s
      (.ok text) _ _ := .render fetched rfl written
  exact congrArg Prod.fst rendered.renderIn_eq

/-- Data that is a dictionary is encoded before anything is rendered. -/
theorem contextOf_of_mapping {g : Graph} {root : Ref} {plain : Bool}
    {entries : List (MapKey × Ref)} (node : g.node root = .mapping plain entries) (s : State) :
    contextOf ⟨g, root⟩ s =
      (g.encode root, { s with journal := .encoded :: s.journal }) := by
  have stands : (Object.mk g root).node = .mapping plain entries := node
  rw [contextOf, stands]
  dsimp only
  rw [Run.bind_of_ok (Run.observe_apply _ s), Run.ofExcept_apply]
  rfl

end Renderer

namespace Session

/-- Nothing is rendered of a dictionary that cannot be encoded. -/
theorem render_of_encode_error (s : Session) (target : Target) {g : Graph} {root : Ref}
    {plain : Bool} {entries : List (MapKey × Ref)} (node : g.node root = .mapping plain entries)
    {e : Error} (refused : g.encode root = .error e) :
    (s.render target ⟨g, root⟩).1 = .error e := by
  have begun := Renderer.contextOf_of_mapping node s.state
  rw [refused] at begun
  change (renderRun s.renderer target ⟨g, root⟩ s.state).1 = .error e
  rw [Renderer.renderRun_eq, Run.bind_of_error begun]

/-- A renderer of pages that include nothing. -/
def bareRenderer : Renderer where
  registry := Builtin.registry
  loader := Loader.table []
  ending := ".html"
  directory := ""
  limit := 5

/-- A ledger whose accounts go by texts that a template has signs for. -/
def ledger : Graph where
  node
    | 0 => .mapping true [(.text "accounts", 1), (.text "null", 2)]
    | 1 => .list [2, 3]
    | 2 => .null
    | 3 => .mapping true [(.text "7", 2), (.text "\"Ada\\ \x7d\x7d\n", 4)]
    | 4 => .mapping true [(.text "7", 5)]
    | _ => .int (-42)

def accounts : Name := ⟨"accounts", 'a', "ccounts".toList, rfl, by decide, by decide⟩

/-- The balance of the last account. -/
def balance : List PathStep :=
  [.index ⟨-1, by decide⟩, .key "\"Ada\\ \x7d\x7d\n", .key "7"]

example : pathOutput accounts balance = Text.Utf8.encode
    "\x7b\x7b accounts[-1][\"\\\"Ada\\\\ \x7d\x7d\n\"][\"7\"] \x7d\x7d" := by decide +kernel

theorem plain_ledger : ledger.Plain 0 := by
  intro c _
  rcases c with _ | _ | _ | _ | _ | c
  · exact ⟨rfl, [("accounts", 1), ("null", 2)], rfl, by decide⟩
  · trivial
  · trivial
  · exact ⟨rfl, [("7", 2), ("\"Ada\\ \x7d\x7d\n", 4)], rfl, by decide⟩
  · exact ⟨rfl, [("7", 5)], rfl, by decide⟩
  · show (-42 : Int).natAbs < Value.integerBound
    decide +kernel

/-- A dictionary of a tower, lists one inside the other, and of a text. -/
def tower (height : Nat) : Graph where
  node
    | 0 => .mapping true [(.text "a", 2), (.text "b", 1)]
    | 1 => .string "x"
    | n + 2 => if n < height then .list [n + 3] else .int 1

theorem plain_tower (height : Nat) : (tower height).Plain 0 := by
  intro c _
  rcases c with _ | _ | n
  · exact ⟨rfl, [("a", 2), ("b", 1)], rfl, by decide⟩
  · trivial
  · simp only [tower]
    split
    · trivial
    · show (1 : Int).natAbs < Value.integerBound
      decide +kernel

/-- No number of steps that is less than the height suffices to encode a tower. -/
theorem encodeWithin_tower {height fuel n : Nat} (short : n + fuel ≤ height) {active : List Ref}
    (below : ∀ c ∈ active, c < n + 2) (trail : Trail) :
    (tower height).encodeWithin fuel active trail (n + 2) = .error (.fault .tooDeep) := by
  induction fuel using Nat.strongRecOn generalizing n active trail with
  | ind fuel ih =>
      obtain _ | fuel := fuel
      · rfl
      have inside : n < height := by omega
      have node : (tower height).node (n + 2) = .list [n + 3] := if_pos inside
      obtain _ | fuel := fuel
      · simp only [Graph.encodeWithin, Graph.partsWithin, node]
      -- Whatever was entered stands lower, so that the list is not met below itself.
      have absent : n + 2 ∉ active := fun member => Nat.lt_irrefl _ (below _ member)
      have inner : ∀ c ∈ (n + 2) :: active, c < n + 1 + 2 := by
        intro c member
        rcases List.mem_cons.1 member with rfl | member
        · exact Nat.lt_succ_self _
        · exact Nat.lt_succ_of_lt (below c member)
      have next := ih fuel (by omega) (by omega) inner (.index 0 :: trail)
      rw [Graph.encodeWithin_items (.inl node), if_neg absent, List.zipIdx_cons, List.mapM_cons, next]
      rfl

theorem encode_tower {height : Nat} (high : depthLimit ≤ height + 2) :
    (tower height).encode 0 = .error (.encoding .tooDeep "$") := by
  have first : (tower height).encodeWithin 998 [0] [.key "a"] 2 = .error (.fault .tooDeep) := by
    refine encodeWithin_tower (n := 0) ?_ (by simp) _
    rw [depthLimit] at high
    omega
  have node : (tower height).node 0 = .mapping true (ObjectNode.named [("a", 2), ("b", 1)]) := rfl
  have failed : (tower height).encodeWithin depthLimit [] [] 0 = .error (.fault .tooDeep) := by
    rw [depthLimit, Graph.encodeWithin_named node, if_neg List.not_mem_nil, List.mapM_cons, first]
    rfl
  rw [Graph.encode, failed]
  rfl

end Session

end Templating
