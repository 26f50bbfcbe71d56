import Templating.Proofs.Template.Source

/-!
# The tree and its source

Walked in document order, a tree gives back the constructs of its source: each text, each tag with
its name and parameters, each else and each closing, and nothing twice.  What the walk meets is well
nested, since a closing ends the innermost open block and no other.
-/

namespace Templating

/-! ## Walking a tree -/

/-- What a source shows of its tree.  A tree does not keep where an else or a closing stands. -/
inductive Mark
  | text (position : Position) (content : String)
  | inline (position : Position) (name : String) (params : List Node)
  | opening (position : Position) (name : String) (params : List Node)
  | otherwise
  | closing (name : String)
  | raw (position : Position) (params : List Node) (body : Option (Position × String))

def Construct.mark : Construct → Mark
  | .text p content => .text p content
  | .inline p name params => .inline p name params
  | .opening p name params => .opening p name params
  | .otherwise _ => .otherwise
  | .closing _ name => .closing name
  | .rawBlock p params body => .raw p params body

def verbatim : List Node → Option (Position × String)
  | [.raw p text] => some (p, text)
  | _ => none

mutual

/-- The marks of a node in document order. -/
def Node.walk : Node → List Mark
  | .raw p text => [.text p text]
  | .tag p name params body orelse =>
    match body with
    | none => [.inline p name params]
    | some nodes =>
      if name = "raw" then [.raw p params (verbatim nodes)]
      else .opening p name params ::
        (walk nodes ++ walkElse orelse ++ [.closing name])
  | .constant .. | .identifier .. | .bare _ => []

def walk : List Node → List Mark
  | [] => []
  | node :: rest => node.walk ++ walk rest

def walkElse : Option (List Node) → List Mark
  | none => []
  | some nodes => .otherwise :: walk nodes

end

@[simp] theorem walk_append (xs ys : List Node) : walk (xs ++ ys) = walk xs ++ walk ys := by
  induction xs with
  | nil => simp [walk]
  | cons node xs ih => simp [walk, ih]

/-! ## Parameters and documents -/

/-- A node that a parameter may be: no tag in it has a body or an else. -/
inductive Node.IsParameter : Node → Prop
  | constant (p : Position) (value : Value) : IsParameter (.constant p value)
  | identifier (p : Position) (path : List Step) : IsParameter (.identifier p path)
  | call {p : Position} {name : String} {params : List Node} :
      (∀ node ∈ params, node.IsParameter) → IsParameter (.tag p name params none none)

/-- A node that an expression may be read as: the paths in it begin with a name. -/
inductive Node.IsExpression : Node → Prop
  | constant (p : Position) (value : Value) : IsExpression (.constant p value)
  | path (p : Position) (name : String) (steps : List Step) :
      IsExpression (.identifier p (.key name :: steps))
  | call {p : Position} {name : String} {params : List Node} :
      (∀ node ∈ params, node.IsExpression) → IsExpression (.tag p name params none none)

theorem Node.IsExpression.isParameter {node : Node} (h : node.IsExpression) : node.IsParameter := by
  induction h with
  | constant p value => exact .constant p value
  | path p name steps => exact .identifier p _
  | call _ ih => exact .call ih

/-- A node that may stand in a document, with parameters in all of its tags. -/
inductive Node.InDocument : Node → Prop
  | raw (p : Position) (text : String) : InDocument (.raw p text)
  | inline {p : Position} {name : String} {params : List Node} :
      (∀ node ∈ params, node.IsParameter) → InDocument (.tag p name params none none)
  | block {p : Position} {name : String} {params body : List Node} {orelse : Option (List Node)} :
      name ≠ "raw" → (∀ node ∈ params, node.IsParameter) → (∀ node ∈ body, node.InDocument) →
      (∀ nodes, orelse = some nodes → ∀ node ∈ nodes, node.InDocument) →
      InDocument (.tag p name params (some body) orelse)
  | rawBlock {p : Position} {params body : List Node} :
      (∀ node ∈ params, node.IsParameter) → (body = [] ∨ ∃ q text, body = [.raw q text]) →
      InDocument (.tag p "raw" params (some body) none)

/-- Each opening has its closing of the same name, and between them at most one else of its own. -/
inductive WellNested : List Mark → Prop
  | nil : WellNested []
  | text {rest : List Mark} (p : Position) (content : String) :
      WellNested rest → WellNested (.text p content :: rest)
  | inline {rest : List Mark} (p : Position) (name : String) (params : List Node) :
      WellNested rest → WellNested (.inline p name params :: rest)
  | raw {rest : List Mark} (p : Position) (params : List Node)
      (body : Option (Position × String)) :
      WellNested rest → WellNested (.raw p params body :: rest)
  | block {body rest : List Mark} (p : Position) (name : String) (params : List Node) :
      WellNested body → WellNested rest →
      WellNested (.opening p name params :: (body ++ .closing name :: rest))
  | branching {body orelse rest : List Mark} (p : Position) (name : String) (params : List Node) :
      WellNested body → WellNested orelse → WellNested rest →
      WellNested (.opening p name params ::
        (body ++ .otherwise :: (orelse ++ .closing name :: rest)))

theorem WellNested.append {xs ys : List Mark} (hxs : WellNested xs) (hys : WellNested ys) :
    WellNested (xs ++ ys) := by
  induction hxs with
  | nil => exact hys
  | text p content _ ih => exact .text p content ih
  | inline p name params _ ih => exact .inline p name params ih
  | raw p params body _ ih => exact .raw p params body ih
  | block p name params body _ _ ih =>
      simp only [List.cons_append, List.append_assoc]
      exact .block p name params body ih
  | branching p name params body orelse _ _ _ ih =>
      simp only [List.cons_append, List.append_assoc]
      exact .branching p name params body orelse ih

private theorem wellNested_walk_of_forall {nodes : List Node}
    (h : ∀ node ∈ nodes, WellNested node.walk) : WellNested (walk nodes) := by
  induction nodes with
  | nil =>
      rw [walk]
      exact .nil
  | cons node rest ih =>
      rw [walk]
      exact (h node List.mem_cons_self).append
        (ih fun other member => h other (List.mem_cons_of_mem node member))

theorem Node.InDocument.wellNested {node : Node} (h : node.InDocument) :
    WellNested node.walk := by
  induction h with
  | raw p text =>
      rw [Node.walk]
      exact .text p text .nil
  | inline =>
      rw [Node.walk]
      exact .inline _ _ _ .nil
  | @block p name params body orelse ordinary _ _ _ inBody inElse =>
      have nested := wellNested_walk_of_forall inBody
      rw [Node.walk]
      simp only [if_neg ordinary]
      cases orelse with
      | none =>
          simp only [walkElse, List.append_nil]
          exact .block p name params nested .nil
      | some nodes =>
          simp only [walkElse, List.append_assoc, List.cons_append]
          exact .branching p name params nested
            (wellNested_walk_of_forall (inElse nodes rfl)) .nil
  | rawBlock =>
      rw [Node.walk]
      exact .raw _ _ _ .nil

theorem wellNested_walk {nodes : List Node} (h : ∀ node ∈ nodes, node.InDocument) :
    WellNested (walk nodes) :=
  wellNested_walk_of_forall fun node member => (h node member).wellNested

/-! ## What is read from a tag -/

namespace Expression

theorem isExpression_of_readPath {p : Position} {name : String} {r after : Remaining} {node : Node}
    (h : readPath p name r = .ok (node, after)) : node.IsExpression := by
  rcases exists_of_readPath h with ⟨value, -, rfl, -⟩ | ⟨steps, rfl, -⟩
  · exact .constant p value
  · exact .path p name steps

/-- Constants and paths that are read have the property, and calls have it with their parameters. -/
structure Kept (Q : Node → Prop) : Prop where
  string (p : Position) (content : String) : Q (.constant p (.string content))
  number {r after : Remaining} {value : Value} (p : Position) :
    readNumber? r = some (.ok (value, after)) → Q (.constant p value)
  path {r after : Remaining} {p : Position} {name : String} {node : Node} :
    readPath p name r = .ok (node, after) → Q node
  call {p : Position} {name : String} {params : List Node} :
    (∀ node ∈ params, Q node) → Q (.tag p name params none none)

section Kept

variable {Q : Node → Prop} (closed : Kept Q)

include closed

theorem Reads.kept {r after : Remaining} {phrase : Phrase} (h : Reads r phrase after) :
    match phrase with
    | .expression node => Q node
    | .arguments params | .list params => ∀ node ∈ params, Q node := by
  induction h with
  | string => exact closed.string _ _
  | number read => exact closed.number _ read
  | path _ _ read => exact closed.path read
  | call _ _ _ ih => exact closed.call ih
  | noArguments =>
      intro node member
      cases member
  | someArguments _ _ ih => exact ih
  | last _ _ ih =>
      intro node member
      rw [List.mem_singleton.1 member]
      exact ih
  | more _ _ _ _ ih ih' =>
      intro node member
      rcases List.mem_cons.1 member with rfl | member
      · exact ih
      · exact ih' node member

theorem ReadsToEnd.kept {r : Remaining} {params : List Node} (h : ReadsToEnd r params) :
    ∀ node ∈ params, Q node := by
  induction h with
  | nil =>
      intro node member
      cases member
  | cons _ first _ ih =>
      intro node member
      rcases List.mem_cons.1 member with rfl | member
      · exact first.kept closed
      · exact ih node member

theorem Parameters.kept {r : Remaining} {params : List Node} (h : Parameters r params) :
    ∀ node ∈ params, Q node := by
  cases h with
  | none =>
      intro node member
      cases member
  | inParentheses _ reads _ => exact reads.kept closed
  | listed _ first others =>
      intro node member
      rcases List.mem_cons.1 member with rfl | member
      · exact first.kept closed
      · exact others.kept closed node member

end Kept

theorem kept_isExpression : Kept Node.IsExpression where
  string p _ := .constant p _
  number p _ := .constant p _
  path := isExpression_of_readPath
  call := .call

theorem Reads.isExpression {r after : Remaining} {node : Node}
    (h : Reads r (.expression node) after) : node.IsExpression := h.kept kept_isExpression

theorem Parameters.isExpression {r : Remaining} {params : List Node} (h : Parameters r params) :
    ∀ node ∈ params, node.IsExpression := h.kept kept_isExpression

end Expression

namespace Construct

/-- A construct with expressions for its parameters; a raw block is never left open. -/
def Sound : Construct → Prop
  | .inline _ _ params | .rawBlock _ params _ => ∀ node ∈ params, node.IsExpression
  | .opening _ name params => name ≠ "raw" ∧ ∀ node ∈ params, node.IsExpression
  | .text .. | .otherwise _ | .closing .. => True

theorem Piece.sound {p : Position} {bytes rest : List UInt8} {c : Construct}
    (h : Piece p bytes rest (some c)) : c.Sound := by
  cases h with
  | text => trivial
  | output _ _ output =>
      cases output with
      | expression reads =>
          intro node member
          rw [List.mem_singleton.1 member]
          exact reads.isExpression
  | statement _ _ statement ordinary =>
      cases statement with
      | closing => trivial
      | opening _ _ _ parameters =>
          refine ⟨?_, parameters.isExpression⟩
          rintro rfl
          exact ordinary _ _ rfl
      | otherwise => trivial
      | inline _ _ _ _ parameters => exact parameters.isExpression
  | rawBlock _ _ statement =>
      cases statement with
      | opening _ _ _ parameters => exact parameters.isExpression

theorem Reads.sound {p q : Position} {data left : List UInt8} {constructs : List Construct}
    (h : Reads p data constructs q left) : ∀ c ∈ constructs, c.Sound := by
  induction h with
  | refl =>
      intro c member
      cases member
  | @step p q bytes rest left first constructs piece _ ih =>
      intro c member
      cases first with
      | none => exact ih c member
      | some first =>
          rcases List.mem_cons.1 member with rfl | member
          · exact piece.sound
          · exact ih c member

end Construct

/-! ## Trees in the making -/

def OpenBlock.walk (block : OpenBlock) : List Mark :=
  .opening block.position block.name block.params ::
    (Templating.walk block.body.reverse ++ walkElse (block.orelse.map List.reverse))

/-- The marks of all that was put together, the open blocks last, outermost first. -/
def Growth.walk (growth : Growth) : List Mark :=
  Templating.walk growth.nodes.reverse ++ growth.blocks.reverse.flatMap OpenBlock.walk

structure OpenBlock.Sound (block : OpenBlock) : Prop where
  ordinary : block.name ≠ "raw"
  params : ∀ node ∈ block.params, node.IsParameter
  body : ∀ node ∈ block.body, node.InDocument
  orelse : ∀ nodes, block.orelse = some nodes → ∀ node ∈ nodes, node.InDocument

structure Growth.Sound (growth : Growth) : Prop where
  nodes : ∀ node ∈ growth.nodes, node.InDocument
  blocks : ∀ block ∈ growth.blocks, block.Sound

namespace OpenBlock

theorem walk_push (block : OpenBlock) (node : Node) :
    (block.push node).walk = block.walk ++ node.walk := by
  cases h : block.orelse with
  | none => simp [push, h, walk, walkElse, Templating.walk]
  | some nodes => simp [push, h, walk, walkElse, Templating.walk]

theorem Sound.push {block : OpenBlock} (sound : block.Sound) {node : Node}
    (h : node.InDocument) : (block.push node).Sound := by
  have added {nodes : List Node} (old : ∀ other ∈ nodes, other.InDocument) :
      ∀ other ∈ node :: nodes, other.InDocument := by
    intro other member
    rcases List.mem_cons.1 member with rfl | member
    · exact h
    · exact old other member
  unfold OpenBlock.push
  cases horelse : block.orelse with
  | none =>
      refine ⟨sound.ordinary, sound.params, added sound.body, ?_⟩
      intro nodes absent
      cases absent
  | some nodes =>
      refine ⟨sound.ordinary, sound.params, sound.body, ?_⟩
      rintro _ ⟨⟩
      exact added (sound.orelse nodes horelse)

/-- An end mark after the marks of a block makes the marks of the closed block. -/
theorem walk_close {block : OpenBlock} (ordinary : block.name ≠ "raw") :
    block.close.walk = block.walk ++ [.closing block.name] := by
  simp [close, Node.walk, walk, ordinary]

theorem Sound.close {block : OpenBlock} (sound : block.Sound) : block.close.InDocument := by
  refine .block sound.ordinary sound.params ?_ ?_
  · intro node member
    exact sound.body node (List.mem_reverse.1 member)
  · intro nodes present node member
    obtain ⟨others, kept, rfl⟩ := Option.map_eq_some_iff.1 present
    exact sound.orelse others kept node (List.mem_reverse.1 member)

end OpenBlock

namespace Growth

theorem walk_push (growth : Growth) (node : Node) :
    (growth.push node).walk = growth.walk ++ node.walk := by
  cases h : growth.blocks with
  | nil => simp [push, h, walk, Templating.walk]
  | cons block outer => simp [push, h, walk, OpenBlock.walk_push]

theorem Sound.push {growth : Growth} (sound : growth.Sound) {node : Node}
    (h : node.InDocument) : (growth.push node).Sound := by
  unfold Growth.push
  cases hblocks : growth.blocks with
  | nil =>
      refine ⟨?_, by simp⟩
      intro other member
      rcases List.mem_cons.1 member with rfl | member
      · exact h
      · exact sound.nodes other member
  | cons block outer =>
      refine ⟨sound.nodes, ?_⟩
      have old := sound.blocks
      rw [hblocks] at old
      intro other member
      rcases List.mem_cons.1 member with rfl | member
      · exact (old block List.mem_cons_self).push h
      · exact old other (List.mem_cons_of_mem block member)

theorem turn_sound {growth later : Growth} {p : Position} (sound : growth.Sound)
    (h : growth.turn p = .ok later) : later.Sound ∧ later.walk = growth.walk ++ [.otherwise] := by
  unfold turn at h
  split at h
  · cases h
  next block outer hblocks =>
  split at h
  · cases h
  next single =>
  cases h
  have old := sound.blocks
  rw [hblocks] at old
  refine ⟨⟨sound.nodes, ?_⟩, ?_⟩
  · intro other member
    rcases List.mem_cons.1 member with rfl | member
    · obtain ⟨ordinary, params, body, -⟩ := old block List.mem_cons_self
      refine ⟨ordinary, params, body, ?_⟩
      rintro _ ⟨⟩ node member
      cases member
    · exact old other (List.mem_cons_of_mem block member)
  · simp [walk, hblocks, OpenBlock.walk, single, walkElse, Templating.walk]

theorem close_sound {growth later : Growth} {p : Position} {name : String} (sound : growth.Sound)
    (h : growth.close p name = .ok later) :
    later.Sound ∧ later.walk = growth.walk ++ [.closing name] := by
  unfold close at h
  split at h
  · cases h
  next block outer hblocks =>
  split at h
  · next same =>
    cases h
    have old := sound.blocks
    rw [hblocks] at old
    have inner := old block List.mem_cons_self
    have rest : Sound { growth with blocks := outer } :=
      ⟨sound.nodes, fun other member => old other (List.mem_cons_of_mem block member)⟩
    refine ⟨rest.push inner.close, ?_⟩
    rw [walk_push, OpenBlock.walk_close inner.ordinary, same]
    simp [walk, hblocks]
  · cases h

/-- Putting one construct in its place adds its mark at the end, and nothing else. -/
theorem step_sound {growth later : Growth} {c : Construct} (sound : growth.Sound)
    (readable : c.Sound) (h : growth.step c = .ok later) :
    later.Sound ∧ later.walk = growth.walk ++ [c.mark] := by
  cases c with
  | text p content =>
      cases h
      exact ⟨sound.push (.raw p content), walk_push _ _⟩
  | inline p name params =>
      cases h
      have parameters := fun node member => (readable node member).isParameter
      exact ⟨sound.push (.inline parameters), walk_push _ _⟩
  | opening p name params =>
      cases h
      refine ⟨⟨sound.nodes, ?_⟩, ?_⟩
      · intro block member
        rcases List.mem_cons.1 member with rfl | member
        · have parameters := fun node member => (readable.2 node member).isParameter
          exact ⟨readable.1, parameters, by simp, by simp⟩
        · exact sound.blocks block member
      · simp [walk, OpenBlock.walk, Templating.walk, walkElse, Construct.mark]
  | otherwise p => exact turn_sound sound h
  | closing p name => exact close_sound sound h
  | rawBlock p params body =>
      cases h
      have content : rawBody body = [] ∨ ∃ q text, rawBody body = [.raw q text] := by
        cases body with
        | none => exact .inl rfl
        | some content => exact .inr ⟨content.1, content.2, rfl⟩
      have parameters := fun node member => (readable node member).isParameter
      refine ⟨sound.push (.rawBlock parameters content), ?_⟩
      rw [walk_push]
      cases body <;> rfl

theorem run_sound {growth later : Growth} {constructs : List Construct} (sound : growth.Sound)
    (readable : ∀ c ∈ constructs, c.Sound) (h : growth.run constructs = .ok later) :
    later.Sound ∧ later.walk = growth.walk ++ constructs.map Construct.mark := by
  induction constructs generalizing growth with
  | nil =>
      cases h
      exact ⟨sound, by simp⟩
  | cons c rest ih =>
      simp only [run, bind_eq_ok_iff] at h
      obtain ⟨next, first, others⟩ := h
      obtain ⟨between, added⟩ := step_sound sound (readable c List.mem_cons_self) first
      obtain ⟨after, more⟩ :=
        ih between (fun other member => readable other (List.mem_cons_of_mem c member)) others
      refine ⟨after, ?_⟩
      rw [more, added, List.map_cons, List.append_assoc]
      rfl

theorem sound_empty : empty.Sound := ⟨by simp [empty], by simp [empty]⟩

theorem finish_sound {growth : Growth} {tree : List Node} (sound : growth.Sound)
    (h : growth.finish = .ok tree) :
    growth.blocks = [] ∧ walk growth = Templating.walk tree ∧ ∀ node ∈ tree, node.InDocument := by
  unfold finish at h
  split at h
  · next hblocks =>
    cases h
    refine ⟨hblocks, by simp [walk, hblocks], ?_⟩
    intro node member
    exact sound.nodes node (List.mem_reverse.1 member)
  · cases h

end Growth

/-! ## The tree of a source -/

namespace Template

theorem read_eq_ok_iff {data : List UInt8} {tree : List Node} :
    read data = .ok tree ↔ (Construct.survey data).failure = none ∧
      ∃ growth, Growth.empty.run (Construct.survey data).constructs = .ok growth ∧
        growth.finish = .ok tree := by
  unfold read
  simp only [bind_eq_ok_iff]
  cases (Construct.survey data).failure <;> simp

/-- A source that is accepted is, from its first byte to its last, a sequence of constructs in one
way only.  The tree walked in document order is this sequence, which is well nested, and only
constants, identifiers and calls without a body are parameters in the tree. -/
theorem walk_of_parse {file : String} {data : List UInt8} {tree : List Node}
    (h : parse file data = .ok tree) :
    ∃ constructs,
      Construct.Reads .start data constructs (Position.start.afterBytes data) [] ∧
      (∀ others q, Construct.Reads .start data others q [] → others = constructs) ∧
      walk tree = constructs.map Construct.mark ∧
      WellNested (constructs.map Construct.mark) ∧ ∀ node ∈ tree, node.InDocument := by
  obtain ⟨complete, growth, run, finish⟩ := read_eq_ok_iff.1 (parse_eq_ok_iff.1 h)
  have reads := Construct.reads_of_failure_eq_none complete
  obtain ⟨sound, walked⟩ := Growth.run_sound Growth.sound_empty reads.sound run
  obtain ⟨-, finished, document⟩ := Growth.finish_sound sound finish
  -- The stack of open blocks is empty at the end, so its walk is the walk of the tree.
  have same : walk tree = (Construct.survey data).constructs.map Construct.mark := by
    rw [← finished, walked]
    rfl
  refine ⟨_, reads, ?_, same, ?_, document⟩
  · intro others q others_reads
    rw [Construct.survey_of_reads others_reads]
  · rw [← same]
    exact wellNested_walk document

/-- A text, a block with an else, a comment, an output and a raw block. -/
def motleySource : List UInt8 :=
  Text.Utf8.encode ("a\x7b% #if x %\x7db\x7b% else %\x7d\x7b# c #\x7d\x7b\x7b f(1) \x7d\x7d" ++
    "\x7b% /if %\x7d\x7b% #raw %\x7d\x7b\x7b\x7b% /raw %\x7d")

theorem walk_of_parse_motleySource :
    ∃ tree, parse "motley" motleySource = .ok tree ∧ ∃ constructs,
      Construct.Reads .start motleySource constructs (Position.start.afterBytes motleySource) [] ∧
      walk tree = constructs.map Construct.mark ∧ WellNested (constructs.map Construct.mark) := by
  have accepted : (parse "motley" motleySource).isOk = true := by decide +kernel
  cases parsed : parse "motley" motleySource with
  | error e =>
      rw [parsed] at accepted
      cases accepted
  | ok tree =>
      obtain ⟨constructs, reads, -, same, nested, -⟩ := walk_of_parse parsed
      exact ⟨tree, rfl, constructs, reads, same, nested⟩

end Template

end Templating
