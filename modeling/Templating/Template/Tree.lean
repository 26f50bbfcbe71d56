import Templating.Template.Construct

/-!
# The tree of a template

Constructs are put together by nesting: an opening begins a block, an else turns to its other
branch, and a closing of the same name ends it. Only the innermost open block can be turned or
ended.
-/

namespace Templating

/-- A block that is not closed yet, the nodes of each branch last first. -/
structure OpenBlock where
  position : Position
  name : String
  params : List Node
  body : List Node
  orelse : Option (List Node)

namespace OpenBlock

def push (block : OpenBlock) (node : Node) : OpenBlock :=
  match block.orelse with
  | none => { block with body := node :: block.body }
  | some nodes => { block with orelse := some (node :: nodes) }

def close (block : OpenBlock) : Node :=
  .tag block.position block.name block.params (some block.body.reverse)
    (block.orelse.map List.reverse)

end OpenBlock

/-- A tree in the making: the nodes outside of all open blocks, last first, and the open blocks,
innermost first. -/
structure Growth where
  nodes : List Node
  blocks : List OpenBlock

namespace Growth

def empty : Growth := ⟨[], []⟩

def push (growth : Growth) (node : Node) : Growth :=
  match growth.blocks with
  | [] => { growth with nodes := node :: growth.nodes }
  | block :: outer => { growth with blocks := block.push node :: outer }

def turn (growth : Growth) (p : Position) : Except ReadFailure Growth :=
  match growth.blocks with
  | [] => .error (.malformed .elseOutsideBlock p)
  | block :: outer =>
    match block.orelse with
    | some _ => .error (.malformed (.secondElse block.name) p)
    | none => .ok { growth with blocks := { block with orelse := some [] } :: outer }

def close (growth : Growth) (p : Position) (name : String) : Except ReadFailure Growth :=
  match growth.blocks with
  | [] => .error (.malformed (.closeWithoutOpen name) p)
  | block :: outer =>
    if block.name = name then .ok ({ growth with blocks := outer }.push block.close)
    else .error (.malformed (.closeOfOther name block.name block.position.line) p)

def rawBody (body : Option (Position × String)) : List Node :=
  body.toList.map fun content => .raw content.1 content.2

def step (growth : Growth) : Construct → Except ReadFailure Growth
  | .text p content => .ok (growth.push (.raw p content))
  | .inline p name params => .ok (growth.push (.tag p name params none none))
  | .rawBlock p params body => .ok (growth.push (.tag p "raw" params (some (rawBody body)) none))
  | .opening p name params =>
    .ok { growth with blocks := ⟨p, name, params, [], none⟩ :: growth.blocks }
  | .otherwise p => growth.turn p
  | .closing p name => growth.close p name

def run : Growth → List Construct → Except ReadFailure Growth
  | growth, [] => .ok growth
  | growth, construct :: rest => do run (← growth.step construct) rest

/-- The finished tree, if no block is open. -/
def finish (growth : Growth) : Except ReadFailure (List Node) :=
  match growth.blocks with
  | [] => .ok growth.nodes.reverse
  | block :: _ => .error (.malformed (.unclosedBlock block.name) block.position)

theorem run_append (growth : Growth) (xs ys : List Construct) :
    growth.run (xs ++ ys) = (growth.run xs).bind fun later => later.run ys := by
  induction xs generalizing growth with
  | nil => rfl
  | cons x rest ih =>
    simp only [List.cons_append, run]
    cases growth.step x with
    | error failure => rfl
    | ok later => exact ih later

end Growth

namespace Template

/-- The tree of a source. What is wrong first is reported, wherever the reading itself stops. -/
def read (data : List UInt8) : Except ReadFailure (List Node) := do
  let survey := Construct.survey data
  let growth ← Growth.empty.run survey.constructs
  match survey.failure with
  | some failure => .error failure
  | none => growth.finish

/-- The failure as an error that names the template and quotes it. -/
def explain (file : String) (data : List UInt8) : ReadFailure → Error
  | .malformed problem p =>
    .malformed
      { problem := problem
        file := some file
        line := some p.line
        column := some p.column
        source := some (String.ofList (Text.Utf8.decodeLossy data)) }
  | .fault f => .fault f

/-- The tree of a template; `file` is what reports call it. -/
def parse (file : String) (data : List UInt8) : Except Error (List Node) :=
  (read data).mapError (explain file data)

/-- Whether a template is accepted does not depend on what reports call it. -/
theorem parse_eq_ok_iff {file : String} {data : List UInt8} {tree : List Node} :
    parse file data = .ok tree ↔ read data = .ok tree := by
  unfold parse
  cases read data with
  | error failure => exact ⟨nofun, nofun⟩
  | ok found =>
    show Except.ok found = .ok tree ↔ _
    simp

/-- What reports call a template that has no other name. -/
def defaultFile : String := "template"

end Template

end Templating
