import Templating.Error
import Templating.Source.Position
import Templating.Text.Search

/-!
# Cursors over the bytes of a template

A cursor is what a grammar of its own reads a template with: it passes over bytes, keeps the
position for reports, and finds markers ahead. A distance may be negative; offsets below zero count
from the end.
-/

namespace Templating

structure Cursor where
  data : List UInt8
  file : String
  offset : Int
  position : Position
deriving DecidableEq, Repr

namespace Cursor

def ofBytes (data : List UInt8) (file : String) : Cursor := ⟨data, file, 0, .start⟩

def size (c : Cursor) : Int := c.data.length

/-- An offset as a count of bytes from the start, no less than none and no more than all. -/
def place (c : Cursor) (offset : Int) : Nat :=
  let fromStart := if offset < 0 then offset + c.size else offset
  min fromStart.toNat c.data.length

def ahead (c : Cursor) : List UInt8 := c.data.drop (c.place c.offset)

def atEnd (c : Cursor) : Bool := c.size ≤ c.offset

/-- The byte `n` places ahead, none past the end. -/
def peek (c : Cursor) (n : Int) : Except Error (Option UInt8) :=
  let target := c.offset + n
  if c.size ≤ target then .ok none
  else
    let fromStart := if target < 0 then target + c.size else target
    if fromStart < 0 then .error (.fault (.raised .index "index out of range"))
    else .ok c.data[fromStart.toNat]?

/-- The bytes passed over on the way `n` places ahead, at most to the end, and the cursor there. -/
def advance (c : Cursor) (n : Int) : List UInt8 × Cursor :=
  let stop := min (c.offset + n) c.size
  let passed := (c.data.take (c.place stop)).drop (c.place c.offset)
  (passed, { c with offset := stop, position := c.position.afterBytes passed })

def pop (c : Cursor) : Except Error (Option UInt8 × Cursor) := do
  match ← c.peek 0 with
  | none => return (none, c)
  | some b => return (some b, (c.advance 1).2)

def startsWith (c : Cursor) (marker : List UInt8) : Bool := marker.isPrefixOf c.ahead

def consume (c : Cursor) (marker : List UInt8) : Bool × Cursor :=
  if c.startsWith marker then (true, (c.advance marker.length).2) else (false, c)

def find? (c : Cursor) (marker : List UInt8) : Option Int :=
  (Text.splitAtFirst? marker c.ahead).map fun found =>
    (c.place c.offset + found.1.length : Nat)

/-- The bytes before the next `marker`, and the cursor at it; the cursor stays if there is none. -/
def readUntil (c : Cursor) (marker : List UInt8) : Option (List UInt8) × Cursor :=
  match c.find? marker with
  | none => (none, c)
  | some target => let moved := c.advance (target - c.offset); (some moved.1, moved.2)

def readToEnd (c : Cursor) : List UInt8 × Cursor := c.advance (c.size - c.offset)

def isSpace (b : UInt8) : Bool := b == 32 || b == 9 || b == 13 || b == 10

def skipSpaceWithin : Nat → Cursor → Except Error Cursor
  | 0, c => .ok c
  | fuel + 1, c => do
    match ← c.peek 0 with
    | some b => if isSpace b then skipSpaceWithin fuel (c.advance 1).2 else return c
    | none => return c

def skipSpace (c : Cursor) : Except Error Cursor := skipSpaceWithin (c.size - c.offset).toNat c

/-- The text of the template for reports; what is no text is shown by replacement characters. -/
def source (c : Cursor) : String := String.ofList (Text.Utf8.decodeLossy c.data)

/-- A syntax error at the cursor, or at the given line and column. -/
def error (c : Cursor) (message : String) (code : Code) (line column : Option Int) : Error :=
  .malformed
    { problem := .other message code
      file := some c.file
      line := some (line.getD c.position.line)
      column := some (column.getD c.position.column)
      source := some c.source }

def text (c : Cursor) : String :=
  s!"<ByteScanner {c.file}:{c.position.line}:{c.position.column}>"

@[simp] theorem data_advance (c : Cursor) (n : Int) : (c.advance n).2.data = c.data := rfl

theorem readUntil_of_find?_eq_none {c : Cursor} {marker : List UInt8} (h : c.find? marker = none) :
    c.readUntil marker = (none, c) := by
  simp [readUntil, h]

end Cursor

end Templating
