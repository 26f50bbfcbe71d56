/-!
# Positions in a source

A position is a line, counted from one, and a column, counted from zero. Only a line feed begins a
line.
-/

namespace Templating

structure Position where
  line : Int
  column : Int
deriving DecidableEq, Repr

namespace Position

def start : Position := ⟨1, 0⟩

def right (p : Position) (n : Nat) : Position := ⟨p.line, p.column + n⟩

def nextLine (p : Position) : Position := ⟨p.line + 1, 0⟩

def afterByte (p : Position) (b : UInt8) : Position := if b = 10 then p.nextLine else p.right 1

def afterBytes (p : Position) (bytes : List UInt8) : Position := bytes.foldl afterByte p

def afterChar (p : Position) (c : Char) : Position := if c = '\n' then p.nextLine else p.right 1

@[simp] theorem afterBytes_nil (p : Position) : p.afterBytes [] = p := rfl

@[simp] theorem afterBytes_cons (p : Position) (b : UInt8) (bytes : List UInt8) :
    p.afterBytes (b :: bytes) = (p.afterByte b).afterBytes bytes := rfl

theorem afterBytes_append (p : Position) (a b : List UInt8) :
    p.afterBytes (a ++ b) = (p.afterBytes a).afterBytes b := by
  simp [afterBytes, List.foldl_append]

/-- Lines are the line feeds passed. -/
theorem line_afterBytes (p : Position) (bytes : List UInt8) :
    (p.afterBytes bytes).line = p.line + bytes.count 10 := by
  induction bytes generalizing p with
  | nil => simp
  | cons b rest ih =>
    rw [afterBytes_cons, ih]
    by_cases h : b = 10
    · subst h
      simp [afterByte, nextLine]
      omega
    · simp [afterByte, right, h]

end Position

end Templating
