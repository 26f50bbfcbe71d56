import Templating.Error

/-!
# Frames

A render takes place in a frame: the label of the template, how many renders enclose this one, how
many may, and the chain of the enclosing renders, outermost first, each with the line of the tag
that began the next one. A render inside another one gets a frame of its own, unless the limit is
reached.
-/

namespace Templating

structure Frame where
  label : Option String
  depth : Int
  limit : Int
  chain : List (String × Int)
deriving DecidableEq, Repr

namespace Frame

def defaultLimit : Int := 50

def root (label : String) (limit : Int) : Frame := ⟨some label, 0, limit, []⟩

def refusal (f : Frame) (line : Int) (label : String) : Error :=
  .runtime (.depthExceeded f.limit label)
    { template := f.label
      line := if line = 0 then none else some line
      suggestion := some "Check for circular includes: A → B → A"
      chain := f.chain }

def isFull (f : Frame) : Bool := f.limit ≤ f.depth

def check (f : Frame) (line : Int) (label : String) : Except Error Unit :=
  if f.isFull then .error (f.refusal line label) else .ok ()

/-- The chain that a render begun at `line` leaves behind; a frame without a label leaves no
trace. -/
def chainAt (f : Frame) (line : Int) : List (String × Int) :=
  match f.label with
  | none | some "" => f.chain
  | some label => f.chain ++ [(label, line)]

def child (f : Frame) (line : Int) (label : String) : Frame :=
  ⟨some label, f.depth + 1, f.limit, f.chainAt line⟩

/-- The frame of a render of `label`, inside the current one if there is one. -/
def enter (current : Option (Frame × Int)) (label : String) (limit : Int) : Except Error Frame :=
  match current with
  | none => .ok (root label limit)
  | some (f, line) => do
    f.check line label
    return f.child line label

/-- How many renders may still be begun inside one another. -/
def remaining (f : Frame) : Nat := (f.limit - f.depth).toNat

theorem isFull_iff (f : Frame) : f.isFull = true ↔ f.remaining = 0 := by
  simp only [isFull, decide_eq_true_eq, remaining]
  omega

theorem remaining_child (f : Frame) (line : Int) (label : String) :
    (f.child line label).remaining = f.remaining - 1 := by
  simp only [remaining, child]
  omega

end Frame

end Templating
