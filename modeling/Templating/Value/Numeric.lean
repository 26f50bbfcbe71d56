import Templating.Value

/-!
# Values as numbers

The integer and the number that a value stands for. Null, collections and objects stand for none,
nor does a text that is not written as a number; infinities and not-a-numbers have no integer, and
an integer beyond the range has no number.
-/

namespace Templating

namespace Value

def truncate : Binary64 → Except Error Int
  | .nan _ => .error (.fault .nanToInteger)
  | .infinite _ => .error (.fault .infinityToInteger)
  | .finite negative significand exponent =>
    .ok (Binary64.signed negative (Binary64.parts significand exponent).1)

def asInt? : Value → Except Error (Option Int)
  | .int n => .ok (some n)
  | .bool b => .ok (some (if b then 1 else 0))
  | .float x => do return some (← truncate x)
  | .string s =>
    match Number.readInteger (Text.trim s.toList) with
    | .integer n => .ok (some n)
    | .tooLong _ | .malformed => .ok none
  | _ => .ok none

def integerAsFloat (n : Int) : Except Error Binary64 :=
  match Binary64.ofInt n with
  | .infinite _ => .error (.fault .integerBeyondNumbers)
  | x => .ok x

def asFloat? : Value → Except Error (Option Binary64)
  | .int n => do return some (← integerAsFloat n)
  | .bool b => .ok (some (Binary64.ofInt (if b then 1 else 0)))
  | .float x => .ok (some x)
  | .string s => .ok (Number.readNumber (Text.trim s.toList))
  | _ => .ok none

end Value

end Templating
