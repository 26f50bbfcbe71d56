/-!
# Binary64 numbers

A finite number is a sign, a significand below `2 ^ 53` and an exponent of two, at least `-1074`;
the significand is at least `2 ^ 52` unless the exponent is the least one. Everything that is not
exact goes through `ofRatio`, which rounds a quotient of natural numbers to the nearest number, a
half to the even neighbour.
-/

namespace Templating

inductive Binary64
  /-- A not-a-number; the payload tells one occurrence from another. -/
  | nan (payload : Nat)
  | infinite (negative : Bool)
  | finite (negative : Bool) (significand : Nat) (exponent : Int)
deriving DecidableEq, Repr

namespace Binary64

/-- The quotient rounded to the nearest integer, a half to the even one. -/
def roundHalfEven (num den : Nat) : Nat :=
  let quotient := num / den
  let double := 2 * (num % den)
  if double < den then quotient
  else if den < double then quotient + 1
  else quotient + quotient % 2

/-- The quotient `num / den` in units of `2 ^ exponent`, as a numerator and a denominator. -/
def scale (num den : Nat) (exponent : Int) : Nat × Nat :=
  if 0 ≤ exponent then (num, den <<< exponent.toNat) else (num <<< (-exponent).toNat, den)

def leastExponent : Int := -1074

def greatestExponent : Int := 971

/-- The exponent that gives a quotient 53 binary places, or the least exponent. -/
def exponentFor (num den : Nat) : Int :=
  let guess := max ((num.log2 : Int) - den.log2 - 53) leastExponent
  let scaled := scale num den guess
  if 1 <<< 53 ≤ scaled.1 / scaled.2 then guess + 1 else guess

def zero (negative : Bool) : Binary64 := .finite negative 0 leastExponent

/-- The number nearest to `num / den`, of the given sign. -/
def ofRatio (negative : Bool) (num den : Nat) : Binary64 :=
  if num = 0 then zero negative
  else
    let exponent := exponentFor num den
    let scaled := scale num den exponent
    let significand := roundHalfEven scaled.1 scaled.2
    let exact := if significand = 1 <<< 53 then (1 <<< 52, exponent + 1) else (significand, exponent)
    if greatestExponent < exact.2 then .infinite negative
    else .finite negative exact.1 exact.2

def ofInt (n : Int) : Binary64 := ofRatio (n < 0) n.natAbs 1

def ratio (significand : Nat) (exponent : Int) : Nat × Nat :=
  if 0 ≤ exponent then (significand <<< exponent.toNat, 1)
  else (significand, 1 <<< (-exponent).toNat)

def signed (negative : Bool) (n : Nat) : Int := if negative then -(n : Int) else n

def isZero : Binary64 → Bool
  | .finite _ significand _ => significand == 0
  | _ => false

/-- Numeric equality: zeros of both signs are equal, and a not-a-number equals only itself. -/
def same : Binary64 → Binary64 → Bool
  | .nan p, .nan q => p == q
  | .infinite a, .infinite b => a == b
  | .finite a m e, .finite b n f =>
    let x := ratio m e
    let y := ratio n f
    signed a x.1 * y.2 == signed b y.1 * x.2
  | _, _ => false

/-- The integer part and the fraction of a finite number: the fraction is a quotient below one, and
both have the sign of the number. -/
def parts (significand : Nat) (exponent : Int) : Nat × (Nat × Nat) :=
  let x := ratio significand exponent
  (x.1 / x.2, (x.1 % x.2, x.2))

def roundMagnitude (significand : Nat) (exponent : Int) : Nat :=
  let x := ratio significand exponent
  roundHalfEven x.1 x.2

end Binary64

end Templating
