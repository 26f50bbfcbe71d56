import Templating.Number.Binary64

/-!
# The shortest decimal text of a binary64 number

`shortest` finds the decimal with the fewest digits that reads back as a given number, and among
those the nearest to it. A decimal reads back when it lies between the midpoints to the two
neighbours, the midpoints included if the significand is even. `Binary64.text` writes it:
positionally for exponents from `-4` to `15`, with a point and at least one digit after it, and
otherwise with an exponent of at least two digits.
-/

namespace Templating

/-- The number `digits * 10 ^ exponent`. -/
structure Decimal where
  digits : Nat
  exponent : Int
deriving DecidableEq, Repr

namespace Decimal

def ratio (d : Decimal) : Nat × Nat :=
  if 0 ≤ d.exponent then (d.digits * Nat.pow 10 d.exponent.toNat, 1)
  else (d.digits, Nat.pow 10 (-d.exponent).toNat)

def digitCount (n : Nat) : Nat := (Nat.toDigits 10 n).length

/-- The same number without trailing zeros; `fuel` bounds their count. -/
def trimWithin : Nat → Decimal → Decimal
  | 0, d => d
  | fuel + 1, d =>
    if d.digits ≠ 0 ∧ d.digits % 10 = 0 then trimWithin fuel ⟨d.digits / 10, d.exponent + 1⟩ else d

def trim (d : Decimal) : Decimal := trimWithin (digitCount d.digits) d

end Decimal

namespace Binary64

/-- The decimals that read back as one number: a range of quotients over one denominator. -/
structure Interval where
  low : Nat
  high : Nat
  den : Nat
  closed : Bool
deriving DecidableEq, Repr

/-- The interval around `significand * 2 ^ exponent`. Below a power of two the neighbour is half as
far. -/
def interval (significand : Nat) (exponent : Int) : Interval :=
  let fine := significand = 1 <<< 52 ∧ leastExponent < exponent
  let value := ratio significand (exponent - 2)
  let unit := (ratio 1 (exponent - 2)).1
  let den := (ratio 1 (exponent - 2)).2
  ⟨4 * value.1 - (if fine then 1 else 2) * unit, 4 * value.1 + 2 * unit, den,
    significand % 2 = 0⟩

def Interval.contains (i : Interval) (d : Decimal) : Bool :=
  let x := d.ratio
  let low := i.low * x.2
  let high := i.high * x.2
  let value := x.1 * i.den
  if i.closed then low ≤ value && value ≤ high else low < value && value < high

/-- The exponent `p` with `10 ^ (p - 1) ≤ num / den < 10 ^ p`. -/
def decimalPoint (num den : Nat) : Int :=
  let guess := (Decimal.digitCount num : Int) - Decimal.digitCount den
  let bound := (Decimal.mk 1 guess).ratio
  if num * bound.2 < bound.1 * den then guess else guess + 1

/-- The neighbours of `num / den` among the decimals with `count` digits, the nearer one first; of
two equally near ones the one with an even last digit. -/
def neighbours (num den count : Nat) : Decimal × Decimal :=
  let exponent := decimalPoint num den - count
  let scaled :=
    if 0 ≤ exponent then (num, den * Nat.pow 10 exponent.toNat)
    else (num * Nat.pow 10 (-exponent).toNat, den)
  let floor := scaled.1 / scaled.2
  let below : Decimal := ⟨floor, exponent⟩
  let above : Decimal := ⟨floor + 1, exponent⟩
  if roundHalfEven scaled.1 scaled.2 = floor then (below, above) else (above, below)

def shortestFrom (i : Interval) (num den : Nat) : Nat → Nat → Decimal
  | 0, count => (neighbours num den count).1
  | fuel + 1, count =>
    let near := neighbours num den count
    if i.contains near.1 then near.1
    else if i.contains near.2 then near.2
    else shortestFrom i num den fuel (count + 1)

/-- Seventeen digits always suffice. -/
def shortest (significand : Nat) (exponent : Int) : Decimal :=
  let x := ratio significand exponent
  (shortestFrom (interval significand exponent) x.1 x.2 16 1).trim

def zeros (n : Nat) : List Char := List.replicate n '0'

/-- Digits with the decimal point at the given place, and a digit on each side of it. -/
def positional (digits : List Char) (point : Int) : List Char :=
  let whole := digits.take point.toNat ++ zeros (point.toNat - digits.length)
  let fraction := zeros (-point).toNat ++ digits.drop point.toNat
  (if whole.isEmpty then ['0'] else whole) ++ '.' :: (if fraction.isEmpty then ['0'] else fraction)

def scientific (digits : List Char) (exponent : Int) : List Char :=
  let shown := (Nat.toDigits 10 exponent.natAbs)
  digits.take 1 ++ (if digits.length ≤ 1 then [] else '.' :: digits.drop 1) ++
    ['e', if exponent < 0 then '-' else '+'] ++ zeros (2 - shown.length) ++ shown

def magnitudeText (significand : Nat) (exponent : Int) : List Char :=
  if significand = 0 then ['0', '.', '0']
  else
    let d := shortest significand exponent
    let digits := Nat.toDigits 10 d.digits
    let point := d.exponent + digits.length
    if -4 < point ∧ point ≤ 16 then positional digits point else scientific digits (point - 1)

def text : Binary64 → String
  | .nan _ => "nan"
  | .infinite negative => if negative then "-inf" else "inf"
  | .finite negative significand exponent =>
    String.ofList ((if negative then ['-'] else []) ++ magnitudeText significand exponent)

/-- The form used inside JSON: only the names of the special numbers differ. -/
def json : Binary64 → String
  | .nan _ => "NaN"
  | .infinite negative => if negative then "-Infinity" else "Infinity"
  | x => x.text

end Binary64

end Templating
