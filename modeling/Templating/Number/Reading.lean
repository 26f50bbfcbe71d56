import Templating.Number.Binary64
import Templating.Text.Blank
import Templating.Text.Digit

/-!
# Reading numbers

An integer is an optional sign and decimal digits of any script, a single underscore allowed between
two digits. A number may also have a fraction and an exponent, and may be an infinity or a
not-a-number by name. White space around either is passed over, the four separator controls
excepted. An integer of more than `digitLimit` digits is refused as such, whatever follows its
digits.
-/

namespace Templating.Number

/-- The greatest count of decimal digits of an integer that is read or written. -/
def digitLimit : Nat := 4300

/-- White space that a number may stand in. -/
def isMargin (c : Char) : Bool :=
  Text.isBlank c && !(28 ≤ c.toNat && c.toNat ≤ 31)

def dropMargins (cs : List Char) : List Char :=
  ((cs.dropWhile isMargin).reverse.dropWhile isMargin).reverse

/-- The longest run of digits at the start, and what follows it. -/
def spanDigits : List Char → List Nat × List Char
  | [] => ([], [])
  | c :: rest =>
    match Text.digitValue? c with
    | some d => let more := spanDigits rest; (d :: more.1, more.2)
    | none => ([], c :: rest)

def ofDigits (digits : List Nat) : Nat := digits.foldl (fun n d => 10 * n + d) 0

/-- The text without its underscores, if each of them stands between two digits. -/
def dropUnderscores (afterDigit : Bool) : List Char → Option (List Char)
  | [] => some []
  | c :: rest =>
    if c = '_' then
      match afterDigit, rest with
      | true, d :: _ => if Text.isDigit d then dropUnderscores false rest else none
      | _, _ => none
    else (dropUnderscores (Text.isDigit c) rest).map (c :: ·)

/-- The longest run of digits and underscores at the start, its digits and what follows, if each of
its underscores stands between two digits. -/
def spanGroups (afterDigit : Bool) : List Char → Option (List Nat × List Char)
  | [] => some ([], [])
  | c :: rest =>
    match Text.digitValue? c with
    | some d => (spanGroups true rest).map fun more => (d :: more.1, more.2)
    | none =>
      if c = '_' then
        if afterDigit && rest.head?.any Text.isDigit then spanGroups false rest else none
      else some ([], c :: rest)

def spanSign : List Char → Bool × List Char
  | '-' :: rest => (true, rest)
  | '+' :: rest => (false, rest)
  | cs => (false, cs)

inductive IntegerReading
  | integer (n : Int)
  | tooLong (digits : Nat)
  | malformed
deriving DecidableEq, Repr

def integerOf (negative : Bool) (digits : List Nat) : IntegerReading :=
  if digitLimit < digits.length then .tooLong digits.length
  else .integer (Binary64.signed negative (ofDigits digits))

def readInteger (cs : List Char) : IntegerReading :=
  let signed := spanSign (dropMargins cs)
  match spanGroups false signed.2 with
  | none | some ([], _) => .malformed
  | some (digits, rest) =>
    if rest.isEmpty || digitLimit < digits.length then integerOf signed.1 digits else .malformed

/-- The number nearest to a decimal. Exponents far beyond the range are decided without
computing. -/
def ofDecimal (negative : Bool) (digits : Nat) (exponent : Int) : Binary64 :=
  let point : Int := (Nat.toDigits 10 digits).length + exponent
  if digits = 0 ∨ point < -400 then Binary64.zero negative
  else if 400 < point then .infinite negative
  else if 0 ≤ exponent then Binary64.ofRatio negative (digits * Nat.pow 10 exponent.toNat) 1
  else Binary64.ofRatio negative digits (Nat.pow 10 (-exponent).toNat)

/-- An exponent part at the start, zero if there is none, and what follows it. -/
def spanExponent : List Char → Int × List Char
  | c :: rest =>
    if c = 'e' ∨ c = 'E' then
      let signed := spanSign rest
      match spanDigits signed.2 with
      | ([], _) => (0, c :: rest)
      | (digits, after) => (Binary64.signed signed.1 (ofDigits digits), after)
    else (0, c :: rest)
  | [] => (0, [])

def decimalOf (negative : Bool) (whole fraction : List Nat) (exponent : Int) : Binary64 :=
  ofDecimal negative (ofDigits (whole ++ fraction)) (exponent - fraction.length)

def readMagnitude (negative : Bool) (cs : List Char) : Option Binary64 :=
  let name := String.ofList (cs.map Char.toLower)
  if name = "inf" ∨ name = "infinity" then some (.infinite negative)
  else if name = "nan" then some (.nan 0)
  else
    let whole := spanDigits cs
    let fraction :=
      match whole.2 with
      | '.' :: rest => spanDigits rest
      | rest => ([], rest)
    if whole.1.isEmpty && fraction.1.isEmpty then none
    else
      match spanExponent fraction.2 with
      | (exponent, []) => some (decimalOf negative whole.1 fraction.1 exponent)
      | (_, _ :: _) => none

def readNumber (cs : List Char) : Option Binary64 :=
  match dropUnderscores false (dropMargins cs) with
  | none => none
  | some body => let signed := spanSign body; readMagnitude signed.1 signed.2

end Templating.Number
