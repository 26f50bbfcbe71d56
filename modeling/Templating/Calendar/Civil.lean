import Templating.Error
import Templating.Number.Binary64

/-!
# Civil time

A timestamp counts seconds from the start of 1970 in universal time. It is split into a day,
counted from that start, and the time of the day down to microseconds; a fraction of a second is
rounded to the nearest microsecond, a half to the even one. Years run from 1 to 9999.
-/

namespace Templating

structure CivilTime where
  /-- Days since the start of 1970. -/
  days : Int
  year : Int
  month : Nat
  day : Nat
  hour : Nat
  minute : Nat
  second : Nat
  micro : Nat
deriving DecidableEq, Repr

namespace Calendar

/-- Days from the start of 1970 to a date. Years begin in March here, so that a leap day comes
last. -/
def daysTo (year : Int) (month day : Nat) : Int :=
  let y := if month ≤ 2 then year - 1 else year
  let era := y / 400
  let yearOfEra := y % 400
  let dayOfYear : Int := (153 * ((month + 9) % 12) + 2) / 5 + day - 1
  era * 146097 + yearOfEra * 365 + yearOfEra / 4 - yearOfEra / 100 + dayOfYear - 719468

def dateOf (days : Int) : Int × Nat × Nat :=
  let shifted := days + 719468
  let era := shifted / 146097
  let dayOfEra := shifted % 146097
  let yearOfEra := (dayOfEra - dayOfEra / 1460 + dayOfEra / 36524 - dayOfEra / 146096) / 365
  let dayOfYear := (dayOfEra - (365 * yearOfEra + yearOfEra / 4 - yearOfEra / 100)).toNat
  let marchMonth := (5 * dayOfYear + 2) / 153
  let day := dayOfYear - (153 * marchMonth + 2) / 5 + 1
  let month := if marchMonth < 10 then marchMonth + 3 else marchMonth - 9
  (yearOfEra + era * 400 + (if month ≤ 2 then 1 else 0), month, day)

/-- The range of 32-bit integers, which years are counted in. -/
def wrapYear (year : Int) : Int := (year + 0x80000000) % 0x100000000 - 0x80000000

def microsPerSecond : Nat := 1000000

def splitTimestamp (x : Binary64) : Except Error (Int × Nat) :=
  match x with
  | .nan _ => .error (.fault .timestampNotNumber)
  | .infinite _ => .error (.fault .timestampBeyondClock)
  | .finite negative significand exponent =>
    let split := Binary64.parts significand exponent
    let scaled :=
      match Binary64.ofRatio negative (split.2.1 * microsPerSecond) split.2.2 with
      | .finite _ m e => Binary64.roundMagnitude m e
      | _ => 0
    let seconds := Binary64.signed negative split.1
    let micros := Binary64.signed negative scaled
    let total : Int × Nat :=
      if (microsPerSecond : Int) ≤ micros then (seconds + 1, (micros - microsPerSecond).toNat)
      else if micros < 0 then (seconds - 1, (micros + microsPerSecond).toNat)
      else (seconds, micros.toNat)
    if -0x8000000000000000 ≤ total.1 ∧ total.1 < 0x8000000000000000 then .ok total
    else .error (.fault .timestampBeyondClock)

def ofTimestamp (x : Binary64) : Except Error CivilTime := do
  let (seconds, micro) ← splitTimestamp x
  let days := seconds / 86400
  let rest := (seconds % 86400).toNat
  let (year, month, day) := dateOf days
  if year - 1900 < -0x80000000 ∨ 0x80000000 ≤ year - 1900 then
    .error (.fault .timestampBeyondCalendar)
  else if year < 1 ∨ 9999 < year then .error (.fault (.yearBeyondCalendar (wrapYear year)))
  else return ⟨days, year, month, day, rest / 3600, rest / 60 % 60, rest % 60, micro⟩

end Calendar

namespace CivilTime

def yearDay (t : CivilTime) : Nat := (t.days - Calendar.daysTo t.year 1 1).toNat

def weekday (t : CivilTime) : Nat := ((t.days + 4) % 7).toNat

def seconds (t : CivilTime) : Int :=
  t.days * 86400 + (3600 * t.hour + 60 * t.minute + t.second : Nat)

def hour12 (t : CivilTime) : Nat := if t.hour % 12 = 0 then 12 else t.hour % 12

/-- The week in which a day falls, weeks beginning on Monday and belonging to the year of their
Thursday. -/
def isoWeek (t : CivilTime) : Int × Nat :=
  let thursday := t.days - (t.days + 3) % 7 + 3
  let year := (Calendar.dateOf thursday).1
  (year, (thursday - Calendar.daysTo year 1 1).toNat / 7 + 1)

end CivilTime

end Templating
