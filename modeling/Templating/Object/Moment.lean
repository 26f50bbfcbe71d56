import Templating.Calendar.Civil
import Templating.Text.Blank

/-!
# Dates and times

A date, a time of day, or both, written in the order from years to fractions of a second. A time
may carry its offset from universal time in seconds, and is then equal to the same instant
elsewhere. A duration is a number of days with a part of a day.
-/

namespace Templating

structure Day where
  year : Nat
  month : Nat
  day : Nat
deriving DecidableEq, Repr

structure Clock where
  hour : Nat
  minute : Nat
  second : Nat
  micro : Nat
  offset : Option Int
deriving DecidableEq, Repr

/-- A span of time; the seconds are less than a day and the microseconds less than a second. -/
structure Duration where
  days : Int
  seconds : Nat
  micros : Nat
deriving DecidableEq, Repr

inductive Moment
  | date (day : Day)
  | time (clock : Clock)
  | dateTime (day : Day) (clock : Clock)
deriving DecidableEq, Repr

def padZeros (width n : Nat) : String :=
  let digits := toString n
  String.ofList (List.replicate (width - digits.length) '0') ++ digits

def Day.iso (d : Day) : String := s!"{padZeros 4 d.year}-{padZeros 2 d.month}-{padZeros 2 d.day}"

def offsetText (seconds : Int) : String :=
  let n := seconds.natAbs
  let rest := if n % 60 = 0 then "" else ":" ++ padZeros 2 (n % 60)
  (if seconds < 0 then "-" else "+") ++ padZeros 2 (n / 3600) ++ ":" ++ padZeros 2 (n / 60 % 60) ++
    rest

def Clock.iso (c : Clock) : String :=
  let fraction := if c.micro = 0 then "" else "." ++ padZeros 6 c.micro
  let zone := (c.offset.map offsetText).getD ""
  s!"{padZeros 2 c.hour}:{padZeros 2 c.minute}:{padZeros 2 c.second}" ++ fraction ++ zone

/-- The microseconds since midnight, less the offset. -/
def Clock.instant (c : Clock) : Int :=
  let seconds : Int := (c.hour * 60 + c.minute) * 60 + c.second - c.offset.getD 0
  seconds * Calendar.microsPerSecond + c.micro

namespace Duration

def ofSeconds (seconds : Int) : Duration := ⟨seconds / 86400, (seconds % 86400).toNat, 0⟩

def least : Duration := ⟨-999999999, 0, 0⟩

def greatest : Duration := ⟨999999999, 86399, 999999⟩

def microsecond : Duration := ⟨0, 0, 1⟩

def isZero (d : Duration) : Bool := d == ⟨0, 0, 0⟩

def text (d : Duration) : String :=
  let plural := if d.days.natAbs = 1 then "" else "s"
  let days := if d.days = 0 then "" else s!"{d.days} day{plural}, "
  let fraction := if d.micros = 0 then "" else "." ++ padZeros 6 d.micros
  let (minutes, seconds) := (d.seconds / 60 % 60, d.seconds % 60)
  days ++ s!"{d.seconds / 3600}:{padZeros 2 minutes}:{padZeros 2 seconds}" ++ fraction

def literal (d : Duration) : String :=
  let part (name : String) (n : Int) : List String := if n = 0 then [] else [s!"{name}={n}"]
  let parts := part "days" d.days ++ part "seconds" d.seconds ++ part "microseconds" d.micros
  let shown := if parts.isEmpty then "0" else String.intercalate ", " parts
  s!"datetime.timedelta({shown})"

end Duration

def zoneText (seconds : Int) : String := if seconds = 0 then "UTC" else "UTC" ++ offsetText seconds

def zoneLiteral (seconds : Int) : String :=
  let span := (Duration.ofSeconds seconds).literal
  if seconds = 0 then "datetime.timezone.utc" else s!"datetime.timezone({span})"

/-- The greatest offset of a zone, in seconds; the least one is its opposite. -/
def greatestOffset : Int := 86340

namespace Moment

/-- The standard form, with a letter between date and time. -/
def iso : Moment → String
  | .date d => d.iso
  | .time c => c.iso
  | .dateTime d c => d.iso ++ "T" ++ c.iso

/-- The form for display, with a blank between date and time. -/
def display : Moment → String
  | .dateTime d c => d.iso ++ " " ++ c.iso
  | m => m.iso

def typeName : Moment → String
  | .date _ => "date"
  | .time _ => "time"
  | .dateTime .. => "datetime"

def parts : Moment → List (String × Nat)
  | .date d => dayParts d
  | .time c => clockParts c
  | .dateTime d c => dayParts d ++ clockParts c
where
  dayParts (d : Day) : List (String × Nat) := [("year", d.year), ("month", d.month), ("day", d.day)]
  clockParts (c : Clock) : List (String × Nat) :=
    [("hour", c.hour), ("minute", c.minute), ("second", c.second), ("microsecond", c.micro),
      ("fold", 0)]

def least : Moment → Moment
  | .date _ => .date ⟨1, 1, 1⟩
  | .time _ => .time ⟨0, 0, 0, 0, none⟩
  | .dateTime .. => .dateTime ⟨1, 1, 1⟩ ⟨0, 0, 0, 0, none⟩

def greatest : Moment → Moment
  | .date _ => .date ⟨9999, 12, 31⟩
  | .time _ => .time ⟨23, 59, 59, 999999, none⟩
  | .dateTime .. => .dateTime ⟨9999, 12, 31⟩ ⟨23, 59, 59, 999999, none⟩

/-- The least distance between moments of a kind. -/
def resolution : Moment → Duration
  | .date _ => ⟨1, 0, 0⟩
  | .time _ | .dateTime .. => .microsecond

def clock? : Moment → Option Clock
  | .date _ => none
  | .time c | .dateTime _ c => some c

/-- A text that two moments share exactly if they are equal: of a moment with an offset the instant,
of one without the reading. -/
def content : Moment → String
  | .date d => "date " ++ d.iso
  | .time c => if c.offset.isSome then s!"time @{c.instant}" else "time " ++ c.iso
  | .dateTime d c =>
    let midnight := Calendar.daysTo d.year d.month d.day * 86400 * Calendar.microsPerSecond
    if c.offset.isSome then s!"instant @{midnight + c.instant}"
    else "moment " ++ d.iso ++ " " ++ c.iso

/-- Numbers for display without the zeros at the end, of which at most two are left out. -/
def shownNumbers (head : List Nat) (second micro : Nat) : List String :=
  (head ++ if micro ≠ 0 then [second, micro] else if second ≠ 0 then [second] else []).map toString

def zoneArgument (seconds : Int) : String := "tzinfo=" ++ zoneLiteral seconds

def literal : Moment → String
  | .date d => s!"datetime.date({d.year}, {d.month}, {d.day})"
  | .time c =>
    let parts :=
      shownNumbers [c.hour, c.minute] c.second c.micro ++ (c.offset.map zoneArgument).toList
    "datetime.time(" ++ String.intercalate ", " parts ++ ")"
  | .dateTime d c =>
    let parts :=
      shownNumbers [d.year, d.month, d.day, c.hour, c.minute] c.second c.micro ++
        (c.offset.map zoneArgument).toList
    "datetime.datetime(" ++ String.intercalate ", " parts ++ ")"

end Moment

end Templating
