import Templating.Calendar.Civil
import Templating.Text.Case

/-!
# Formats of dates and times

A format is text with directives: a percent sign, flags, a width, a modifier and a letter. The
flags are `_` and `-` and `0` for the filling, `^` for capitals and `#` for the other case. A
directive without a meaning is kept as it stands. What would outgrow the room that goes with the
length of the format comes out empty.
-/

namespace Templating.Calendar

def weekdayNames : List String :=
  ["Sunday", "Monday", "Tuesday", "Wednesday", "Thursday", "Friday", "Saturday"]

def monthNames : List String :=
  ["January", "February", "March", "April", "May", "June", "July", "August", "September", "October",
    "November", "December"]

inductive Fill
  | zeros
  | blanks
  | none
deriving DecidableEq, Repr

structure Directive where
  fill : Option Fill
  capitals : Bool
  otherCase : Bool
  width : Nat
  modifier : Option Char
  letter : Option Char
  written : List Char
deriving DecidableEq, Repr

def fillOf? : Char → Option Fill
  | '_' => some .blanks
  | '-' => some .none
  | '0' => some .zeros
  | _ => .none

def Directive.blank : Directive := ⟨none, false, false, 0, none, none, ['%']⟩

def Directive.write (d : Directive) (c : Char) : Directive := { d with written := d.written ++ [c] }

def readFlags (d : Directive) : List Char → Directive × List Char
  | [] => (d, [])
  | c :: rest =>
    match fillOf? c with
    | some fill => readFlags { d.write c with fill := some fill } rest
    | none =>
      if c = '^' then readFlags { d.write c with capitals := true } rest
      else if c = '#' then readFlags { d.write c with otherCase := true } rest
      else (d, c :: rest)

def readWidth (d : Directive) : List Char → Directive × List Char
  | [] => (d, [])
  | c :: rest =>
    if c.isDigit then readWidth { d.write c with width := 10 * d.width + (c.toNat - 48) } rest
    else (d, c :: rest)

def readModifier (d : Directive) : List Char → Directive × List Char
  | [] => (d, [])
  | c :: rest =>
    if c = 'E' ∨ c = 'O' then ({ d.write c with modifier := some c }, rest) else (d, c :: rest)

def readDirective (cs : List Char) : Directive × List Char :=
  let flagged := readFlags .blank cs
  let wide := readWidth flagged.1 flagged.2
  let modified := readModifier wide.1 wide.2
  match modified.2 with
  | [] => (modified.1, [])
  | c :: rest => ({ modified.1.write c with letter := some c }, rest)

/-- A text in the field of a directive, at its right end. -/
def Directive.field (d : Directive) (text : List Char) : List Char :=
  List.replicate (d.width - text.length) (if d.fill = some .zeros then '0' else ' ') ++ text

def capital (c : Char) : Char :=
  match Text.upperChar c with
  | [upper] => upper
  | _ => c

def Directive.word (d : Directive) (text : String) : List Char :=
  d.field (if d.capitals then text.toList.map capital else text.toList)

/-- The directive itself. The names of months turn to capitals even where they are not written. -/
def Directive.kept (d : Directive) : List Char :=
  let month := d.letter = some 'b' ∨ d.letter = some 'h'
  { d with capitals := d.capitals || (d.otherCase && decide month) }.word (String.ofList d.written)

/-- A number with at least `digits` digits, or as many as the width asks for. -/
def Directive.number (d : Directive) (fill : Fill) (digits : Nat) (n : Int) : List Char :=
  let text := (toString n).toList
  let missing := max digits d.width - text.length
  match d.fill.getD fill with
  | .none => d.field text
  | .blanks => List.replicate missing ' ' ++ text
  | .zeros =>
    if n < 0 then '-' :: List.replicate missing '0' ++ text.drop 1
    else List.replicate missing '0' ++ text

/-- The directives that a letter stands for in short. -/
def expansion? : Char → Option String
  | 'c' => some "%a %b %e %H:%M:%S %Y"
  | 'x' | 'D' => some "%m/%d/%y"
  | 'X' | 'T' => some "%H:%M:%S"
  | 'F' => some "%Y-%m-%d"
  | 'R' => some "%H:%M"
  | 'r' => some "%I:%M:%S %p"
  | _ => none

/-- Whether a letter can be written with a modifier: `E` asks for another calendar, `O` for other
digits, and where there are none both are without effect. -/
def allowsModifier (letter modifier : Char) : Bool :=
  let letters :=
    if modifier = 'E' then "cnprstuxyzCPRTXYZ%" else "bdeghjklmnprstuwyzBCGHIMPRSTUVWZ%"
  letters.toList.contains letter

/-- What a directive of a single meaning is replaced by; none if the letter has no meaning. -/
def simple? (t : CivilTime) (d : Directive) (letter : Char) : Option (List Char) :=
  let two (n : Nat) := some (d.number .zeros 2 n)
  let blank (n : Nat) := some (d.number .blanks 2 n)
  let one (n : Int) := some (d.number .zeros 1 n)
  let named (name : String) := some ({ d with capitals := d.capitals || d.otherCase }.word name)
  let weekdayName := (weekdayNames[t.weekday]?).getD ""
  let monthName := (monthNames[t.month - 1]?).getD ""
  let short (name : String) := String.ofList (name.toList.take 3)
  match letter with
  | '%' => some (d.field ['%'])
  | 'n' => some (d.field ['\n'])
  | 't' => some (d.field ['\t'])
  | 'a' => named (short weekdayName)
  | 'A' => named weekdayName
  | 'b' | 'h' => named (short monthName)
  | 'B' => named monthName
  | 'C' => one (t.year / 100)
  | 'd' => two t.day
  | 'e' => blank t.day
  | 'H' => two t.hour
  | 'I' => two t.hour12
  | 'k' => blank t.hour
  | 'l' => blank t.hour12
  | 'j' => some (d.number .zeros 3 (t.yearDay + 1 : Nat))
  | 'M' => two t.minute
  | 'm' => two t.month
  | 'P' => some (d.field (if t.hour < 12 then ['a', 'm'] else ['p', 'm']))
  | 'p' =>
    if d.otherCase then some (d.field (if t.hour < 12 then ['a', 'm'] else ['p', 'm']))
    else some (d.field (if t.hour < 12 then ['A', 'M'] else ['P', 'M']))
  | 'S' => two t.second
  | 's' => some (d.field (toString t.seconds).toList)
  | 'u' => one (if t.weekday = 0 then 7 else t.weekday : Nat)
  | 'U' => two ((t.yearDay + 7 - t.weekday) / 7)
  | 'V' => two t.isoWeek.2
  | 'g' => two (t.isoWeek.1 % 100).toNat
  | 'G' => one t.isoWeek.1
  | 'W' => two ((t.yearDay + 7 - (t.weekday + 6) % 7) / 7)
  | 'w' => one t.weekday
  | 'Y' => one t.year
  | 'y' => two (t.year % 100).toNat
  | 'Z' => some (d.field [])
  | 'z' => some []
  | _ => none

/-- What is written for a directive when letters of several directives are replaced by
`expanded`. -/
def render (t : CivilTime) (expanded : Char → Option (List Char)) (d : Directive) : List Char :=
  match d.letter with
  | none => d.kept
  | some letter =>
    if d.modifier.any fun m => !allowsModifier letter m then d.kept
    else
      match expanded letter with
      | some body =>
        let text := d.field body
        if d.capitals then text.map capital else text
      | none =>
        match simple? t d letter with
        | some text => text
        | none => d.kept

/-- The format with its directives replaced, at most `fuel` characters of it. A field of `room`
characters or more fits nowhere. -/
def replaceWithin (room : Nat) (replacement : Directive → List Char) :
    Nat → List Char → Option (List Char)
  | _, [] => some []
  | 0, _ :: _ => some []
  | fuel + 1, c :: rest =>
    if c = '%' then
      let found := readDirective rest
      if room ≤ found.1.width ∧ found.1.letter ≠ some 'z' then none
      else
        (replaceWithin room replacement fuel found.2).map (replacement found.1 ++ ·)
    else (replaceWithin room replacement fuel rest).map (c :: ·)

def expand (t : CivilTime) (room : Nat) (letter : Char) : Option (List Char) :=
  (expansion? letter).bind fun body =>
    replaceWithin room (render t fun _ => none) body.length body.toList

/-- How often 1024 is doubled to reach `n`. -/
def doublings (n : Nat) : Nat := if n ≤ 1024 then 0 else Nat.log2 ((n - 1) / 1024) + 1

/-- The room for a text of a given format: the first of 1024, 2048, … that is 256 times its
length. -/
def roomFor (length : Nat) : Nat := 1024 <<< doublings (256 * length)

/-- The directives for the zone and for microseconds, which stand for texts of their own. -/
def fillZone (t : CivilTime) : List Char → List Char
  | '%' :: 'z' :: rest => "+0000".toList ++ fillZone t rest
  | '%' :: 'Z' :: rest => "UTC".toList ++ fillZone t rest
  | '%' :: 'f' :: rest =>
    let digits := (toString t.micro).toList
    List.replicate (6 - digits.length) '0' ++ digits ++ fillZone t rest
  | '%' :: c :: rest => '%' :: c :: fillZone t rest
  | c :: rest => c :: fillZone t rest
  | [] => []

/-- A time in the given format, which ends at a null character if it has one. -/
def format (t : CivilTime) (form : String) : String :=
  let filled := fillZone t (form.toList.takeWhile (· ≠ '\x00'))
  let room := roomFor filled.length
  match replaceWithin room (render t (expand t room)) filled.length filled with
  | some text => if text.length < room then String.ofList text else ""
  | none => ""

end Templating.Calendar
