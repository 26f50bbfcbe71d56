import Templating.Node
import Templating.Number.Reading
import Templating.Text.Utf8

/-!
# Expressions

The text of a tag is read as expressions: strings in either quote, numbers, `true`, `false` and
`null`, paths such as `a.b[0]["c"]`, and calls of tags. White space may stand around every part but
not inside a path before a point or bracket.
-/

namespace Templating

inductive ReadFailure
  | malformed (problem : SyntaxProblem) (position : Position)
  | fault (fault : Fault)
deriving DecidableEq, Repr

/-- What is left to read of a tag, and where that stands. -/
structure Remaining where
  chars : List Char
  position : Position
deriving DecidableEq, Repr

namespace Remaining

def jump (r : Remaining) (width : Nat) (rest : List Char) : Remaining :=
  ⟨rest, r.position.right width⟩

def fail {α : Type} (r : Remaining) (problem : SyntaxProblem) : Except ReadFailure α :=
  .error (.malformed problem r.position)

def skipBlanksFrom (p : Position) : List Char → Remaining
  | [] => ⟨[], p⟩
  | c :: rest => if Text.isBlank c then skipBlanksFrom (p.afterChar c) rest else ⟨c :: rest, p⟩

def skipBlanks (r : Remaining) : Remaining := skipBlanksFrom r.position r.chars

/-- What follows the given character, if it comes next. -/
def take? (r : Remaining) (c : Char) : Option Remaining :=
  match r.chars with
  | d :: rest => if d = c then some (r.jump 1 rest) else none
  | [] => none

def expectEnd (r : Remaining) : Except ReadFailure Unit :=
  let r := r.skipBlanks
  if r.chars.isEmpty then .ok () else r.fail (.leftover (String.ofList (Text.trim r.chars)))

end Remaining

namespace Expression

def isNameStart (c : Char) : Bool := c.isAlpha || c == '_'

def isNamePart (c : Char) : Bool := c.isAlphanum || c == '_'

def splitName? : List Char → Option (String × List Char)
  | [] => none
  | c :: rest =>
    if isNameStart c then
      let found := rest.span isNamePart
      some (String.ofList (c :: found.1), found.2)
    else none

def readName (r : Remaining) : Except ReadFailure (String × Remaining) :=
  let r := r.skipBlanks
  match splitName? r.chars with
  | some (name, rest) => .ok (name, r.jump name.length rest)
  | none => r.fail (.nameExpected r.chars.head?)

/-- What an escape stands for; an unknown one stands for itself, with its backslash. -/
def unescape (c : Char) : List Char :=
  match c with
  | 'n' => ['\n']
  | 't' => ['\t']
  | 'r' => ['\r']
  | '\\' | '"' | '\'' => [c]
  | _ => ['\\', c]

/-- The content of a string up to its closing quote, and what follows. -/
def splitQuoted? (quote : Char) (p : Position) : List Char → Option (List Char × Remaining)
  | [] => none
  | '\\' :: [] => none
  | '\\' :: c :: rest =>
    (splitQuoted? quote ((p.right 1).afterChar c) rest).map fun found =>
      (unescape c ++ found.1, found.2)
  | c :: rest =>
    if c = quote then some ([], ⟨rest, p.right 1⟩)
    else (splitQuoted? quote (p.afterChar c) rest).map fun found => (c :: found.1, found.2)

def isQuote (c : Char) : Bool := c == '"' || c == '\''

def readString (r : Remaining) (quote : Char) (rest : List Char) :
    Except ReadFailure (String × Remaining) :=
  match splitQuoted? quote (r.position.right 1) rest with
  | some (content, after) => .ok (String.ofList content, after)
  | none => r.fail .stringUnterminated

/-- A point and the digits after it, none if there is no digit. -/
def splitFraction : List Char → List Nat × List Char
  | '.' :: rest =>
    match Number.spanDigits rest with
    | ([], _) => ([], '.' :: rest)
    | found => found
  | cs => ([], cs)

def splitExponent? : List Char → Option (Int × Nat × List Char)
  | c :: rest =>
    if c = 'e' ∨ c = 'E' then
      let signed := Number.spanSign rest
      let found := Number.spanDigits signed.2
      if found.1.isEmpty then none
      else
        let width := 1 + (rest.length - signed.2.length) + found.1.length
        some (Binary64.signed signed.1 (Number.ofDigits found.1), width, found.2)
    else none
  | [] => none

def readIntegerOf (negative : Bool) (digits : List Nat) : Except ReadFailure Int :=
  match Number.integerOf negative digits with
  | .integer n => .ok n
  | .tooLong count => .error (.fault (.integerTextTooLong count))
  | .malformed => .ok 0

/-- A minus sign and digits at the start: the sign, the digits, their width, and what follows. -/
def splitSigned? (cs : List Char) : Option (Bool × List Nat × Nat × List Char) :=
  match cs with
  | '-' :: rest =>
    let found := Number.spanDigits rest
    if found.1.isEmpty then none else some (true, found.1, found.1.length + 1, found.2)
  | cs =>
    let found := Number.spanDigits cs
    if found.1.isEmpty then none else some (false, found.1, found.1.length, found.2)

/-- A number, if one comes next: an integer unless it has a fraction or an exponent. -/
def readNumber? (r : Remaining) : Option (Except ReadFailure (Value × Remaining)) :=
  (splitSigned? r.chars).map fun (negative, whole, width, rest) =>
    let fraction := splitFraction rest
    let width := width + (if fraction.1.isEmpty then 0 else fraction.1.length + 1)
    match splitExponent? fraction.2 with
    | some (exponent, exponentWidth, after) =>
      .ok (.float (Number.decimalOf negative whole fraction.1 exponent),
        r.jump (width + exponentWidth) after)
    | none =>
      if fraction.1.isEmpty then
        (readIntegerOf negative whole).map fun n => (.int n, r.jump width rest)
      else .ok (.float (Number.decimalOf negative whole fraction.1 0), r.jump width fraction.2)

def readNamedStep (r : Remaining) : Except ReadFailure (Step × Remaining) :=
  match splitName? r.chars with
  | some (name, rest) => .ok (.key name, r.jump name.length rest)
  | none =>
    let found := Number.spanDigits r.chars
    if found.1.isEmpty then r.fail .stepExpected
    else
      (readIntegerOf false found.1).map fun n => (.index n, r.jump found.1.length found.2)

/-- A quoted key or an index in brackets, the opening one read. -/
def readBracketStep (r : Remaining) : Except ReadFailure (Step × Remaining) := do
  let r := r.skipBlanks
  let inside : Step × Remaining ←
    match r.chars with
    | [] => r.fail .indexExpected
    | c :: rest =>
      if isQuote c then do
        let (key, after) ← readString r c rest
        pure (.key key, after)
      else
        match splitSigned? r.chars with
        | none => r.fail .indexExpected
        | some (negative, digits, width, after) => do
          pure (.index (← readIntegerOf negative digits), r.jump width after)
  let after := inside.2.skipBlanks
  match after.take? ']' with
  | some r => return (inside.1, r)
  | none => after.fail .bracketExpected

def readSteps : Nat → Remaining → Except ReadFailure (List Step × Remaining)
  | 0, r => .ok ([], r)
  | fuel + 1, r =>
    match r.chars with
    | '.' :: rest => do
      let (step, r) ← readNamedStep (r.jump 1 rest)
      let (steps, r) ← readSteps fuel r
      return (step :: steps, r)
    | '[' :: rest => do
      let (step, r) ← readBracketStep (r.jump 1 rest)
      let (steps, r) ← readSteps fuel r
      return (step :: steps, r)
    | _ => .ok ([], r)

def keyword? (name : String) : Option Value :=
  match name with
  | "true" => some (.bool true)
  | "false" => some (.bool false)
  | "null" => some .null
  | _ => none

/-- What a name that is not the name of a call stands for. -/
def readPath (start : Position) (name : String) (r : Remaining) :
    Except ReadFailure (Node × Remaining) :=
  match keyword? name, r.chars with
  | some value, [] => .ok (.constant start value, r)
  | some value, c :: _ =>
    if c = '.' ∨ c = '[' then follow else .ok (.constant start value, r)
  | none, _ => follow
where
  follow : Except ReadFailure (Node × Remaining) := do
    let (steps, r) ← readSteps r.chars.length r
    return (.identifier start (.key name :: steps), r)

mutual

def readWithin : Nat → Remaining → Except ReadFailure (Node × Remaining)
  | 0, r => r.fail .expressionExpected
  | fuel + 1, r =>
    let r := r.skipBlanks
    match r.chars with
    | [] => r.fail .expressionExpected
    | c :: rest =>
      if isQuote c then do
        let (content, after) ← readString r c rest
        return (.constant r.position (.string content), after)
      else
        match readNumber? r with
        | some reading => do
          let (value, after) ← reading
          return (.constant r.position value, after)
        | none =>
          match splitName? r.chars with
          | none => r.fail (.expressionUnexpected c)
          | some (name, rest) =>
            let after := r.jump name.length rest
            match after.take? '(' with
            | some inside => do
              let (params, after) ← readArguments fuel inside
              return (.tag r.position name params none none, after)
            | none => readPath r.position name after

/-- The parameters of a call, its opening parenthesis read. -/
def readArguments : Nat → Remaining → Except ReadFailure (List Node × Remaining)
  | 0, r => r.fail .expressionExpected
  | fuel + 1, r =>
    match r.skipBlanks.take? ')' with
    | some r => .ok ([], r)
    | none => readList fuel r.skipBlanks

/-- One parameter or more up to the closing parenthesis. -/
def readList : Nat → Remaining → Except ReadFailure (List Node × Remaining)
  | 0, r => r.fail .expressionExpected
  | fuel + 1, r => do
    let (first, after) ← readWithin fuel r
    let after := after.skipBlanks
    match after.take? ')' with
    | some r => return ([first], r)
    | none =>
      match after.take? ',' with
      | none => after.fail (.listEndExpected after.chars.head?)
      | some r => do
        let (others, r) ← readList fuel r
        return (first :: others, r)

end

theorem readWithin_of_isQuote {r : Remaining} {quote : Char} {rest : List Char}
    (head : r.skipBlanks.chars = quote :: rest) (quoted : isQuote quote = true) (fuel : Nat) :
    readWithin (fuel + 1) r = readString r.skipBlanks quote rest >>= fun found =>
      pure (.constant r.skipBlanks.position (.string found.1), found.2) := by
  rw [readWithin]
  simp only [head, quoted, if_true]

/-- Every character takes at most three calls. -/
def fuelFor (r : Remaining) : Nat := 3 * r.chars.length + 3

def read (r : Remaining) : Except ReadFailure (Node × Remaining) := readWithin (fuelFor r) r

/-- Further parameters of a tag, each after a comma, up to the end. -/
def readToEnd : Nat → Remaining → Except ReadFailure (List Node)
  | 0, _ => .ok []
  | fuel + 1, r =>
    let r := r.skipBlanks
    match r.chars with
    | [] => .ok []
    | c :: _ =>
      match r.take? ',' with
      | none => r.fail (.commaExpected c)
      | some r => do
        let (next, r) ← read r
        return next :: (← readToEnd fuel r)

/-- The parameters after the name of a tag, in parentheses or without. -/
def readParameters (r : Remaining) : Except ReadFailure (List Node) :=
  let r := r.skipBlanks
  match r.take? '(' with
  | some inside => do
    let (params, r) ← readArguments (fuelFor inside) inside
    r.expectEnd
    return params
  | none =>
    if r.chars.isEmpty then .ok []
    else do
      let (first, after) ← read r
      return first :: (← readToEnd r.chars.length after)

end Expression

end Templating
