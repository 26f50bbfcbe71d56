import Templating.Template.Expression
import Templating.Text.Search

/-!
# Constructs of a template

The source of a template is a sequence of constructs: text, and what stands between two delimiters.
The end of a construct is the first closing delimiter outside quotes, so that a string may hold
one. A comment leaves nothing behind, and a raw block is one construct with all that it holds.
-/

namespace Templating

inductive Construct
  | text (position : Position) (content : String)
  /-- A tag that is complete by itself; an output is one of the tag `get`. -/
  | inline (position : Position) (name : String) (params : List Node)
  | opening (position : Position) (name : String) (params : List Node)
  | otherwise (position : Position)
  | closing (position : Position) (name : String)
  /-- A block whose body is not read; no body stands for an empty one. -/
  | rawBlock (position : Position) (params : List Node) (body : Option (Position × String))

namespace Construct

def brace : UInt8 := 123

def percent : UInt8 := 37

def delimiterOf? (b : UInt8) : Option Delimiter :=
  if b = brace then some .output
  else if b = percent then some .statement
  else if b = 35 then some .comment
  else none

/-- The delimiter that the bytes begin with, and what follows it. -/
def splitOpener? : List UInt8 → Option (Delimiter × List UInt8)
  | b :: mark :: rest =>
    if b = brace then (delimiterOf? mark).map fun delimiter => (delimiter, rest) else none
  | _ => none

/-- The bytes before the first delimiter, and what begins with it. -/
def spanText : List UInt8 → List UInt8 × List UInt8
  | [] => ([], [])
  | b :: rest =>
    if (splitOpener? (b :: rest)).isSome then ([], b :: rest)
    else let found := spanText rest; (b :: found.1, found.2)

section

variable {b : UInt8} {rest : List UInt8}

theorem spanText_of_isSome (opens : (splitOpener? (b :: rest)).isSome = true) :
    spanText (b :: rest) = ([], b :: rest) :=
  if_pos opens

theorem spanText_of_not_isSome (closed : ¬ (splitOpener? (b :: rest)).isSome = true) :
    spanText (b :: rest) = (b :: (spanText rest).1, (spanText rest).2) :=
  if_neg closed

end

/-- The content before the first `closer` outside quotes, and what follows the closer. In quotes a
backslash takes the next byte along. -/
def splitUnquoted? (closer : List UInt8) :
    Option UInt8 → List UInt8 → Option (List UInt8 × List UInt8)
  | _, [] => none
  | some _, 92 :: [] => none
  | some quote, 92 :: b :: rest =>
    (splitUnquoted? closer (some quote) rest).map fun found => (92 :: b :: found.1, found.2)
  | some quote, b :: rest =>
    (splitUnquoted? closer (if b = quote then none else some quote) rest).map fun found =>
      (b :: found.1, found.2)
  | none, b :: rest =>
    if b = 34 ∨ b = 39 then
      (splitUnquoted? closer (some b) rest).map fun found => (b :: found.1, found.2)
    else
      match closer.isPrefixOf? (b :: rest) with
      | some after => some ([], after)
      | none =>
        (splitUnquoted? closer none rest).map fun found => (b :: found.1, found.2)

/-- A byte that is no quote and begins no closer is passed over. -/
theorem splitUnquoted?_of_plain {closer : List UInt8} {b : UInt8} {rest : List UInt8}
    (plain : ¬ (b = 34 ∨ b = 39)) (stays : closer.isPrefixOf? (b :: rest) = none) :
    splitUnquoted? closer none (b :: rest) =
      (splitUnquoted? closer none rest).map fun found => (b :: found.1, found.2) := by
  rw [splitUnquoted?, if_neg plain, stays]

/-- The content before the first `closer` anywhere, and what follows the closer. -/
def splitAnywhere? (closer data : List UInt8) : Option (List UInt8 × List UInt8) :=
  (Text.splitAtFirst? closer data).map fun found => (found.1, found.2.drop closer.length)

/-- The content of a construct, and what follows it. If a quote stays open the first closer ends
the construct, and the quote is reported when the content is read. -/
def splitContent? (delimiter : Delimiter) (data : List UInt8) : Option (List UInt8 × List UInt8) :=
  let closer := Text.Utf8.encode delimiter.closer
  match delimiter with
  | .comment => splitAnywhere? closer data
  | _ => (splitUnquoted? closer none data).or (splitAnywhere? closer data)

/-- White space inside the closing tag of a raw block. -/
def isSpace (b : UInt8) : Bool := b == 32 || (9 ≤ b && b ≤ 13)

/-- The closing tag of a raw block at the start, and what follows it. -/
def splitRawClose? (data : List UInt8) : Option (List UInt8 × List UInt8) := do
  let slash := Text.Utf8.encode "/raw"
  let (opener, closer) := ([brace, percent], [percent, 125])
  let inside ← opener.isPrefixOf? data
  let named ← slash.isPrefixOf? (inside.dropWhile isSpace)
  let after ← closer.isPrefixOf? (named.dropWhile isSpace)
  return (opener ++ inside.takeWhile isSpace ++ slash ++ named.takeWhile isSpace ++ closer, after)

/-- The body of a raw block, its closing tag, and what follows. -/
def splitRawBody? : List UInt8 → Option (List UInt8 × List UInt8 × List UInt8)
  | [] => none
  | b :: rest =>
    match splitRawClose? (b :: rest) with
    | some (tag, after) => some ([], tag, after)
    | none => (splitRawBody? rest).map fun found => (b :: found.1, found.2)

def decodeAt (p : Position) (bytes : List UInt8) : Except ReadFailure (List Char) :=
  match Text.Utf8.decode bytes with
  | .ok chars => .ok chars
  | .error defect => .error (.malformed (.notUtf8 defect) p)

def readStatement (p : Position) (r : Remaining) : Except ReadFailure Construct :=
  let r := r.skipBlanks
  match r.take? '/' with
  | some r => do
    let (name, r) ← Expression.readName r
    r.expectEnd
    return .closing p name
  | none =>
    match r.take? '#' with
    | some r => do
      let (name, r) ← Expression.readName r
      return .opening p name (← Expression.readParameters r)
    | none => do
      let (name, r) ← Expression.readName r
      if name = "else" then
        r.expectEnd
        return .otherwise p
      else return .inline p name (← Expression.readParameters r)

def readOutput (p : Position) (r : Remaining) : Except ReadFailure Construct := do
  let (expression, r) ← Expression.read r
  r.expectEnd
  return .inline p "get" [expression]

/-- What one step of reading finds: a construct unless it is a comment, and what is left. -/
structure Found where
  construct : Option Construct
  position : Position
  rest : List UInt8

/-- The rest of a raw block whose opening tag stands at `p` and ends at `q`. -/
def readRawBlock (p q : Position) (params : List Node) (data : List UInt8) :
    Except ReadFailure Found :=
  match splitRawBody? data with
  | none => .error (.malformed (.unclosedBlock "raw") p)
  | some (body, tag, rest) => do
    let chars ← decodeAt q body
    let content := if body.isEmpty then none else some (q, String.ofList chars)
    return ⟨some (.rawBlock p params content), (q.afterBytes body).afterBytes tag, rest⟩

/-- A construct whose opening delimiter stands at `p`; `data` follows it. -/
def readDelimited (p : Position) (delimiter : Delimiter) (data : List UInt8) :
    Except ReadFailure Found :=
  match splitContent? delimiter data with
  | none => .error (.malformed (.unclosed delimiter) p)
  | some (content, rest) => do
    let inside := p.right 2
    let after := (inside.afterBytes content).right 2
    match delimiter with
    | .comment => return ⟨none, after, rest⟩
    | .output =>
      let construct ← readOutput p ⟨← decodeAt inside content, inside⟩
      return ⟨some construct, after, rest⟩
    | .statement =>
      match ← readStatement p ⟨← decodeAt inside content, inside⟩ with
      | .opening _ "raw" params => readRawBlock p after params rest
      | construct => return ⟨some construct, after, rest⟩

def readNext (p : Position) (data : List UInt8) : Except ReadFailure Found :=
  match splitOpener? data with
  | some (delimiter, rest) => readDelimited p delimiter rest
  | none => do
    let found := spanText data
    let chars ← decodeAt p found.1
    return ⟨some (.text p (String.ofList chars)), p.afterBytes found.1, found.2⟩

/-- The constructs of a source, as far as they can be read, and what stopped the reading if anything
did. -/
structure Survey where
  constructs : List Construct
  failure : Option ReadFailure

def surveyFrom : Nat → Position → List UInt8 → Survey
  | _, _, [] => ⟨[], none⟩
  | 0, _, _ :: _ => ⟨[], none⟩
  | fuel + 1, p, b :: rest =>
    match readNext p (b :: rest) with
    | .error failure => ⟨[], some failure⟩
    | .ok found =>
      let more := surveyFrom fuel found.position found.rest
      ⟨found.construct.toList ++ more.constructs, more.failure⟩

def survey (data : List UInt8) : Survey := surveyFrom data.length .start data

end Construct

end Templating
