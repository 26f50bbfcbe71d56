import Templating.Text.CaseTable

/-!
# Upper, lower and title case

The full mappings: the image of one character may be several. The lower case of a capital sigma
depends on its neighbours: it is the final form after a letter that no further letter follows.
-/

namespace Templating.Text

/-- The image of one character under a table of runs and a table of sequences. -/
def mapCase (runs : List CaseRun) (sequences : List (Nat × List Nat)) (c : Char) : List Char :=
  match sequences.lookup c.toNat with
  | some image => image.map Char.ofNat
  | none =>
    match runs.findSome? (·.image? c.toNat) with
    | some code => [Char.ofNat code]
    | none => [c]

def lowerChar (c : Char) : List Char :=
  if c.toNat < 128 then [c.toLower] else mapCase lowerRuns lowerSequences c

def upperChar (c : Char) : List Char :=
  if c.toNat < 128 then [c.toUpper] else mapCase upperRuns upperSequences c

def titleChar (c : Char) : List Char :=
  match titleSequences.lookup c.toNat with
  | some image => image.map Char.ofNat
  | none => upperChar c

def isCaseIgnorable (c : Char) : Bool :=
  caseIgnorableRanges.any fun range => range.1 ≤ c.toNat && c.toNat ≤ range.2

def isCased (c : Char) : Bool :=
  casedRanges.any fun range => range.1 ≤ c.toNat && c.toNat ≤ range.2

/-- Whether a sigma ends its word, the characters before it given nearest first. -/
def endsWord (before after : List Char) : Bool :=
  match before.find? (!isCaseIgnorable ·) with
  | none => false
  | some c =>
    isCased c &&
      match after.find? (!isCaseIgnorable ·) with
      | none => true
      | some d => !isCased d

/-- The lower case of the rest of a text, after the characters `before`, nearest first. -/
def lowerFrom (before : List Char) : List Char → List Char
  | [] => []
  | c :: rest =>
    (if c = 'Σ' then [if endsWord before rest then 'ς' else 'σ'] else lowerChar c) ++
      lowerFrom (c :: before) rest

def lower (text : String) : String :=
  String.ofList (lowerFrom [] text.toList)

def upper (text : String) : String :=
  String.ofList (text.toList.flatMap upperChar)

def capitalize (text : String) : String :=
  match text.toList with
  | [] => ""
  | c :: rest => String.ofList (titleChar c ++ lowerFrom [c] rest)

end Templating.Text
