/-!
# UTF-8

A sequence of bytes is read as a sequence of items, each a character or a defect. A defect covers
the longest run of bytes that begins a character; the byte that breaks it off is read anew. Strict
decoding refuses at the first defect, lossy decoding puts a replacement character for each.
-/

namespace Templating.Text.Utf8

inductive Defect
  | badStart
  | badContinuation
  | truncated
deriving DecidableEq, Repr

def Defect.reason : Defect → String
  | .badStart => "invalid start byte"
  | .badContinuation => "invalid continuation byte"
  | .truncated => "unexpected end of data"

/-- A character that has begun: the bits read, the bytes still missing, the range of the next
byte. -/
structure Pending where
  code : Nat
  missing : Nat
  low : Nat
  high : Nat
deriving DecidableEq, Repr

inductive Start
  | char (c : Char)
  | more (pending : Pending)
  | bad
deriving DecidableEq, Repr

/-- What a byte that begins a character announces. The ranges rule out overlong forms, surrogates
and codes past the last one. -/
def start (b : UInt8) : Start :=
  let n := b.toNat
  if n < 0x80 then .char (Char.ofNat n)
  else if n < 0xC2 then .bad
  else if n < 0xE0 then .more ⟨n - 0xC0, 1, 0x80, 0xBF⟩
  else if n = 0xE0 then .more ⟨0, 2, 0xA0, 0xBF⟩
  else if n = 0xED then .more ⟨0xD, 2, 0x80, 0x9F⟩
  else if n < 0xF0 then .more ⟨n - 0xE0, 2, 0x80, 0xBF⟩
  else if n = 0xF0 then .more ⟨0, 3, 0x90, 0xBF⟩
  else if n < 0xF4 then .more ⟨n - 0xF0, 3, 0x80, 0xBF⟩
  else if n = 0xF4 then .more ⟨4, 3, 0x80, 0x8F⟩
  else .bad

def Pending.accepts (p : Pending) (b : UInt8) : Bool :=
  p.low ≤ b.toNat && b.toNat ≤ p.high

def Pending.push (p : Pending) (b : UInt8) : Start :=
  let code := p.code * 64 + b.toNat % 64
  if p.missing ≤ 1 then .char (Char.ofNat code) else .more ⟨code, p.missing - 1, 0x80, 0xBF⟩

/-- The items that follow one step of reading. -/
def itemsAfter : Start → List UInt8 → List (Except Defect Char)
  | .char c, [] => [.ok c]
  | .char c, b :: rest => .ok c :: itemsAfter (start b) rest
  | .bad, [] => [.error .badStart]
  | .bad, b :: rest => .error .badStart :: itemsAfter (start b) rest
  | .more _, [] => [.error .truncated]
  | .more p, b :: rest =>
    if p.accepts b then itemsAfter (p.push b) rest
    else .error .badContinuation :: itemsAfter (start b) rest

def items : List UInt8 → List (Except Defect Char)
  | [] => []
  | b :: rest => itemsAfter (start b) rest

/-- The characters before the first defect, or that defect. -/
def collect : List (Except Defect Char) → Except Defect (List Char)
  | [] => .ok []
  | .ok c :: rest => (collect rest).map (c :: ·)
  | .error defect :: _ => .error defect

def decode (bytes : List UInt8) : Except Defect (List Char) :=
  collect (items bytes)

def replacement : Char := '\uFFFD'

def decodeLossy (bytes : List UInt8) : List Char :=
  (items bytes).map fun
    | .ok c => c
    | .error _ => replacement

def encode (text : String) : List UInt8 :=
  text.toList.flatMap String.utf8EncodeChar

end Templating.Text.Utf8
