import Templating.Text.Printable

/-!
# Quoted text

A text between quotes, in the two forms the library writes. `literal` prefers single quotes and
turns to double ones when only that avoids an escape; it escapes whatever is not printable. `json`
is the form of JSON strings: double quotes, and escapes for quotes, backslashes and control
characters only.
-/

namespace Templating.Text

def hexDigit (n : Nat) : Char :=
  if n < 10 then Char.ofNat (48 + n) else Char.ofNat (87 + n)

def hexText : Nat → Nat → List Char
  | 0, _ => []
  | width + 1, n => hexText width (n / 16) ++ [hexDigit (n % 16)]

def literalChar (quote c : Char) : List Char :=
  if c = quote ∨ c = '\\' then ['\\', c]
  else if c = '\n' then ['\\', 'n']
  else if c = '\r' then ['\\', 'r']
  else if c = '\t' then ['\\', 't']
  else if isPrintable c then [c]
  else if c.toNat < 0x100 then ['\\', 'x'] ++ hexText 2 c.toNat
  else if c.toNat < 0x10000 then ['\\', 'u'] ++ hexText 4 c.toNat
  else ['\\', 'U'] ++ hexText 8 c.toNat

def literalQuote (cs : List Char) : Char :=
  if cs.contains '\'' && !cs.contains '"' then '"' else '\''

def literal (text : String) : String :=
  let cs := text.toList
  let quote := literalQuote cs
  String.ofList ([quote] ++ cs.flatMap (literalChar quote) ++ [quote])

/-- One byte of a literal of bytes: printable ASCII stands for itself. -/
def literalByte (quote : Char) (b : UInt8) : List Char :=
  let c := Char.ofNat b.toNat
  if b.toNat < 127 then literalChar quote c else ['\\', 'x'] ++ hexText 2 b.toNat

/-- The literal of a sequence of bytes, told from that of a text by the letter before it. -/
def literalBytes (bytes : List UInt8) : String :=
  let quote := literalQuote (bytes.map fun b => Char.ofNat b.toNat)
  String.ofList (['b', quote] ++ bytes.flatMap (literalByte quote) ++ [quote])

def jsonChar (c : Char) : List Char :=
  if c = '"' ∨ c = '\\' then ['\\', c]
  else if c = '\n' then ['\\', 'n']
  else if c = '\r' then ['\\', 'r']
  else if c = '\t' then ['\\', 't']
  else if c = '\x0c' then ['\\', 'f']
  else if c = '\x08' then ['\\', 'b']
  else if c.toNat < 32 then ['\\', 'u'] ++ hexText 4 c.toNat
  else [c]

def json (text : String) : String :=
  String.ofList (['"'] ++ text.toList.flatMap jsonChar ++ ['"'])

end Templating.Text
