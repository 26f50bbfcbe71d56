import Mathlib.Data.List.Basic
import Templating.Proofs.Printing.Spacing
import Templating.Proofs.Template.Comments

/-!
# How closing tags are spelled

Between its delimiters a closing tag has white space in front of the slash, behind it, and behind
the name.  A block of any name is ended by every spelling, for the tag is read as an expression is.
The end of a raw block is looked for among bytes, and there the slash is followed by the name at
once and the white space is that of ASCII.
-/

namespace Templating

namespace Construct

/-! ## White space among bytes -/

theorem isSpace_utf8EncodeChar_iff {c : Char} :
    (∀ b ∈ String.utf8EncodeChar c, isSpace b = true) ↔
      c = ' ' ∨ 9 ≤ c.toNat ∧ c.toNat ≤ 13 := by
  by_cases small : c.toNat < 128
  · have byte : (UInt8.ofNat c.toNat).toNat = c.toNat :=
      Text.Utf8.toNat_ofNat_of_lt (Nat.lt_trans small (by decide))
    have blank : UInt8.ofNat c.toNat = 32 ↔ c = ' ' := by
      rw [← UInt8.toNat_inj, byte, ← Char.toNat_inj]
      rfl
    rw [Text.Utf8.utf8EncodeChar_of_lt small, List.forall_mem_singleton, isSpace_iff, byte, blank]
  · obtain ⟨b, bytes, form⟩ := List.exists_cons_of_ne_nil (String.utf8EncodeChar_ne_nil (c := c))
    have large := Text.Utf8.le_of_mem_utf8EncodeChar (Nat.le_of_not_lt small)
      (form ▸ List.mem_cons_self : b ∈ String.utf8EncodeChar c)
    constructor
    · intro space
      rcases isSpace_iff.1 (space b (form ▸ List.mem_cons_self)) with rfl | range
      · exact absurd large (by decide)
      · omega
    · rintro (rfl | range)
      · exact absurd (by decide) small
      · omega

theorem isSpace_encodeChars_iff {cs : List Char} :
    (∀ b ∈ encodeChars cs, isSpace b = true) ↔
      ∀ c ∈ cs, c = ' ' ∨ 9 ≤ c.toNat ∧ c.toNat ≤ 13 := by
  simp only [encodeChars, List.forall_mem_flatMap, isSpace_utf8EncodeChar_iff]

namespace Spacing

variable (s : Spacing)

/-- The white space that is known among bytes: none behind the slash, and elsewhere blanks and the
controls from the tab to the carriage return. -/
def Narrow : Prop :=
  s.inner = [] ∧ ∀ c ∈ s.front ++ s.back, c = ' ' ∨ 9 ≤ c.toNat ∧ c.toNat ≤ 13

theorem closingTag_raw : s.closingTag "raw" = [brace, percent] ++ (encodeChars s.front ++ 47 ::
    (encodeChars s.inner ++ ([114, 97, 119] ++ encodeChars s.back))) ++ [percent, 125] := by
  have slash : String.utf8EncodeChar '/' = [47] := by decide
  have name : encodeChars ['r', 'a', 'w'] = [114, 97, 119] := by decide
  rw [closingTag, content, encodeChars_append, encodeChars_cons, slash, encodeChars_append,
    encodeChars_append]
  rfl

theorem isRawClose_iff : IsRawClose (s.closingTag "raw") ↔ s.Narrow := by
  have slash : Text.Utf8.encode "/raw" = 47 :: [114, 97, 119] := by decide
  constructor
  · rintro ⟨before, after, space, space', same⟩
    have notSpace {bytes : List UInt8} (space : ∀ b ∈ bytes, isSpace b = true) : 47 ∉ bytes :=
      fun member => by cases space _ member
    have inside : before ++ 47 :: ([114, 97, 119] ++ after) = encodeChars s.front ++ 47 ::
        (encodeChars s.inner ++ ([114, 97, 119] ++ encodeChars s.back)) := by
      rw [closingTag_raw, slash] at same
      apply List.append_cancel_left
      apply List.append_cancel_right
      show [brace, percent] ++ _ ++ [percent, 125] = [brace, percent] ++ _ ++ [percent, 125]
      simpa using same.symm
    obtain ⟨rfl, -, tail⟩ := (List.append_cons_inj_of_notMem (notSpace space)
      (by simp [notSpace space'])).1 inside
    have inner : s.inner = [] := by
      cases own : s.inner with
      | nil => rfl
      | cons c cs =>
          obtain ⟨b, bytes, form⟩ :=
            List.exists_cons_of_ne_nil (String.utf8EncodeChar_ne_nil (c := c))
          rw [own, encodeChars_cons, form] at tail
          obtain ⟨rfl, -⟩ := List.cons.inj tail
          have letter := eq_of_head_utf8EncodeChar (d := 'r') (by decide) form
          exact absurd letter (ne_of_isBlank (s.blank_inner c (by simp [own])) (by decide))
    rw [inner] at tail
    obtain rfl : after = encodeChars s.back := List.append_cancel_left tail
    refine ⟨inner, List.forall_mem_append.2 ⟨?_, ?_⟩⟩
    · exact isSpace_encodeChars_iff.1 space
    · exact isSpace_encodeChars_iff.1 space'
  · rintro ⟨inner, narrow⟩
    obtain ⟨front, back⟩ := List.forall_mem_append.1 narrow
    refine ⟨encodeChars s.front, encodeChars s.back, isSpace_encodeChars_iff.2 front,
      isSpace_encodeChars_iff.2 back, ?_⟩
    rw [closingTag_raw, inner, slash]
    simp [encodeChars]

end Spacing

/-! ## Blocks and raw blocks -/

/-- The bytes end the innermost open block wherever it has that name. -/
def Closes (name : String) (tag : List UInt8) : Prop :=
  ∀ (data rest : List UInt8) (p : Position) (constructs : List Construct) (growth : Growth)
    (block : OpenBlock) (outer : List OpenBlock),
    Reads .start data constructs p (tag ++ rest) → Growth.empty.run constructs = .ok growth →
    growth.blocks = block :: outer → block.name = name →
    Reads .start data (constructs ++ [.closing p name]) (p.afterBytes tag) rest ∧
      Growth.empty.run (constructs ++ [.closing p name]) =
        .ok ({ growth with blocks := outer }.push block.close)

theorem Spacing.closes (s : Spacing) {name : String} (isName : IsName name) :
    Closes name (s.closingTag name) := by
  intro data rest p constructs growth block outer reads grown blocks named
  refine ⟨reads.trans (.single (s.piece isName p rest)), ?_⟩
  rw [Growth.run_append, grown]
  simp [Except.bind, Growth.run, Growth.step, Growth.close, blocks, named, bind]

/-- The opening tag of a raw block at `p` has that content, and `data` follows it. -/
structure OpensRaw (p : Position) (content : List UInt8) (params : List Node)
    (data : List UInt8) : Prop where
  split : splitContent? .statement (content ++ Delimiter.statement.closingBytes ++ data) =
    some (content, data)
  opening : ∃ chars, Text.Utf8.decode content = .ok chars ∧
    Statement p ⟨chars, p.right 2⟩ (.opening p "raw" params)

def delimited (content : List UInt8) : List UInt8 :=
  Delimiter.statement.openingBytes ++ content ++ Delimiter.statement.closingBytes

theorem OpensRaw.readNext_eq {p : Position} {content data : List UInt8} {params : List Node}
    (h : OpensRaw p content params data) :
    readNext p (delimited content ++ data) =
      readRawBlock p (p.afterBytes (delimited content)) params data := by
  obtain ⟨split, chars, decoded, statement⟩ := h
  have opener : splitOpener? (delimited content ++ data) =
      some (.statement, content ++ Delimiter.statement.closingBytes ++ data) :=
    splitOpener?_eq_some_iff.2 (by simp [delimited])
  rw [readNext, opener]
  simp only [readDelimited, split, decodeAt_eq_ok_iff.2 decoded, bind, Except.bind,
    readStatement_eq_ok_iff.2 statement]
  rw [delimited, afterBytes_delimited]

/-- What a raw block leaves behind of its body, which stands at `q`. -/
def rawContent (q : Position) (body : List UInt8) (text : List Char) : Option (Position × String) :=
  if body.isEmpty then none else some (q, String.ofList text)

theorem rawContent_inj {q : Position} {body body' : List UInt8} {text text' : List Char}
    (decoded : Text.Utf8.decode body = .ok text) (decoded' : Text.Utf8.decode body' = .ok text')
    (h : rawContent q body text = rawContent q body' text') : body = body' := by
  cases body with
  | nil =>
      cases body' with
      | nil => rfl
      | cons => cases h
  | cons b body =>
      cases body' with
      | nil => cases h
      | cons =>
          have same : text = text' := String.ofList_inj.1 (by simpa [rawContent] using h)
          rw [← Text.Utf8.flatMap_of_decode decoded, ← Text.Utf8.flatMap_of_decode decoded', same]

namespace Spacing

variable (s : Spacing) {p : Position} {content body rest : List UInt8} {params : List Node}
  {text : List Char}

theorem splitRawBody?_iff (closed : NoRawClose body) :
    splitRawBody? (body ++ s.closingTag "raw" ++ rest) = some (body, s.closingTag "raw", rest) ↔
      s.Narrow := by
  rw [← s.isRawClose_iff]
  constructor
  · intro split
    exact (isRawClose_of_splitRawBody? split).1
  · intro closes
    exact splitRawBody?_append closed closes rest

theorem closes_raw_iff (opens : OpensRaw p content params (body ++ s.closingTag "raw" ++ rest))
    (closed : NoRawClose body) (decoded : Text.Utf8.decode body = .ok text) :
    readNext p (delimited content ++ (body ++ s.closingTag "raw" ++ rest)) =
        .ok ⟨some (.rawBlock p params (rawContent (p.afterBytes (delimited content)) body text)),
          p.afterBytes (delimited content ++ body ++ s.closingTag "raw"), rest⟩ ↔
      s.Narrow := by
  have cut : splitRawBody? (body ++ s.closingTag "raw" ++ rest) =
      some (body, s.closingTag "raw", rest) ↔ s.Narrow := s.splitRawBody?_iff closed
  rw [opens.readNext_eq, ← cut]
  constructor
  · intro read
    obtain ⟨body', tag, text', whole, -, split, decoded', same⟩ := piece_of_readRawBlock read
    obtain rfl : body = body' := by
      apply rawContent_inj (q := p.afterBytes (delimited content)) decoded decoded'
      simpa [rawContent] using same
    have ends : tag = s.closingTag "raw" :=
      (List.append_cancel_left (List.append_cancel_right whole)).symm
    rwa [ends] at split
  · intro split
    rw [readRawBlock, split]
    simp only [decodeAt_eq_ok_iff.2 decoded, bind, Except.bind, rawContent,
      Position.afterBytes_append]
    rfl

end Spacing

/-- A closing tag ends a block of its name however it is spelled, and a raw block only if it is
spelled narrowly. -/
theorem closing_spellings (s : Spacing) {name : String} (isName : IsName name) {p : Position}
    {content body rest : List UInt8} {params : List Node}
    (opens : OpensRaw p content params (body ++ s.closingTag "raw" ++ rest))
    (closed : NoRawClose body) :
    Closes name (s.closingTag name) ∧
      (splitRawBody? (body ++ s.closingTag "raw" ++ rest) =
          some (body, s.closingTag "raw", rest) ↔ s.Narrow) ∧
      ∀ text, Text.Utf8.decode body = .ok text →
        (readNext p (delimited content ++ (body ++ s.closingTag "raw" ++ rest)) =
            .ok ⟨some (.rawBlock p params
                (rawContent (p.afterBytes (delimited content)) body text)),
              p.afterBytes (delimited content ++ body ++ s.closingTag "raw"), rest⟩ ↔
          s.Narrow) := by
  refine ⟨s.closes isName, s.splitRawBody?_iff closed, ?_⟩
  intro text decoded
  exact s.closes_raw_iff opens closed decoded

def Spacing.loose : Spacing := ⟨[' '], [' '], [' '], by simp [Text.isBlank]⟩

theorem closing_spellings_loose :
    Closes "if" (Spacing.loose.closingTag "if") ∧
      readNext .start (Text.Utf8.encode "\x7b% #raw %\x7dx\x7b% / raw %\x7d") ≠
        .ok ⟨some (.rawBlock .start [] (some (⟨1, 10⟩, "x"))), ⟨1, 22⟩, []⟩ := by
  have isName : IsName "if" := ⟨'i', ['f'], by decide, by decide, by decide⟩
  have opens : OpensRaw .start [32, 35, 114, 97, 119, 32] []
      ([120] ++ Spacing.loose.closingTag "raw" ++ []) :=
    ⟨by decide, [' ', '#', 'r', 'a', 'w', ' '], by decide, readStatement_eq_ok_iff.1 rfl⟩
  have closed : NoRawClose [120] := noRawClose_of_splitRawBody? (by decide)
  obtain ⟨closes, -, narrow⟩ := closing_spellings Spacing.loose isName opens closed
  refine ⟨closes, fun read => ?_⟩
  cases ((narrow ['x'] (by decide)).1 read).1

theorem closing_spelling_of_raw :
    (∃ tree, Template.parse "template" (Text.Utf8.encode
      "\x7b% #if %\x7dx\x7b% / if %\x7d") = .ok tree) ∧
    ∃ e, Template.parse "template" (Text.Utf8.encode
      "\x7b% #raw %\x7dx\x7b% / raw %\x7d") = .error (.malformed e) ∧
      e.problem = .unclosedBlock "raw" :=
  ⟨⟨_, rfl⟩, _, rfl, rfl⟩

end Construct

end Templating
