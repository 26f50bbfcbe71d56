import Templating.Proofs.Template.Stability
import Templating.Template.Tree

/-!
# String literals and the end of a tag

The end of a tag is sought before the tag is read, by a search through its bytes that knows of
quotes and backslashes only.  What the reader then takes for string literals are the same
stretches: the search never ends a tag inside of a literal, and never passes over a closing
delimiter outside of them.
-/

namespace Templating

namespace Expression

open Remaining

/-! ## Literals -/

/-- A string in a source, and what stands behind it. -/
structure Literal where
  quote : Char
  inside : List Char
  behind : List Char
  quoted : isQuote quote = true
  inString : InString quote inside

namespace Literal

/-- What stands in the source from the opening quote on. -/
def chars (l : Literal) : List Char := l.quote :: (l.inside ++ l.quote :: l.behind)

/-- Read as a string, what stands at `r` is the literal, and `after` follows its closing quote. -/
def StandsAt (l : Literal) (r : Remaining) (content : String) (after : Remaining) : Prop :=
  r.chars = l.chars ∧ after.chars = l.behind ∧
    readString r l.quote (l.inside ++ l.quote :: l.behind) = .ok (content, after)

theorem exists_standsAt {r after : Remaining} {quote : Char} {rest : List Char} {content : String}
    (hchars : r.chars = quote :: rest) (quoted : isQuote quote = true)
    (h : readString r quote rest = .ok (content, after)) :
    ∃ l : Literal, l.StandsAt r content after := by
  have line : quote ≠ '\n' := by
    rintro rfl
    exact absurd quoted (by decide)
  have read := h
  unfold readString at read
  split at read
  · next inner left split =>
    cases read
    obtain ⟨inside, hrest, -, inString⟩ := exists_of_splitQuoted? line split
    rw [hrest] at hchars h
    exact ⟨⟨quote, inside, after.chars, quoted, inString⟩, hchars, rfl, h⟩
  · cases read

end Literal

/-- Up to `rest` the characters are these literals, one after the other, and no quote besides. -/
inductive Spans (rest : List Char) : List Char → List Literal → Prop
  | refl : Spans rest rest []
  | plain {c : Char} {cs : List Char} {literals : List Literal} :
      isQuote c = false → Spans rest cs literals → Spans rest (c :: cs) literals
  | literal (l : Literal) {literals : List Literal} :
      Spans rest l.behind literals → Spans rest l.chars (l :: literals)

namespace Spans

variable {rest mid cs : List Char} {literals others : List Literal}

theorem trans (first : Spans mid cs literals) (second : Spans rest mid others) :
    Spans rest cs (literals ++ others) := by
  induction first with
  | refl => exact second
  | plain plain _ ih => exact .plain plain ih
  | literal l _ ih => exact .literal l ih

theorem balanced (h : Spans rest cs literals) (others : Balanced rest) : Balanced cs := by
  induction h with
  | refl => exact others
  | plain plain _ ih => exact .plain plain ih
  | literal l _ ih => exact .string l.quoted l.inString ih

/-- Each literal stands in front of the end. -/
theorem suffix (h : Spans rest cs literals) {l : Literal} (member : l ∈ literals) :
    l.chars <:+ cs := by
  induction h with
  | refl => cases member
  | plain _ _ ih => exact (ih member).trans (List.suffix_cons _ _)
  | literal first _ ih =>
      rcases List.mem_cons.1 member with rfl | later
      · exact List.suffix_refl _
      · refine (ih later).trans ⟨first.quote :: (first.inside ++ [first.quote]), ?_⟩
        simp [Literal.chars]

end Spans

end Expression

namespace Remaining

open Expression (Spans Literal)

theorem Skips.spans {r after : Remaining} (h : r.Skips after) : Spans after.chars r.chars [] := by
  obtain ⟨passed, hchars, -, plain⟩ := h
  rw [hchars]
  clear hchars
  induction passed with
  | nil => exact .refl
  | cons c passed ih =>
      exact .plain (plain c List.mem_cons_self)
        (ih fun d member => plain d (List.mem_cons_of_mem c member))

theorem AtEnd.spans {r : Remaining} (h : r.AtEnd) : Spans [] r.chars [] := by
  have skipped := (skips_skipBlanks r).spans
  rwa [show r.skipBlanks.chars = [] from h] at skipped

end Remaining

namespace Expression

open Remaining

theorem Literal.StandsAt.spans {l : Literal} {r after : Remaining} {content : String}
    (h : l.StandsAt r content after) : Spans after.chars r.chars [l] := by
  obtain ⟨hchars, behind, -⟩ := h
  rw [hchars, behind]
  exact .literal l .refl

/-! ## The literals that a reader recognises -/

/-- The steps of a path lead from the first place to the second, keys in quotes on the way. -/
inductive StepLiterals : Remaining → List Literal → Remaining → Prop
  | nil (r : Remaining) : StepLiterals r [] r
  | named {r next after : Remaining} {rest : List Char} {step : Step} {literals : List Literal} :
      r.chars = '.' :: rest → readNamedStep (r.jump 1 rest) = .ok (step, next) →
      StepLiterals next literals after → StepLiterals r literals after
  | index {r next after : Remaining} {rest : List Char} {n : Int} {literals : List Literal} :
      r.chars = '[' :: rest → readBracketStep (r.jump 1 rest) = .ok (.index n, next) →
      StepLiterals next literals after → StepLiterals r literals after
  | key {r closing next after : Remaining} {rest : List Char} {l : Literal} {key : String}
      {literals : List Literal} :
      r.chars = '[' :: rest → l.StandsAt (r.jump 1 rest).skipBlanks key closing →
      closing.skipBlanks.take? ']' = some next →
      StepLiterals next literals after → StepLiterals r (l :: literals) after

/-- `Reads`, with the literals read. -/
inductive PhraseLiterals : Remaining → Phrase → List Literal → Remaining → Prop
  | string {r after : Remaining} {l : Literal} {content : String} :
      l.StandsAt r.skipBlanks content after →
      PhraseLiterals r (.expression (.constant r.skipBlanks.position (.string content))) [l] after
  | number {r after : Remaining} {value : Value} :
      readNumber? r.skipBlanks = some (.ok (value, after)) →
      PhraseLiterals r (.expression (.constant r.skipBlanks.position value)) [] after
  | path {r after : Remaining} {name : String} {rest : List Char} {node : Node}
      {literals : List Literal} :
      splitName? r.skipBlanks.chars = some (name, rest) →
      (r.skipBlanks.jump name.length rest).take? '(' = none →
      readPath r.skipBlanks.position name (r.skipBlanks.jump name.length rest) =
        .ok (node, after) →
      StepLiterals (r.skipBlanks.jump name.length rest) literals after →
      PhraseLiterals r (.expression node) literals after
  | call {r inside after : Remaining} {name : String} {rest : List Char} {params : List Node}
      {literals : List Literal} :
      splitName? r.skipBlanks.chars = some (name, rest) →
      (r.skipBlanks.jump name.length rest).take? '(' = some inside →
      PhraseLiterals inside (.arguments params) literals after →
      PhraseLiterals r (.expression (.tag r.skipBlanks.position name params none none)) literals
        after
  | noArguments {r after : Remaining} :
      r.skipBlanks.take? ')' = some after → PhraseLiterals r (.arguments []) [] after
  | someArguments {r after : Remaining} {params : List Node} {literals : List Literal} :
      r.skipBlanks.take? ')' = none → PhraseLiterals r.skipBlanks (.list params) literals after →
      PhraseLiterals r (.arguments params) literals after
  | last {r mid after : Remaining} {node : Node} {literals : List Literal} :
      PhraseLiterals r (.expression node) literals mid → mid.skipBlanks.take? ')' = some after →
      PhraseLiterals r (.list [node]) literals after
  | more {r mid next after : Remaining} {node : Node} {params : List Node}
      {first others : List Literal} :
      PhraseLiterals r (.expression node) first mid → mid.skipBlanks.take? ')' = none →
      mid.skipBlanks.take? ',' = some next → PhraseLiterals next (.list params) others after →
      PhraseLiterals r (.list (node :: params)) (first ++ others) after

/-- `ReadsToEnd`, with the literals read. -/
inductive LiteralsToEnd : Remaining → List Node → List Literal → Prop
  | nil {r : Remaining} : r.AtEnd → LiteralsToEnd r [] []
  | cons {r next after : Remaining} {node : Node} {params : List Node}
      {first others : List Literal} :
      r.skipBlanks.take? ',' = some next → PhraseLiterals next (.expression node) first after →
      LiteralsToEnd after params others → LiteralsToEnd r (node :: params) (first ++ others)

/-- `Parameters`, with the literals read. -/
inductive ParameterLiterals : Remaining → List Node → List Literal → Prop
  | none {r : Remaining} : r.AtEnd → ParameterLiterals r [] []
  | inParentheses {r inside after : Remaining} {params : List Node} {literals : List Literal} :
      r.skipBlanks.take? '(' = some inside →
      PhraseLiterals inside (.arguments params) literals after → after.AtEnd →
      ParameterLiterals r params literals
  | listed {r after : Remaining} {node : Node} {params : List Node} {first others : List Literal} :
      r.skipBlanks.take? '(' = none → PhraseLiterals r.skipBlanks (.expression node) first after →
      LiteralsToEnd after params others → ParameterLiterals r (node :: params) (first ++ others)

/-! ## Literals and nothing else in quotes -/

/-- In brackets stands an index, or else a key in quotes. -/
theorem exists_of_readBracketStep {r after : Remaining} {step : Step}
    (h : readBracketStep r = .ok (step, after)) :
    (∃ n, step = .index n ∧ r.Skips after) ∨
      ∃ (l : Literal) (key : String) (closing : Remaining), l.StandsAt r.skipBlanks key closing ∧
        step = .key key ∧ closing.skipBlanks.take? ']' = some after := by
  rw [readBracketStep_eq] at h
  simp only [bind_eq_ok_iff, closeStep_eq_ok_iff, Prod.exists] at h
  obtain ⟨inside, left, hinside, rfl, closed⟩ := h
  unfold readInside at hinside
  split at hinside
  · cases hinside
  next c rest hchars =>
  split at hinside
  · next quote =>
    simp only [map_eq_ok_iff, Prod.exists] at hinside
    obtain ⟨key, behind, string, hpair⟩ := hinside
    cases hpair
    obtain ⟨l, stands⟩ := Literal.exists_standsAt hchars quote string
    exact .inr ⟨l, key, left, stands, rfl, closed⟩
  · split at hinside
    · cases hinside
    · next negative digits width behind split =>
      simp only [map_eq_ok_iff] at hinside
      obtain ⟨n, -, hpair⟩ := hinside
      cases hpair
      obtain ⟨passed, whole, rfl, unquoted, -⟩ := exists_of_splitSigned? split
      have number := Skips.of_jump passed whole unquoted rfl
      have blanks := (skips_skipBlanks _).trans (skips_of_take? (by decide) closed)
      exact .inl ⟨n, rfl, (skips_skipBlanks r).trans (number.trans blanks)⟩

theorem StepLiterals.spans {r after : Remaining} {literals : List Literal}
    (h : StepLiterals r literals after) : Spans after.chars r.chars literals := by
  induction h with
  | nil r => exact .refl
  | named hchars read _ ih =>
      have point := Skips.of_jump ['.'] hchars (by decide) rfl
      exact (point.trans (skips_of_readNamedStep read).1).spans.trans ih
  | index hchars read _ ih =>
      have bracket := Skips.of_jump ['['] hchars (by decide) rfl
      rcases exists_of_readBracketStep read with ⟨n, -, skips⟩ | ⟨l, key, closing, -, other, -⟩
      · exact (bracket.trans skips).spans.trans ih
      · cases other
  | key hchars stands closed _ ih =>
      have bracket := (Skips.of_jump ['['] hchars (by decide) rfl).trans (skips_skipBlanks _)
      have closing := (skips_skipBlanks _).trans (skips_of_take? (by decide) closed)
      exact bracket.spans.trans (stands.spans.trans (closing.spans.trans ih))

theorem PhraseLiterals.spans {r after : Remaining} {phrase : Phrase} {literals : List Literal}
    (h : PhraseLiterals r phrase literals after) : Spans after.chars r.chars literals := by
  have begin (r : Remaining) := skips_skipBlanks r
  induction h with
  | @string r _ _ _ stands => exact (begin r).spans.trans stands.spans
  | @number r _ _ read => exact ((begin r).trans (skips_of_readNumber? read).1).spans
  | @path r _ _ _ _ _ split _ _ steps =>
      exact ((begin r).trans (skips_of_splitName? split)).spans.trans steps.spans
  | @call r _ _ _ _ _ _ split paren _ ih =>
      have named := (begin r).trans (skips_of_splitName? split)
      exact (named.trans (skips_of_take? (by decide) paren)).spans.trans ih
  | @noArguments r _ paren => exact ((begin r).trans (skips_of_take? (by decide) paren)).spans
  | @someArguments r _ _ _ _ _ ih => exact (begin r).spans.trans ih
  | @last r mid _ _ _ _ paren ih =>
      have closed := ((begin mid).trans (skips_of_take? (by decide) paren)).spans
      simpa using ih.trans closed
  | @more r mid _ _ _ _ _ _ _ _ comma _ ih ih' =>
      have comma := ((begin mid).trans (skips_of_take? (by decide) comma)).spans
      exact ih.trans (comma.trans ih')

theorem LiteralsToEnd.spans {r : Remaining} {params : List Node} {literals : List Literal}
    (h : LiteralsToEnd r params literals) : Spans [] r.chars literals := by
  induction h with
  | nil blank => exact blank.spans
  | @cons r _ _ _ _ _ _ comma first _ ih =>
      have begins := (skips_skipBlanks r).trans (skips_of_take? (by decide) comma)
      exact begins.spans.trans (first.spans.trans ih)

theorem ParameterLiterals.spans {r : Remaining} {params : List Node} {literals : List Literal}
    (h : ParameterLiterals r params literals) : Spans [] r.chars literals := by
  have begins := skips_skipBlanks r
  cases h with
  | none blank => exact blank.spans
  | inParentheses paren first blank =>
      have opened := (begins.trans (skips_of_take? (by decide) paren)).spans
      simpa using opened.trans (first.spans.trans blank.spans)
  | listed _ first others => exact begins.spans.trans (first.spans.trans others.spans)

/-! ## What is read has literals -/

theorem exists_stepLiterals {fuel : Nat} {r after : Remaining} {steps : List Step}
    (h : readSteps fuel r = .ok (steps, after)) : ∃ literals, StepLiterals r literals after := by
  induction fuel generalizing r steps with
  | zero =>
      cases h
      exact ⟨[], .nil _⟩
  | succ fuel ih =>
      simp only [readSteps] at h
      split at h
      · next rest hchars =>
        simp only [bind_eq_ok_iff, pure_eq_ok_iff, Prod.exists] at h
        obtain ⟨step, mid, first, others, left, more, hpair⟩ := h
        cases hpair
        obtain ⟨literals, later⟩ := ih more
        exact ⟨literals, .named hchars first later⟩
      · next rest hchars =>
        simp only [bind_eq_ok_iff, pure_eq_ok_iff, Prod.exists] at h
        obtain ⟨step, mid, first, others, left, more, hpair⟩ := h
        cases hpair
        obtain ⟨literals, later⟩ := ih more
        rcases exists_of_readBracketStep first with
          ⟨n, rfl, -⟩ | ⟨l, key, closing, stands, rfl, closed⟩
        · exact ⟨literals, .index hchars first later⟩
        · exact ⟨l :: literals, .key hchars stands closed later⟩
      · cases h
        exact ⟨[], .nil _⟩

theorem Reads.exists_literals {r after : Remaining} {phrase : Phrase} (h : Reads r phrase after) :
    ∃ literals, PhraseLiterals r phrase literals after := by
  induction h with
  | string hchars quoted read =>
      obtain ⟨l, stands⟩ := Literal.exists_standsAt hchars quoted read
      exact ⟨[l], .string stands⟩
  | number read => exact ⟨[], .number read⟩
  | path split paren read =>
      rcases exists_of_readPath read with ⟨value, -, rfl, rfl⟩ | ⟨steps, rfl, followed⟩
      · exact ⟨[], .path split paren read (.nil _)⟩
      · obtain ⟨literals, followed⟩ := exists_stepLiterals followed
        exact ⟨literals, .path split paren read followed⟩
  | call split paren _ ih =>
      obtain ⟨literals, arguments⟩ := ih
      exact ⟨literals, .call split paren arguments⟩
  | noArguments paren => exact ⟨[], .noArguments paren⟩
  | someArguments paren _ ih =>
      obtain ⟨literals, list⟩ := ih
      exact ⟨literals, .someArguments paren list⟩
  | last _ paren ih =>
      obtain ⟨literals, expression⟩ := ih
      exact ⟨literals, .last expression paren⟩
  | more _ paren comma _ ih ih' =>
      obtain ⟨first, expression⟩ := ih
      obtain ⟨others, list⟩ := ih'
      exact ⟨first ++ others, .more expression paren comma list⟩

theorem ReadsToEnd.exists_literals {r : Remaining} {params : List Node} (h : ReadsToEnd r params) :
    ∃ literals, LiteralsToEnd r params literals := by
  induction h with
  | nil blank => exact ⟨[], .nil blank⟩
  | cons comma reads _ ih =>
      obtain ⟨first, expression⟩ := reads.exists_literals
      obtain ⟨others, later⟩ := ih
      exact ⟨first ++ others, .cons comma expression later⟩

theorem Parameters.exists_literals {r : Remaining} {params : List Node} (h : Parameters r params) :
    ∃ literals, ParameterLiterals r params literals := by
  cases h with
  | none blank => exact ⟨[], .none blank⟩
  | inParentheses paren reads blank =>
      obtain ⟨literals, arguments⟩ := reads.exists_literals
      exact ⟨literals, .inParentheses paren arguments blank⟩
  | listed paren reads toEnd =>
      obtain ⟨first, expression⟩ := reads.exists_literals
      obtain ⟨others, later⟩ := toEnd.exists_literals
      exact ⟨first ++ others, .listed paren expression later⟩

end Expression

namespace Construct

open Expression (Literal Spans PhraseLiterals ParameterLiterals readName)

/-! ## The search for the end -/

theorem encodeChars_literal (l : Literal) :
    encodeChars l.chars = UInt8.ofNat l.quote.toNat ::
      (encodeChars l.inside ++ UInt8.ofNat l.quote.toNat :: encodeChars l.behind) := by
  simp only [Literal.chars, encodeChars_quote l.quoted, encodeChars_append]

/-- The bytes from offset `first` up to `last` stand between the quotes of the literal; `content`
ends where the tag does. -/
def Surrounds (content : List UInt8) (first last : Nat) (l : Literal) : Prop :=
  ∃ front, content = front ++ encodeChars l.chars ∧ front.length < first ∧
    last ≤ front.length + 1 + (encodeChars l.inside).length

theorem Surrounds.append {content : List UInt8} {first last : Nat} {l : Literal}
    (h : Surrounds content first last l) (bytes : List UInt8) :
    Surrounds (bytes ++ content) (bytes.length + first) (bytes.length + last) l := by
  obtain ⟨front, rfl, opened, closed⟩ := h
  refine ⟨bytes ++ front, by simp, ?_, ?_⟩ <;> rw [List.length_append] <;> omega

/-- What occurs in a sequence and does not hold a given byte of it stands on one side. -/
theorem apart_of_not_mem {needle before behind : List UInt8} (front : List UInt8) {b : UInt8}
    (other : b ∉ needle) (occurs : before ++ needle <+: front ++ b :: behind) :
    before.length + needle.length ≤ front.length ∨ front.length < before.length := by
  by_contra overlap
  rw [not_or, Nat.not_le, Nat.not_lt] at overlap
  obtain ⟨after, whole⟩ := occurs
  have found : (before ++ needle ++ after)[front.length]? = some b := by simp [whole]
  rw [List.append_assoc, List.getElem?_append_right overlap.2,
    List.getElem?_append_left (by omega)] at found
  exact other (List.mem_of_getElem? found)

/-- What occurs behind the front of a sequence occurs in what is left without the front. -/
theorem exists_of_append_prefix {needle before front behind : List UInt8}
    (occurs : before ++ needle <+: front ++ behind) (late : front.length ≤ before.length) :
    ∃ inner, before = front ++ inner ∧ inner ++ needle <+: behind := by
  have begins : front <+: before :=
    List.prefix_of_prefix_length_le (List.prefix_append _ _)
      ((List.prefix_append _ _).trans occurs) late
  obtain ⟨inner, rfl⟩ := begins
  rw [List.append_assoc, List.prefix_append_right_inj] at occurs
  exact ⟨inner, rfl, occurs⟩

/-- Outside of strings the search passes over no closing delimiter. -/
theorem splitUnquoted?_of_append {closer bytes data content rest : List UInt8}
    (plain : ∀ b ∈ bytes, b ≠ 34 ∧ b ≠ 39)
    (h : splitUnquoted? closer none (bytes ++ data) = some (bytes ++ content, rest)) :
    splitUnquoted? closer none data = some (content, rest) ∧
      ∀ before, before ++ closer <+: bytes ++ data → bytes.length ≤ before.length := by
  induction bytes with
  | nil => exact ⟨h, fun _ _ => Nat.zero_le _⟩
  | cons b bytes ih =>
      obtain ⟨double, single⟩ := plain b List.mem_cons_self
      have quote : ¬ (b = 34 ∨ b = 39) := by simp [double, single]
      rw [List.cons_append, splitUnquoted?, if_neg quote] at h
      split at h
      · cases h
      next absent =>
      obtain ⟨⟨left, behind⟩, found, hpair⟩ := Option.map_eq_some_iff.1 h
      cases hpair
      obtain ⟨later, passed⟩ := ih (fun c member => plain c (List.mem_cons_of_mem b member)) found
      refine ⟨later, fun before occurs => ?_⟩
      cases before with
      | nil =>
          obtain ⟨after, whole⟩ := occurs
          have begins : closer.isPrefixOf? (b :: (bytes ++ data)) = some after :=
            isPrefixOf?_eq_some_iff.2 whole.symm
          rw [begins] at absent
          cases absent
      | cons c before =>
          rw [List.cons_append, List.cons_append, List.cons_prefix_cons] at occurs
          exact Nat.succ_le_succ (passed before occurs.2)

/-- Each closing delimiter that begins in `content`, in front of `data`, stands in a literal. -/
def Guarded (closer content data : List UInt8) (literals : List Literal) : Prop :=
  ∀ before, before ++ closer <+: content ++ data → before.length < content.length →
    ∃ l ∈ literals, Surrounds content before.length (before.length + closer.length) l

/-- A closing delimiter behind the first bytes is one of what they stand in front of. -/
theorem Guarded.behind {closer content data : List UInt8} {literals : List Literal}
    (h : Guarded closer content data literals) {bytes before : List UInt8}
    (occurs : before ++ closer <+: bytes ++ content ++ data)
    (early : before.length < (bytes ++ content).length) (late : bytes.length ≤ before.length) :
    ∃ l ∈ literals,
      Surrounds (bytes ++ content) before.length (before.length + closer.length) l := by
  rw [List.append_assoc] at occurs
  obtain ⟨inner, rfl, occurs'⟩ := exists_of_append_prefix occurs late
  rw [List.length_append, List.length_append, Nat.add_lt_add_iff_left] at early
  obtain ⟨l, member, surrounds⟩ := h inner occurs' early
  refine ⟨l, member, ?_⟩
  simpa [Nat.add_assoc] using surrounds.append bytes

/-- A search that ends where the characters do leaves each closing delimiter before to a literal. -/
theorem guarded_of_splitUnquoted? {closer : List UInt8} (nonempty : closer ≠ [])
    (unquoted : 34 ∉ closer ∧ 39 ∉ closer) {cs : List Char} {literals : List Literal}
    (spans : Spans [] cs literals) {data rest : List UInt8}
    (h : splitUnquoted? closer none (encodeChars cs ++ data) = some (encodeChars cs, rest)) :
    Guarded closer (encodeChars cs) data literals := by
  induction spans with
  | refl =>
      intro before _ early
      simp [encodeChars] at early
  | @plain c cs literals plain _ ih =>
      have bytes : ∀ b ∈ String.utf8EncodeChar c, b ≠ 34 ∧ b ≠ 39 := by
        intro b member
        have neither := Expression.isQuote_eq_false_iff.1 plain
        exact ⟨Text.Utf8.ne_of_mem_utf8EncodeChar (d := '"') (by decide) neither.1 member,
          Text.Utf8.ne_of_mem_utf8EncodeChar (d := '\'') (by decide) neither.2 member⟩
      rw [encodeChars_cons] at h ⊢
      rw [List.append_assoc] at h
      obtain ⟨later, passed⟩ := splitUnquoted?_of_append bytes h
      intro before occurs early
      exact (ih later).behind occurs early (passed before (by simpa using occurs))
  | @literal l literals _ ih =>
      have other : UInt8.ofNat l.quote.toNat ∉ closer := by
        rcases quoteByte l.quoted with same | same <;> rw [same]
        · exact unquoted.1
        · exact unquoted.2
      have whole : encodeChars l.chars =
          encodeChars (l.quote :: (l.inside ++ [l.quote])) ++ encodeChars l.behind := by
        simp [Literal.chars, ← encodeChars_append]
      have later : splitUnquoted? closer none (encodeChars l.behind ++ data) =
          some (encodeChars l.behind, rest) := by
        rw [Literal.chars, splitUnquoted?_string l.quoted l.inString, ← Literal.chars, whole] at h
        obtain ⟨found, hfound, hpair⟩ := Option.map_eq_some_iff.1 h
        rw [Prod.mk.injEq, List.append_right_inj] at hpair
        rw [hfound, ← hpair.1, ← hpair.2]
      intro before occurs early
      -- A closing delimiter holds no quote, so that it overlaps neither of the literal's two.
      have spelt := occurs
      rw [encodeChars_literal, List.cons_append, List.append_assoc, List.cons_append] at spelt
      have opening := apart_of_not_mem [] other spelt
      have closing := apart_of_not_mem (UInt8.ofNat l.quote.toNat :: encodeChars l.inside) other
        spelt
      have positive := List.length_pos_iff.2 nonempty
      rw [List.length_nil] at opening
      rw [List.length_cons] at closing
      rcases closing with inside | behind
      · refine ⟨l, List.mem_cons_self, [], rfl, ?_, ?_⟩ <;> rw [List.length_nil] <;> omega
      · rw [whole] at occurs early ⊢
        have late : (encodeChars (l.quote :: (l.inside ++ [l.quote]))).length ≤ before.length := by
          rw [encodeChars_quote l.quoted, encodeChars_append, encodeChars_quote l.quoted]
          simpa [encodeChars] using Nat.succ_le_of_lt behind
        obtain ⟨l', member, surrounds⟩ := (ih later).behind occurs early late
        exact ⟨l', List.mem_cons_of_mem l member, surrounds⟩

/-! ## Tags -/

/-- `Output` and `Statement`, with the literals read. -/
inductive TagLiterals : Delimiter → Remaining → List Literal → Prop
  | output {r after : Remaining} {node : Node} {literals : List Literal} :
      PhraseLiterals r (.expression node) literals after → after.AtEnd →
      TagLiterals .output r literals
  | closing {r inside after : Remaining} {name : String} :
      r.skipBlanks.take? '/' = some inside → readName inside = .ok (name, after) → after.AtEnd →
      TagLiterals .statement r []
  | opening {r inside after : Remaining} {name : String} {params : List Node}
      {literals : List Literal} :
      r.skipBlanks.take? '/' = none → r.skipBlanks.take? '#' = some inside →
      readName inside = .ok (name, after) → ParameterLiterals after params literals →
      TagLiterals .statement r literals
  | otherwise {r after : Remaining} :
      r.skipBlanks.take? '/' = none → r.skipBlanks.take? '#' = none →
      readName r.skipBlanks = .ok ("else", after) → after.AtEnd → TagLiterals .statement r []
  | inline {r after : Remaining} {name : String} {params : List Node} {literals : List Literal} :
      r.skipBlanks.take? '/' = none → r.skipBlanks.take? '#' = none →
      readName r.skipBlanks = .ok (name, after) → name ≠ "else" →
      ParameterLiterals after params literals → TagLiterals .statement r literals

theorem TagLiterals.spans {d : Delimiter} {r : Remaining} {literals : List Literal}
    (h : TagLiterals d r literals) : Spans [] r.chars literals := by
  have begins := Remaining.skips_skipBlanks r
  have mark {c : Char} {inside : Remaining} (unquoted : Expression.Unquoted [c])
      (taken : r.skipBlanks.take? c = some inside) :=
    begins.trans (Remaining.skips_of_take? unquoted taken)
  cases h with
  | output reads blank => simpa using reads.spans.trans blank.spans
  | closing slash named blank =>
      have named := Expression.skips_of_readName named
      exact ((mark (by decide) slash).trans named).spans.trans blank.spans
  | opening _ hash named params =>
      have named := Expression.skips_of_readName named
      exact ((mark (by decide) hash).trans named).spans.trans params.spans
  | otherwise _ _ named blank =>
      exact (begins.trans (Expression.skips_of_readName named)).spans.trans blank.spans
  | inline _ _ named _ params =>
      exact (begins.trans (Expression.skips_of_readName named)).spans.trans params.spans

theorem Output.exists_literals {p : Position} {r : Remaining} {c : Construct} (h : Output p r c) :
    ∃ literals, TagLiterals .output r literals := by
  cases h with
  | expression reads blank =>
      obtain ⟨literals, expression⟩ := reads.exists_literals
      exact ⟨literals, .output expression blank⟩

theorem Statement.exists_literals {p : Position} {r : Remaining} {c : Construct}
    (h : Statement p r c) : ∃ literals, TagLiterals .statement r literals := by
  cases h with
  | closing slash named blank => exact ⟨[], .closing slash named blank⟩
  | opening slash hash named parameters =>
      obtain ⟨literals, listed⟩ := parameters.exists_literals
      exact ⟨literals, .opening slash hash named listed⟩
  | otherwise slash hash named blank => exact ⟨[], .otherwise slash hash named blank⟩
  | inline slash hash named other parameters =>
      obtain ⟨literals, listed⟩ := parameters.exists_literals
      exact ⟨literals, .inline slash hash named other listed⟩

/-- What can be read after an opening delimiter has a content that was read, up to its end. -/
theorem exists_of_readDelimited {d : Delimiter} (quoting : d ≠ .comment) {p : Position}
    {data : List UInt8} {found : Found} (h : readDelimited p d data = .ok found) :
    ∃ content rest chars, splitContent? d data = some (content, rest) ∧
      Text.Utf8.decode content = .ok chars ∧
      ∃ literals, TagLiterals d ⟨chars, p.right 2⟩ literals := by
  unfold readDelimited at h
  split at h
  · cases h
  next content rest split =>
  cases d with
  | comment => exact absurd rfl quoting
  | output =>
      simp only [bind_eq_ok_iff, decodeAt_eq_ok_iff] at h
      obtain ⟨chars, decoded, c, read, -⟩ := h
      exact ⟨content, rest, chars, split, decoded, (readOutput_eq_ok_iff.1 read).exists_literals⟩
  | statement =>
      simp only [bind_eq_ok_iff, decodeAt_eq_ok_iff] at h
      obtain ⟨chars, decoded, c, read, -⟩ := h
      exact ⟨content, rest, chars, split, decoded,
        (readStatement_eq_ok_iff.1 read).exists_literals⟩

/-- A tag that can be read is not ended by the search that takes no notice of quotes. -/
theorem splitUnquoted?_of_readDelimited {d : Delimiter} (quoting : d ≠ .comment) {p : Position}
    {data : List UInt8} {found : Found} (h : readDelimited p d data = .ok found) :
    splitUnquoted? d.closingBytes none data = splitContent? d data := by
  obtain ⟨content, rest, chars, split, decoded, literals, recognised⟩ :=
    exists_of_readDelimited quoting h
  have ends := isSome_splitUnquoted?_content quoting decoded
    (recognised.spans.balanced .nil) rest
  rw [← append_of_splitContent? split] at ends
  exact (splitContent?_of_isSome quoting ends).symm

theorem openingBytes_ne_nil (d : Delimiter) : d.openingBytes ≠ [] := by
  cases d <;> decide

theorem unquoted_closingBytes (d : Delimiter) : 34 ∉ d.closingBytes ∧ 39 ∉ d.closingBytes := by
  cases d <;> decide

/-- A source with a construct that cannot be read has no tree. -/
theorem exists_failure_of_reads {source left : List UInt8} {constructs : List Construct}
    {q : Position} {failure : ReadFailure} (reads : Reads .start source constructs q left)
    (more : left ≠ []) (next : readNext q left = .error failure) :
    ∃ failure, Template.read source = .error failure := by
  have stopped := survey_of_failure reads more next
  cases grown : Growth.empty.run constructs with
  | error other => exact ⟨other, by simp [Template.read, stopped, grown, bind, Except.bind]⟩
  | ok growth => exact ⟨failure, by simp [Template.read, stopped, grown, bind, Except.bind]⟩

/-- A tag that can be read ends at the first closing delimiter outside of the string literals that
are read in it.  If the search finds each of them in quotes the tag cannot be read. -/
theorem tag_ends_outside_literals {d : Delimiter} (quoting : d ≠ .comment) (p : Position)
    (data : List UInt8) :
    (∀ found, readDelimited p d data = .ok found →
      ∃ content rest chars, splitContent? d data = some (content, rest) ∧
        data = content ++ d.closingBytes ++ rest ∧ Text.Utf8.decode content = .ok chars ∧
        (∃ literals, TagLiterals d ⟨chars, p.right 2⟩ literals) ∧
        ∀ literals, TagLiterals d ⟨chars, p.right 2⟩ literals →
          (∀ l ∈ literals, encodeChars l.chars <:+ content) ∧
            Guarded d.closingBytes content (d.closingBytes ++ rest) literals) ∧
      (splitUnquoted? d.closingBytes none data = none →
        (∃ failure, readDelimited p d data = .error failure) ∧
          ∀ source constructs, Reads .start source constructs p (d.openingBytes ++ data) →
            ∃ failure, Template.read source = .error failure) := by
  refine ⟨fun found h => ?_, fun unended => ?_⟩
  · obtain ⟨content, rest, chars, split, decoded, recognised⟩ := exists_of_readDelimited quoting h
    have whole := append_of_splitContent? split
    have spelt : encodeChars chars = content := Text.Utf8.flatMap_of_decode decoded
    refine ⟨content, rest, chars, split, whole, decoded, recognised, fun literals those => ?_⟩
    have spans := those.spans
    refine ⟨fun l member => ?_, ?_⟩
    · obtain ⟨front, hfront⟩ := spans.suffix member
      exact ⟨encodeChars front, by rw [← encodeChars_append, hfront, spelt]⟩
    · rw [← splitUnquoted?_of_readDelimited quoting h, whole, List.append_assoc, ← spelt] at split
      rw [← spelt]
      exact guarded_of_splitUnquoted? (closingBytes_ne_nil d) (unquoted_closingBytes d) spans split
  · have failed : ∃ failure, readDelimited p d data = .error failure := by
      cases read : readDelimited p d data with
      | error failure => exact ⟨failure, rfl⟩
      | ok found =>
          obtain ⟨content, rest, -, split, -⟩ := exists_of_readDelimited quoting read
          rw [← splitUnquoted?_of_readDelimited quoting read, unended] at split
          cases split
    refine ⟨failed, fun source constructs reads => ?_⟩
    obtain ⟨failure, failed⟩ := failed
    rw [← readNext_openingBytes] at failed
    exact exists_failure_of_reads reads
      (List.append_ne_nil_of_left_ne_nil (openingBytes_ne_nil d) data) failed

/-- What follows the opening delimiter of an output with a closing one in quotes. -/
def quotedSource : List UInt8 := Text.Utf8.encode " default(x, \"\x7d\x7d\") \x7d\x7d"

/-- The same, but the string is left open. -/
def openStringSource : List UInt8 := Text.Utf8.encode " default(x, \"\x7d\x7d) \x7d\x7d"

/-- The closing delimiter at offset 13 stands in quotes, and the tag ends at offset 18.  If the
string is left open both of the delimiters stand in quotes. -/
theorem quotedSource_ends_outside_literals :
    (splitContent? .output quotedSource = some (quotedSource.take 18, []) ∧
        ∃ l, Surrounds (quotedSource.take 18) 13 15 l) ∧
      splitUnquoted? Delimiter.output.closingBytes none openStringSource = none ∧
        ∃ failure, readDelimited .start .output openStringSource = .error failure := by
  have accepted : (readDelimited .start .output quotedSource).isOk = true := by decide +kernel
  have split : splitContent? .output quotedSource = some (quotedSource.take 18, []) := by
    decide +kernel
  obtain ⟨found, read⟩ : ∃ found, readDelimited .start .output quotedSource = .ok found := by
    cases outcome : readDelimited .start .output quotedSource with
    | error failure =>
        rw [outcome] at accepted
        cases accepted
    | ok found => exact ⟨found, rfl⟩
  obtain ⟨content, rest, chars, split', -, -, ⟨literals, recognised⟩, ends⟩ :=
    (tag_ends_outside_literals (by decide) .start quotedSource).1 found read
  cases split.symm.trans split'
  have early : (quotedSource.take 13).length = 13 := by decide +kernel
  have length : (quotedSource.take 18).length = 18 := by decide +kernel
  have occurs : quotedSource.take 13 ++ Delimiter.output.closingBytes <+:
      quotedSource.take 18 ++ (Delimiter.output.closingBytes ++ []) := by decide +kernel
  obtain ⟨l, -, surrounds⟩ := (ends literals recognised).2 (quotedSource.take 13) occurs
    (by rw [early, length]; decide)
  rw [early] at surrounds
  have unended : splitUnquoted? Delimiter.output.closingBytes none openStringSource = none := by
    decide +kernel
  have failed := (tag_ends_outside_literals (by decide) .start openStringSource).2 unended
  exact ⟨⟨split, l, surrounds⟩, unended, failed.1⟩

end Construct

end Templating
