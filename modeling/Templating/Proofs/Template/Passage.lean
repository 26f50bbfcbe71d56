import Mathlib.Data.List.TakeDrop
import Templating.Proofs.Outcome
import Templating.Template.Expression

/-!
# What readers pass over

Every reader of a part of a tag passes over characters from the front of what is left, and the
position it returns is the one after those characters.  Quotes are passed over in whole strings
only, so that no reader leaves a string open behind it.
-/

namespace Templating

/-! ## Quotes -/

namespace Expression

/-- What may stand between two quotes of one string. -/
inductive InString (quote : Char) : List Char → Prop
  | nil : InString quote []
  | escaped (c : Char) {cs : List Char} : InString quote cs → InString quote ('\\' :: c :: cs)
  | plain {c : Char} {cs : List Char} :
      c ≠ quote → c ≠ '\\' → InString quote cs → InString quote (c :: cs)

/-- Quotes stand in whole strings only. -/
inductive Balanced : List Char → Prop
  | nil : Balanced []
  | plain {c : Char} {cs : List Char} : isQuote c = false → Balanced cs → Balanced (c :: cs)
  | string {quote : Char} {content cs : List Char} :
      isQuote quote = true → InString quote content → Balanced cs →
      Balanced (quote :: (content ++ quote :: cs))

theorem Balanced.append {a b : List Char} (ha : Balanced a) (hb : Balanced b) :
    Balanced (a ++ b) := by
  induction ha with
  | nil => exact hb
  | plain quote _ ih => exact .plain quote ih
  | @string quote content cs isQuote inString _ ih =>
      rw [List.cons_append, List.append_assoc, List.cons_append]
      exact .string isQuote inString ih

theorem balanced_of_plain {cs : List Char} (h : ∀ c ∈ cs, isQuote c = false) : Balanced cs := by
  induction cs with
  | nil => exact .nil
  | cons c cs ih =>
      exact .plain (h c List.mem_cons_self) (ih fun d member => h d (List.mem_cons_of_mem c member))

theorem isQuote_iff {c : Char} : isQuote c = true ↔ c = '"' ∨ c = '\'' := by
  simp [isQuote]

theorem isQuote_eq_false_iff {c : Char} : isQuote c = false ↔ c ≠ '"' ∧ c ≠ '\'' := by
  simp [isQuote]

/-- Characters of one line, none of them a quote. -/
def Unquoted (cs : List Char) : Prop := ∀ c ∈ cs, c ≠ '\n' ∧ isQuote c = false

instance (cs : List Char) : Decidable (Unquoted cs) :=
  List.decidableBAll (fun c => c ≠ '\n' ∧ isQuote c = false) cs

namespace Unquoted

variable {a b cs : List Char}

theorem newline (h : Unquoted cs) : '\n' ∉ cs := fun member => (h _ member).1 rfl

theorem append (ha : Unquoted a) (hb : Unquoted b) : Unquoted (a ++ b) := by
  intro c member
  rcases List.mem_append.1 member with first | second
  · exact ha c first
  · exact hb c second

theorem cons {c : Char} (line : c ≠ '\n') (plain : isQuote c = false) (h : Unquoted cs) :
    Unquoted (c :: cs) := by
  intro d member
  rcases List.mem_cons.1 member with rfl | later
  · exact ⟨line, plain⟩
  · exact h d later

theorem nil : Unquoted [] := by
  intro c member
  cases member

end Unquoted

end Expression

/-! ## Positions -/

def Position.afterChars (p : Position) (cs : List Char) : Position := cs.foldl Position.afterChar p

theorem Position.afterChars_append (p : Position) (a b : List Char) :
    p.afterChars (a ++ b) = (p.afterChars a).afterChars b := by
  simp [Position.afterChars, List.foldl_append]

/-- Characters of one line move the column by their count. -/
theorem Position.afterChars_of_not_mem {cs : List Char} (h : '\n' ∉ cs) (p : Position) :
    p.afterChars cs = p.right cs.length := by
  induction cs generalizing p with
  | nil => simp [Position.afterChars, Position.right]
  | cons c cs ih =>
      simp only [List.mem_cons, not_or] at h
      have rest := ih h.2 (p.right 1)
      simp only [Position.afterChars, List.foldl_cons, Position.afterChar, if_neg (Ne.symm h.1)]
        at rest ⊢
      rw [rest]
      simp only [Position.right, List.length_cons, Position.mk.injEq, true_and]
      omega

namespace Remaining

/-- `after` is left when characters from the front of `r` are passed over, no string left open. -/
def Reaches (r after : Remaining) : Prop :=
  ∃ passed, r.chars = passed ++ after.chars ∧ after.position = r.position.afterChars passed ∧
    Expression.Balanced passed

namespace Reaches

variable {r mid after : Remaining}

theorem refl (r : Remaining) : r.Reaches r := ⟨[], rfl, rfl, .nil⟩

theorem trans (first : r.Reaches mid) (second : mid.Reaches after) : r.Reaches after := by
  obtain ⟨a, ha, hp, balanced⟩ := first
  obtain ⟨b, hb, hq, balanced'⟩ := second
  refine ⟨a ++ b, ?_, ?_, balanced.append balanced'⟩
  · rw [ha, hb, List.append_assoc]
  · rw [hq, hp, Position.afterChars_append]

theorem length_le (h : r.Reaches after) : after.chars.length ≤ r.chars.length := by
  obtain ⟨passed, hchars, -⟩ := h
  simp [hchars]

end Reaches

/-- `after` is left when characters from the front of `r` are passed over, none of them a quote. -/
def Skips (r after : Remaining) : Prop :=
  ∃ passed, r.chars = passed ++ after.chars ∧ after.position = r.position.afterChars passed ∧
    ∀ c ∈ passed, Expression.isQuote c = false

namespace Skips

variable {r mid after : Remaining}

theorem refl (r : Remaining) : r.Skips r := ⟨[], rfl, rfl, fun _ member => by cases member⟩

theorem trans (first : r.Skips mid) (second : mid.Skips after) : r.Skips after := by
  obtain ⟨a, ha, hp, plain⟩ := first
  obtain ⟨b, hb, hq, plain'⟩ := second
  refine ⟨a ++ b, ?_, ?_, fun c member => ?_⟩
  · rw [ha, hb, List.append_assoc]
  · rw [hq, hp, Position.afterChars_append]
  · exact (List.mem_append.1 member).elim (plain c) (plain' c)

theorem reaches (h : r.Skips after) : r.Reaches after := by
  obtain ⟨passed, hchars, position, plain⟩ := h
  exact ⟨passed, hchars, position, Expression.balanced_of_plain plain⟩

theorem of_jump (passed : List Char) {rest : List Char} (h : r.chars = passed ++ rest)
    (unquoted : Expression.Unquoted passed)
    {width : Nat} (hwidth : width = passed.length) : r.Skips (r.jump width rest) := by
  refine ⟨passed, h, ?_, fun c member => (unquoted c member).2⟩
  rw [Position.afterChars_of_not_mem unquoted.newline, hwidth]
  rfl

end Skips

theorem Reaches.of_jump {r : Remaining} (passed : List Char) {rest : List Char}
    (h : r.chars = passed ++ rest) (unquoted : Expression.Unquoted passed)
    {width : Nat} (hwidth : width = passed.length) : r.Reaches (r.jump width rest) :=
  (Skips.of_jump passed h unquoted hwidth).reaches

/-! ## White space and single characters -/

theorem skips_skipBlanksFrom (p : Position) (cs : List Char) :
    Skips ⟨cs, p⟩ (skipBlanksFrom p cs) := by
  induction cs generalizing p with
  | nil => exact .refl _
  | cons c rest ih =>
      simp only [skipBlanksFrom]
      split
      · next blank =>
        have plain : Expression.isQuote c = false := by
          refine Expression.isQuote_eq_false_iff.2 ⟨?_, ?_⟩ <;> rintro rfl <;>
            exact absurd blank (by decide)
        exact .trans ⟨[c], rfl, rfl, by simpa using plain⟩ (ih _)
      · exact .refl _

theorem skipBlanks_blank {c : Char} (h : Text.isBlank c = true) (p : Position)
    (rest : List Char) : skipBlanks ⟨c :: rest, p⟩ = skipBlanks ⟨rest, p.afterChar c⟩ := by
  simp [skipBlanks, skipBlanksFrom, h]

theorem skipBlanks_cons {c : Char} (h : Text.isBlank c = false) (p : Position)
    (rest : List Char) : skipBlanks ⟨c :: rest, p⟩ = ⟨c :: rest, p⟩ := by
  simp [skipBlanks, skipBlanksFrom, h]

theorem skips_skipBlanks (r : Remaining) : r.Skips r.skipBlanks :=
  skips_skipBlanksFrom r.position r.chars

theorem reaches_skipBlanks (r : Remaining) : r.Reaches r.skipBlanks := (skips_skipBlanks r).reaches

theorem take?_eq_some_iff {r after : Remaining} {c : Char} :
    r.take? c = some after ↔ ∃ rest, r.chars = c :: rest ∧ after = r.jump 1 rest := by
  unfold take?
  cases hchars : r.chars with
  | nil => simp
  | cons d rest =>
      by_cases h : d = c
      · simp [h, eq_comm]
      · simp [h]

theorem take?_cons (c : Char) (rest : List Char) (p : Position) :
    take? ⟨c :: rest, p⟩ c = some ⟨rest, p.right 1⟩ :=
  take?_eq_some_iff.2 ⟨rest, rfl, rfl⟩

theorem take?_of_ne {c d : Char} (h : d ≠ c) (rest : List Char) (p : Position) :
    take? ⟨d :: rest, p⟩ c = none := by
  simp [take?, h]

theorem skips_of_take? {r after : Remaining} {c : Char} (unquoted : Expression.Unquoted [c])
    (h : r.take? c = some after) : r.Skips after := by
  obtain ⟨rest, hchars, rfl⟩ := take?_eq_some_iff.1 h
  exact .of_jump [c] hchars unquoted rfl

theorem reaches_of_take? {r after : Remaining} {c : Char} (unquoted : Expression.Unquoted [c])
    (h : r.take? c = some after) : r.Reaches after := (skips_of_take? unquoted h).reaches

theorem length_of_take? {r after : Remaining} {c : Char} (h : r.take? c = some after) :
    r.chars.length = after.chars.length + 1 := by
  obtain ⟨rest, hchars, rfl⟩ := take?_eq_some_iff.1 h
  simp [hchars, jump]

end Remaining

namespace Expression

open Remaining

/-! ## Names and strings -/

theorem isNamePart_of_isNameStart {c : Char} (h : isNameStart c = true) : isNamePart c = true := by
  simp only [isNameStart, Bool.or_eq_true] at h
  simp only [isNamePart, Char.isAlphanum, Bool.or_eq_true]
  rcases h with alpha | underscore
  · exact .inl (.inl alpha)
  · exact .inr underscore

theorem splitName?_eq_some {cs rest : List Char} {name : String}
    (h : splitName? cs = some (name, rest)) :
    cs = name.toList ++ rest ∧ name.toList ≠ [] ∧ ∀ c ∈ name.toList, isNamePart c = true := by
  cases cs with
  | nil => cases h
  | cons c cs =>
      simp only [splitName?] at h
      split at h
      · next start =>
        simp only [Option.some.injEq, Prod.mk.injEq, List.span_eq_takeWhile_dropWhile] at h
        obtain ⟨rfl, rfl⟩ := h
        refine ⟨by simp, by simp, ?_⟩
        intro d hd
        simp only [String.toList_ofList, List.mem_cons] at hd
        rcases hd with rfl | hd
        · exact isNamePart_of_isNameStart start
        · exact List.all_eq_true.1 List.all_takeWhile d hd
      · cases h

theorem unquoted_of_isNamePart {cs : List Char} (h : ∀ c ∈ cs, isNamePart c = true) :
    Unquoted cs := by
  intro c member
  have part := h c member
  refine ⟨?_, ?_⟩
  · rintro rfl
    exact absurd part (by decide)
  · refine isQuote_eq_false_iff.2 ⟨?_, ?_⟩ <;> rintro rfl <;> exact absurd part (by decide)

theorem skips_of_splitName? {r : Remaining} {rest : List Char} {name : String}
    (h : splitName? r.chars = some (name, rest)) : r.Skips (r.jump name.length rest) := by
  obtain ⟨hchars, -, parts⟩ := splitName?_eq_some h
  exact .of_jump _ hchars (unquoted_of_isNamePart parts) String.length_toList.symm

theorem reaches_of_splitName? {r : Remaining} {rest : List Char} {name : String}
    (h : splitName? r.chars = some (name, rest)) : r.Reaches (r.jump name.length rest) :=
  (skips_of_splitName? h).reaches

theorem length_of_splitName? {cs rest : List Char} {name : String}
    (h : splitName? cs = some (name, rest)) : rest.length < cs.length := by
  obtain ⟨hchars, nonempty, -⟩ := splitName?_eq_some h
  have positive := List.length_pos_iff.2 nonempty
  rw [hchars, List.length_append]
  omega

theorem skips_of_readName {r after : Remaining} {name : String}
    (h : readName r = .ok (name, after)) : r.Skips after := by
  unfold readName at h
  simp only at h
  split at h
  · next split =>
    cases h
    exact (skips_skipBlanks r).trans (skips_of_splitName? split)
  · cases h

theorem reaches_of_readName {r after : Remaining} {name : String}
    (h : readName r = .ok (name, after)) : r.Reaches after := (skips_of_readName h).reaches

/-- What is passed over on the way out of a string, its closing quote included. -/
theorem exists_of_splitQuoted? {quote : Char} (line : quote ≠ '\n') {p : Position}
    {cs content : List Char} {after : Remaining}
    (h : splitQuoted? quote p cs = some (content, after)) :
    ∃ inside, cs = inside ++ quote :: after.chars ∧
      after.position = p.afterChars (inside ++ [quote]) ∧ InString quote inside := by
  fun_induction splitQuoted? quote p cs generalizing content with
  | case1 => cases h
  | case2 => cases h
  | case3 p c rest ih =>
      obtain ⟨⟨inner, left⟩, hinner, hpair⟩ := Option.map_eq_some_iff.1 h
      cases hpair
      obtain ⟨inside, hrest, position, inString⟩ := ih hinner
      refine ⟨'\\' :: c :: inside, ?_, ?_, .escaped c inString⟩
      · rw [hrest]
        rfl
      · rw [position]
        simp [Position.afterChars, Position.afterChar]
  | case4 p rest =>
      cases h
      refine ⟨[], rfl, ?_, .nil⟩
      simp [Position.afterChars, Position.afterChar, line]
  | case5 p c rest _ escape other ih =>
      obtain ⟨⟨inner, left⟩, hinner, hpair⟩ := Option.map_eq_some_iff.1 h
      cases hpair
      obtain ⟨inside, hrest, position, inString⟩ := ih hinner
      have plain : c ≠ '\\' := by
        rintro rfl
        cases rest with
        | nil => simp at hrest
        | cons d rest => exact escape d rest rfl rfl
      refine ⟨c :: inside, ?_, ?_, .plain other plain inString⟩
      · rw [hrest]
        rfl
      · rw [position]
        rfl

theorem reaches_of_readString {r after : Remaining} {quote : Char} {rest : List Char}
    {content : String} (hquote : isQuote quote = true) (hchars : r.chars = quote :: rest)
    (h : readString r quote rest = .ok (content, after)) :
    r.Reaches after ∧ after.chars.length < r.chars.length := by
  have line : quote ≠ '\n' := by
    rintro rfl
    exact absurd hquote (by decide)
  unfold readString at h
  split at h
  · next inner left split =>
    cases h
    obtain ⟨inside, hrest, position, inString⟩ := exists_of_splitQuoted? line split
    refine ⟨⟨quote :: (inside ++ [quote]), ?_, ?_, .string hquote inString .nil⟩, ?_⟩
    · rw [hchars, hrest]
      simp
    · rw [position]
      simp [Position.afterChars, Position.afterChar, line]
    · rw [hchars, hrest]
      simp
      omega
  · cases h

/-! ## Numbers -/

theorem unquoted_of_digitValue? {c : Char} {d : Nat} (h : Text.digitValue? c = some d)
    {cs : List Char} (others : Unquoted cs) : Unquoted (c :: cs) := by
  have found : Text.digitValue? c ≠ none := by simp [h]
  refine others.cons ?_ ?_
  · rintro rfl
    exact found (by decide)
  · refine isQuote_eq_false_iff.2 ⟨?_, ?_⟩ <;> rintro rfl <;> exact found (by decide)

theorem exists_of_spanDigits (cs : List Char) :
    ∃ passed : List Char, cs = passed ++ (Number.spanDigits cs).2 ∧
      passed.length = (Number.spanDigits cs).1.length ∧ Unquoted passed := by
  induction cs with
  | nil => exact ⟨[], rfl, rfl, .nil⟩
  | cons c rest ih =>
      simp only [Number.spanDigits]
      split
      · next d digit =>
        obtain ⟨passed, hrest, hlength, unquoted⟩ := ih
        refine ⟨c :: passed, ?_, ?_, unquoted_of_digitValue? digit unquoted⟩
        · rw [List.cons_append, ← hrest]
        · simp [hlength]
      · exact ⟨[], rfl, rfl, .nil⟩

theorem exists_of_splitSigned? {cs rest : List Char} {negative : Bool} {digits : List Nat}
    {width : Nat} (h : splitSigned? cs = some (negative, digits, width, rest)) :
    ∃ passed : List Char, cs = passed ++ rest ∧ width = passed.length ∧ Unquoted passed ∧
      passed ≠ [] := by
  unfold splitSigned? at h
  split at h
  · next tail =>
    obtain ⟨passed, htail, hlength, unquoted⟩ := exists_of_spanDigits tail
    simp only at h
    split at h
    · cases h
    · cases h
      exact ⟨'-' :: passed, by rw [List.cons_append, ← htail], by simp [hlength],
        unquoted.cons (by decide) (by decide), List.cons_ne_nil _ _⟩
  · obtain ⟨passed, htail, hlength, unquoted⟩ := exists_of_spanDigits cs
    simp only at h
    split at h
    · cases h
    · next nonempty =>
      cases h
      refine ⟨passed, htail, hlength.symm, unquoted, ?_⟩
      rintro rfl
      exact nonempty (List.isEmpty_iff.2 (List.eq_nil_of_length_eq_zero hlength.symm))

theorem exists_of_splitFraction (cs : List Char) :
    ∃ passed : List Char, cs = passed ++ (splitFraction cs).2 ∧ Unquoted passed ∧
      passed.length =
        if (splitFraction cs).1.isEmpty then 0 else (splitFraction cs).1.length + 1 := by
  unfold splitFraction
  split
  · next rest =>
    obtain ⟨passed, hrest, hlength, unquoted⟩ := exists_of_spanDigits rest
    split
    · exact ⟨[], by simp, .nil, by simp⟩
    · next nonempty =>
      refine ⟨'.' :: passed, by rw [List.cons_append, ← hrest],
        unquoted.cons (by decide) (by decide), ?_⟩
      have some : (Number.spanDigits rest).1.isEmpty = false := by
        cases hfound : (Number.spanDigits rest).1 with
        | nil => exact (nonempty _ (Prod.ext hfound rfl)).elim
        | cons => rfl
      simp [some, hlength]
  · exact ⟨[], by simp, .nil, by simp⟩

theorem exists_of_spanSign (cs : List Char) :
    ∃ passed : List Char, cs = passed ++ (Number.spanSign cs).2 ∧ Unquoted passed := by
  unfold Number.spanSign
  split
  · exact ⟨['-'], rfl, by decide⟩
  · exact ⟨['+'], rfl, by decide⟩
  · exact ⟨[], rfl, .nil⟩

theorem exists_of_splitExponent? {cs rest : List Char} {exponent : Int} {width : Nat}
    (h : splitExponent? cs = some (exponent, width, rest)) :
    ∃ passed : List Char, cs = passed ++ rest ∧ width = passed.length ∧ Unquoted passed := by
  cases cs with
  | nil => cases h
  | cons c cs =>
      simp only [splitExponent?] at h
      split at h
      · next letter =>
        obtain ⟨sign, hsign, signPlain⟩ := exists_of_spanSign cs
        obtain ⟨digits, hdigits, hlength, digitsPlain⟩ :=
          exists_of_spanDigits (Number.spanSign cs).2
        split at h
        · cases h
        · cases h
          refine ⟨c :: (sign ++ digits), ?_, ?_, ?_⟩
          · rw [List.cons_append, List.append_assoc, ← hdigits, ← hsign]
          · have total := congrArg List.length hsign
            simp only [List.length_append] at total
            simp only [List.length_cons, List.length_append, hlength]
            omega
          · rcases letter with rfl | rfl <;>
              exact (signPlain.append digitsPlain).cons (by decide) (by decide)
      · cases h

theorem skips_of_readNumber? {r after : Remaining} {value : Value}
    (h : readNumber? r = some (.ok (value, after))) :
    r.Skips after ∧ after.chars.length < r.chars.length := by
  obtain ⟨⟨negative, whole, width, rest⟩, signed, h⟩ := Option.map_eq_some_iff.1 h
  obtain ⟨number, hnumber, rfl, numberPlain, nonempty⟩ := exists_of_splitSigned? signed
  obtain ⟨fraction, hfraction, fractionPlain, fractionWidth⟩ := exists_of_splitFraction rest
  have positive := List.length_pos_iff.2 nonempty
  have total := congrArg List.length hfraction
  rw [List.length_append] at total
  simp only at h
  split at h
  · next exponent exponentWidth left split =>
    cases h
    obtain ⟨letters, hletters, rfl, lettersPlain⟩ := exists_of_splitExponent? split
    refine ⟨.of_jump (number ++ fraction ++ letters) ?_ ?_ ?_, ?_⟩
    · rw [List.append_assoc, ← hletters, List.append_assoc, ← hfraction, ← hnumber]
    · exact (numberPlain.append fractionPlain).append lettersPlain
    · simp only [List.length_append, fractionWidth]
    · have tail := congrArg List.length hletters
      rw [List.length_append] at tail
      show left.length < _
      rw [hnumber, List.length_append]
      omega
  · split at h
    · next integral =>
      simp only [map_eq_ok_iff] at h
      obtain ⟨n, -, hpair⟩ := h
      cases hpair
      refine ⟨.of_jump _ hnumber numberPlain (by simp), ?_⟩
      show rest.length < _
      rw [hnumber, List.length_append]
      omega
    · next fractional =>
      cases h
      refine ⟨.of_jump (number ++ fraction) ?_ ?_ ?_, ?_⟩
      · rw [List.append_assoc, ← hfraction, ← hnumber]
      · exact numberPlain.append fractionPlain
      · simp [fractionWidth, fractional]
      · show (splitFraction rest).2.length < _
        rw [hnumber, List.length_append]
        omega

theorem reaches_of_readNumber? {r after : Remaining} {value : Value}
    (h : readNumber? r = some (.ok (value, after))) :
    r.Reaches after ∧ after.chars.length < r.chars.length :=
  (skips_of_readNumber? h).imp_left Skips.reaches

/-! ## Paths -/

theorem skips_of_readNamedStep {r after : Remaining} {step : Step}
    (h : readNamedStep r = .ok (step, after)) :
    r.Skips after ∧ after.chars.length < r.chars.length := by
  unfold readNamedStep at h
  split at h
  · next name rest split =>
    cases h
    exact ⟨skips_of_splitName? split, length_of_splitName? split⟩
  · obtain ⟨passed, hchars, hlength, unquoted⟩ := exists_of_spanDigits r.chars
    simp only at h
    split at h
    · cases h
    · next nonempty =>
      simp only [map_eq_ok_iff] at h
      obtain ⟨n, -, hpair⟩ := h
      cases hpair
      refine ⟨.of_jump _ hchars unquoted hlength.symm, ?_⟩
      have positive : (Number.spanDigits r.chars).1.length ≠ 0 := by
        simpa [List.isEmpty_iff] using nonempty
      have total := congrArg List.length hchars
      rw [List.length_append] at total
      show (Number.spanDigits r.chars).2.length < _
      omega

theorem reaches_of_readNamedStep {r after : Remaining} {step : Step}
    (h : readNamedStep r = .ok (step, after)) :
    r.Reaches after ∧ after.chars.length < r.chars.length :=
  (skips_of_readNamedStep h).imp_left Skips.reaches

def readInside (r : Remaining) : Except ReadFailure (Step × Remaining) :=
  match r.chars with
  | [] => r.fail .indexExpected
  | c :: rest =>
    if isQuote c then (readString r c rest).map fun found => (.key found.1, found.2)
    else
      match splitSigned? r.chars with
      | none => r.fail .indexExpected
      | some (negative, digits, width, after) =>
        (readIntegerOf negative digits).map fun n => (.index n, r.jump width after)

def closeStep (inside : Step × Remaining) : Except ReadFailure (Step × Remaining) :=
  match inside.2.skipBlanks.take? ']' with
  | some r => .ok (inside.1, r)
  | none => inside.2.skipBlanks.fail .bracketExpected

theorem readBracketStep_eq (r : Remaining) :
    readBracketStep r = readInside r.skipBlanks >>= closeStep := by
  unfold readBracketStep readInside
  cases hchars : r.skipBlanks.chars with
  | nil =>
      simp only [hchars]
      rfl
  | cons c rest =>
      simp only [hchars]
      by_cases quote : isQuote c = true
      · simp only [quote, if_true]
        cases readString r.skipBlanks c rest <;> rfl
      · simp only [quote]
        cases splitSigned? (c :: rest) with
        | none => rfl
        | some found =>
            obtain ⟨negative, digits, width, after⟩ := found
            simp only
            cases readIntegerOf negative digits <;> rfl

theorem reaches_of_readInside {r after : Remaining} {step : Step}
    (h : readInside r = .ok (step, after)) : r.Reaches after := by
  unfold readInside at h
  split at h
  · cases h
  next c rest hchars =>
  split at h
  · next quote =>
    simp only [map_eq_ok_iff] at h
    obtain ⟨found, string, hpair⟩ := h
    cases hpair
    exact (reaches_of_readString quote hchars string).1
  · split at h
    · cases h
    · next negative digits width left split =>
      simp only [map_eq_ok_iff] at h
      obtain ⟨n, -, hpair⟩ := h
      cases hpair
      obtain ⟨passed, whole, rfl, unquoted, -⟩ := exists_of_splitSigned? split
      exact .of_jump _ whole unquoted rfl

theorem closeStep_eq_ok_iff {inside : Step × Remaining} {step : Step} {after : Remaining} :
    closeStep inside = .ok (step, after) ↔
      inside.1 = step ∧ inside.2.skipBlanks.take? ']' = some after := by
  unfold closeStep
  cases inside.2.skipBlanks.take? ']' <;> simp [Remaining.fail]

theorem reaches_of_readBracketStep {r after : Remaining} {step : Step}
    (h : readBracketStep r = .ok (step, after)) :
    r.Reaches after ∧ after.chars.length < r.chars.length := by
  rw [readBracketStep_eq] at h
  simp only [bind_eq_ok_iff, closeStep_eq_ok_iff] at h
  obtain ⟨inside, hinside, -, closed⟩ := h
  have left : r.Reaches inside.2.skipBlanks :=
    (reaches_skipBlanks r).trans
      ((reaches_of_readInside hinside).trans (reaches_skipBlanks inside.2))
  refine ⟨left.trans (reaches_of_take? (by decide) closed), ?_⟩
  have bound := left.length_le
  rw [length_of_take? closed] at bound
  omega

theorem reaches_of_readSteps {fuel : Nat} {r after : Remaining} {steps : List Step}
    (h : readSteps fuel r = .ok (steps, after)) : r.Reaches after := by
  induction fuel generalizing r steps with
  | zero =>
      cases h
      exact .refl _
  | succ fuel ih =>
      simp only [readSteps] at h
      split at h
      · next rest hchars =>
        simp only [bind_eq_ok_iff, pure_eq_ok_iff, Prod.exists] at h
        obtain ⟨step, mid, first, others, left, more, hpair⟩ := h
        cases hpair
        have point : Reaches _ (Remaining.jump _ 1 rest) :=
          .of_jump ['.'] hchars (by decide) rfl
        exact point.trans ((reaches_of_readNamedStep first).1.trans (ih more))
      · next rest hchars =>
        simp only [bind_eq_ok_iff, pure_eq_ok_iff, Prod.exists] at h
        obtain ⟨step, mid, first, others, left, more, hpair⟩ := h
        cases hpair
        have bracket : Reaches _ (Remaining.jump _ 1 rest) :=
          .of_jump ['['] hchars (by decide) rfl
        exact bracket.trans ((reaches_of_readBracketStep first).1.trans (ih more))
      · cases h
        exact .refl _

/-- A name that is read is a keyword by itself, or the head of a path. -/
theorem exists_of_readPath {p : Position} {name : String} {r after : Remaining} {node : Node}
    (h : readPath p name r = .ok (node, after)) :
    (∃ value, keyword? name = some value ∧ node = .constant p value ∧ after = r) ∨
      ∃ steps, node = .identifier p (.key name :: steps) ∧
        readSteps r.chars.length r = .ok (steps, after) := by
  have follow (h : readPath.follow p name r = .ok (node, after)) :
      ∃ steps, node = .identifier p (.key name :: steps) ∧
        readSteps r.chars.length r = .ok (steps, after) := by
    simp only [readPath.follow, bind_eq_ok_iff, pure_eq_ok_iff, Prod.exists] at h
    obtain ⟨steps, left, read, hpair⟩ := h
    cases hpair
    exact ⟨steps, rfl, read⟩
  unfold readPath at h
  split at h
  · next known _ =>
    cases h
    exact .inl ⟨_, known, rfl, rfl⟩
  · next known _ =>
    split at h
    · exact .inr (follow h)
    · cases h
      exact .inl ⟨_, known, rfl, rfl⟩
  · exact .inr (follow h)

theorem reaches_of_readPath {p : Position} {name : String} {r after : Remaining} {node : Node}
    (h : readPath p name r = .ok (node, after)) : r.Reaches after := by
  rcases exists_of_readPath h with ⟨value, -, -, rfl⟩ | ⟨steps, -, read⟩
  · exact .refl _
  · exact reaches_of_readSteps read

end Expression

end Templating
