import Templating.Proofs.Template.Passage

/-!
# The grammar of expressions

`Reads` derives what an expression or the parameters of a call are and where they end.  Reading
with enough fuel gives exactly what can be derived, so that proofs about what is read go by
induction on the derivation and never see the fuel.
-/

namespace Templating

namespace Remaining

def AtEnd (r : Remaining) : Prop := r.skipBlanks.chars = []

theorem expectEnd_eq_ok_iff {r : Remaining} {u : Unit} : r.expectEnd = .ok u ↔ r.AtEnd := by
  unfold expectEnd AtEnd
  cases hchars : r.skipBlanks.chars <;> simp [hchars, fail]

end Remaining

namespace Expression

open Remaining

/-! ## What begins an expression -/

theorem range_of_isNameStart {c : Char} (h : isNameStart c = true) :
    58 ≤ c.toNat ∧ c.toNat < 128 := by
  have letter : c.isAlpha = (decide (c.val ≥ 65 ∧ c.val ≤ 90) ||
      decide (c.val ≥ 97) && decide (c.val ≤ 122)) := rfl
  simp only [isNameStart, letter, Bool.or_eq_true, decide_eq_true_eq, beq_iff_eq, ge_iff_le,
    UInt32.le_iff_toNat_le] at h
  have code : c.toNat = c.val.toNat := rfl
  rcases h with h | rfl
  · simp at h
    omega
  · decide

theorem digitValue?_of_isNameStart {c : Char} (h : isNameStart c = true) :
    Text.digitValue? c = none := by
  have range := range_of_isNameStart h
  cases digit : Text.digitValue? c with
  | none => rfl
  | some d =>
      simp only [Text.digitValue?, Option.map_eq_some_iff] at digit
      obtain ⟨first, found, -⟩ := digit
      have near := List.find?_some found
      have known : ∀ first ∈ Text.digitZeros, first = 48 ∨ 128 ≤ first := by decide
      simp only [Bool.and_eq_true, decide_eq_true_eq] at near
      rcases known first (List.mem_of_find?_eq_some found) with rfl | large <;> omega

theorem splitSigned?_eq_none {c : Char} {rest : List Char} (sign : c ≠ '-')
    (digit : Text.digitValue? c = none) : splitSigned? (c :: rest) = none := by
  have none : Number.spanDigits (c :: rest) = ([], c :: rest) := by
    simp [Number.spanDigits, digit]
  unfold splitSigned?
  split
  · next tail heq =>
    cases heq
    exact absurd rfl sign
  · simp [none]

theorem readNumber?_of_splitName? {r : Remaining} {name : String} {rest : List Char}
    (h : splitName? r.chars = some (name, rest)) : readNumber? r = none := by
  cases hchars : r.chars with
  | nil =>
      rw [hchars] at h
      cases h
  | cons c cs =>
      have start : isNameStart c = true := by
        by_cases start : isNameStart c = true
        · exact start
        · simp [hchars, splitName?, start] at h
      have sign : c ≠ '-' := by
        rintro rfl
        exact absurd start (by decide)
      simp [readNumber?, hchars, splitSigned?_eq_none sign (digitValue?_of_isNameStart start)]

theorem readNumber?_of_isQuote {r : Remaining} {quote : Char} {rest : List Char}
    (hchars : r.chars = quote :: rest) (h : isQuote quote = true) : readNumber? r = none := by
  have either := isQuote_iff.1 h
  have split : splitSigned? (quote :: rest) = none := by
    rcases either with rfl | rfl <;> exact splitSigned?_eq_none (by decide) (by decide)
  simp [readNumber?, hchars, split]

theorem isQuote_of_splitSigned? {c : Char} {rest : List Char}
    {found : Bool × List Nat × Nat × List Char} (h : splitSigned? (c :: rest) = some found) :
    isQuote c = false := by
  cases quote : isQuote c with
  | false => rfl
  | true =>
      have none := readNumber?_of_isQuote (r := ⟨c :: rest, .start⟩) rfl quote
      simp [readNumber?, h] at none

theorem isQuote_of_splitName? {c : Char} {cs rest : List Char} {name : String}
    (h : splitName? (c :: cs) = some (name, rest)) : isQuote c = false := by
  cases hquote : isQuote c with
  | false => rfl
  | true =>
      rcases isQuote_iff.1 hquote with rfl | rfl <;> simp [splitName?, isNameStart] at h

/-! ## Derivations -/

inductive Phrase
  | expression (node : Node)
  /-- What follows the opening parenthesis of a call, up to the closing one. -/
  | arguments (params : List Node)
  /-- The same, but at least one parameter. -/
  | list (params : List Node)

/-- What stands at the first place is the phrase, and the second place follows it. -/
inductive Reads : Remaining → Phrase → Remaining → Prop
  | string {r after : Remaining} {quote : Char} {rest : List Char} {content : String} :
      r.skipBlanks.chars = quote :: rest → isQuote quote = true →
      readString r.skipBlanks quote rest = .ok (content, after) →
      Reads r (.expression (.constant r.skipBlanks.position (.string content))) after
  | number {r after : Remaining} {value : Value} :
      readNumber? r.skipBlanks = some (.ok (value, after)) →
      Reads r (.expression (.constant r.skipBlanks.position value)) after
  | path {r after : Remaining} {name : String} {rest : List Char} {node : Node} :
      splitName? r.skipBlanks.chars = some (name, rest) →
      (r.skipBlanks.jump name.length rest).take? '(' = none →
      readPath r.skipBlanks.position name (r.skipBlanks.jump name.length rest) =
        .ok (node, after) →
      Reads r (.expression node) after
  | call {r inside after : Remaining} {name : String} {rest : List Char} {params : List Node} :
      splitName? r.skipBlanks.chars = some (name, rest) →
      (r.skipBlanks.jump name.length rest).take? '(' = some inside →
      Reads inside (.arguments params) after →
      Reads r (.expression (.tag r.skipBlanks.position name params none none)) after
  | noArguments {r after : Remaining} :
      r.skipBlanks.take? ')' = some after → Reads r (.arguments []) after
  | someArguments {r after : Remaining} {params : List Node} :
      r.skipBlanks.take? ')' = none → Reads r.skipBlanks (.list params) after →
      Reads r (.arguments params) after
  | last {r mid after : Remaining} {node : Node} :
      Reads r (.expression node) mid → mid.skipBlanks.take? ')' = some after →
      Reads r (.list [node]) after
  | more {r mid next after : Remaining} {node : Node} {params : List Node} :
      Reads r (.expression node) mid → mid.skipBlanks.take? ')' = none →
      mid.skipBlanks.take? ',' = some next → Reads next (.list params) after →
      Reads r (.list (node :: params)) after

namespace Reads

variable {r after : Remaining} {phrase : Phrase}

/-- Every phrase takes at least one character. -/
theorem reaches (h : Reads r phrase after) :
    r.Reaches after ∧ after.chars.length < r.chars.length := by
  have begin (r : Remaining) := reaches_skipBlanks r
  induction h with
  | @string r after quote rest content hchars quoted read =>
      obtain ⟨reaches, shorter⟩ := reaches_of_readString quoted hchars read
      exact ⟨(begin r).trans reaches, Nat.lt_of_lt_of_le shorter (begin r).length_le⟩
  | @number r after value read =>
      obtain ⟨reaches, shorter⟩ := reaches_of_readNumber? read
      exact ⟨(begin r).trans reaches, Nat.lt_of_lt_of_le shorter (begin r).length_le⟩
  | @path r after name rest node split _ read =>
      have named := reaches_of_splitName? split
      have shorter := length_of_splitName? split
      have reaches := reaches_of_readPath read
      have bound := reaches.length_le
      have whole := (begin r).length_le
      refine ⟨(begin r).trans (named.trans reaches), ?_⟩
      simp only [jump] at bound
      omega
  | @call r inside after name rest params split paren _ ih =>
      obtain ⟨reaches, shorter⟩ := ih
      have named := reaches_of_splitName? split
      have opened := reaches_of_take? (by decide) paren
      refine ⟨(begin r).trans (named.trans (opened.trans reaches)), ?_⟩
      exact Nat.lt_of_lt_of_le shorter ((begin r).trans (named.trans opened)).length_le
  | @noArguments r after paren =>
      refine ⟨(begin r).trans (reaches_of_take? (by decide) paren), ?_⟩
      have whole := (begin r).length_le
      rw [length_of_take? paren] at whole
      exact whole
  | @someArguments r after params _ _ ih =>
      exact ⟨(begin r).trans ih.1, Nat.lt_of_lt_of_le ih.2 (begin r).length_le⟩
  | @last r mid after node _ paren ih =>
      have closed := (begin mid).trans (reaches_of_take? (by decide) paren)
      exact ⟨ih.1.trans closed, Nat.lt_of_le_of_lt closed.length_le ih.2⟩
  | @more r mid next after node params _ _ comma _ ih ih' =>
      have comma := (begin mid).trans (reaches_of_take? (by decide) comma)
      have rest := comma.trans ih'.1
      exact ⟨ih.1.trans rest, Nat.lt_of_le_of_lt rest.length_le ih.2⟩

theorem of_skipBlanks {r r' after : Remaining} {phrase : Phrase} (h : Reads r phrase after)
    (same : r'.skipBlanks = r.skipBlanks) : Reads r' phrase after := by
  induction h generalizing r' with
  | string hchars quote read =>
      rw [← same] at hchars read ⊢
      exact .string hchars quote read
  | number read =>
      rw [← same] at read ⊢
      exact .number read
  | path split paren read =>
      rw [← same] at split paren read
      exact .path split paren read
  | call split paren reads =>
      rw [← same] at split paren ⊢
      exact .call split paren reads
  | noArguments paren =>
      rw [← same] at paren
      exact .noArguments paren
  | someArguments paren reads =>
      rw [← same] at paren reads
      exact .someArguments paren reads
  | last _ paren ih => exact .last (ih same) paren
  | more _ paren comma reads ih => exact .more (ih same) paren comma reads

end Reads

/-! ## Reading and derivations agree -/

/-- Whatever the fuel, what is read can be derived. -/
theorem reads_of_fuel (fuel : Nat) :
    (∀ r node after, readWithin fuel r = .ok (node, after) → Reads r (.expression node) after) ∧
      (∀ r params after, readArguments fuel r = .ok (params, after) →
        Reads r (.arguments params) after) ∧
      (∀ r params after, readList fuel r = .ok (params, after) → Reads r (.list params) after) := by
  induction fuel with
  | zero =>
      refine ⟨?_, ?_, ?_⟩
      · intro r node after h
        cases h
      · intro r params after h
        cases h
      · intro r params after h
        cases h
  | succ fuel ih =>
      obtain ⟨expression, arguments, list⟩ := ih
      refine ⟨?_, ?_, ?_⟩
      · intro r node after h
        rw [readWithin] at h
        simp only at h
        split at h
        · cases h
        next c rest hchars =>
        split at h
        · next quote =>
          simp only [bind_eq_ok_iff, pure_eq_ok_iff, Prod.exists] at h
          obtain ⟨content, left, read, hpair⟩ := h
          cases hpair
          exact .string hchars quote read
        split at h
        · next reading number =>
          simp only [bind_eq_ok_iff, pure_eq_ok_iff, Prod.exists] at h
          obtain ⟨value, left, rfl, hpair⟩ := h
          cases hpair
          exact .number number
        split at h
        · cases h
        next name rest split =>
        split at h
        · next inside paren =>
          simp only [bind_eq_ok_iff, pure_eq_ok_iff, Prod.exists] at h
          obtain ⟨params, left, read, hpair⟩ := h
          cases hpair
          exact .call split paren (arguments _ _ _ read)
        · next paren => exact .path split paren h
      · intro r params after h
        rw [readArguments] at h
        split at h
        · next paren =>
          cases h
          exact .noArguments paren
        · next paren => exact .someArguments paren (list _ _ _ h)
      · intro r params after h
        rw [readList] at h
        simp only [bind_eq_ok_iff, Prod.exists] at h
        obtain ⟨first, mid, read, h⟩ := h
        split at h
        · next paren =>
          simp only [pure_eq_ok_iff] at h
          cases h
          exact .last (expression _ _ _ read) paren
        · next paren =>
          split at h
          · cases h
          · next next comma =>
            simp only [bind_eq_ok_iff, pure_eq_ok_iff, Prod.exists] at h
            obtain ⟨others, left, more, hpair⟩ := h
            cases hpair
            exact .more (expression _ _ _ read) paren comma (list _ _ _ more)

theorem readWithin_of_readNumber? {fuel : Nat} {r : Remaining}
    {reading : Except ReadFailure (Value × Remaining)}
    (h : readNumber? r.skipBlanks = some reading) :
    readWithin (fuel + 1) r = reading >>= fun found =>
      pure (.constant r.skipBlanks.position found.1, found.2) := by
  rw [readWithin]
  cases hchars : r.skipBlanks.chars with
  | nil => simp [readNumber?, hchars, splitSigned?, Number.spanDigits] at h
  | cons c rest =>
      have plain : isQuote c = false := by
        cases quote : isQuote c with
        | false => rfl
        | true =>
            rw [readNumber?_of_isQuote hchars quote] at h
            cases h
      simp only [plain, h]
      rfl

theorem readWithin_of_splitName? {fuel : Nat} {r : Remaining} {name : String} {rest : List Char}
    (h : splitName? r.skipBlanks.chars = some (name, rest)) :
    readWithin (fuel + 1) r =
      match (r.skipBlanks.jump name.length rest).take? '(' with
      | some inside => readArguments fuel inside >>= fun found =>
          pure (.tag r.skipBlanks.position name found.1 none none, found.2)
      | none => readPath r.skipBlanks.position name (r.skipBlanks.jump name.length rest) := by
  have number := readNumber?_of_splitName? h
  rw [readWithin]
  cases hchars : r.skipBlanks.chars with
  | nil => simp [splitName?, hchars] at h
  | cons c rest =>
      rw [hchars] at h
      simp only [isQuote_of_splitName? h, number, h]
      rfl

theorem exists_fuel {fuel bound : Nat} (positive : 0 < bound) (enough : bound ≤ fuel) :
    ∃ less, fuel = less + 1 :=
  ⟨fuel - 1, by omega⟩

/-- Each character of what is left pays for three calls: what can be derived is read. -/
theorem Reads.fuel {r after : Remaining} {phrase : Phrase} (h : Reads r phrase after) :
    match phrase with
    | .expression node =>
      ∀ fuel, 3 * r.chars.length ≤ fuel → readWithin fuel r = .ok (node, after)
    | .arguments params =>
      ∀ fuel, 3 * r.chars.length + 2 ≤ fuel → readArguments fuel r = .ok (params, after)
    | .list params =>
      ∀ fuel, 3 * r.chars.length + 1 ≤ fuel → readList fuel r = .ok (params, after) := by
  -- White space costs no fuel, so each case counts from where the white space ends.
  have begin (r : Remaining) := (reaches_skipBlanks r).length_le
  induction h with
  | @string r after quote rest content hchars quoted read =>
      intro fuel enough
      have nonempty := begin r
      rw [hchars, List.length_cons] at nonempty
      obtain ⟨fuel, rfl⟩ := exists_fuel (by omega) enough
      rw [readWithin_of_isQuote hchars quoted, read]
      rfl
  | @number r after value read =>
      intro fuel enough
      have shorter := (reaches_of_readNumber? read).2
      have whole := begin r
      obtain ⟨fuel, rfl⟩ := exists_fuel (by omega) enough
      rw [readWithin_of_readNumber? read]
      rfl
  | @path r after name rest node split paren read =>
      intro fuel enough
      have shorter := length_of_splitName? split
      have whole := begin r
      obtain ⟨fuel, rfl⟩ := exists_fuel (by omega) enough
      rw [readWithin_of_splitName? split]
      simp only [paren, read]
  | @call r inside after name rest params split paren reads ih =>
      intro fuel enough
      have shorter := length_of_splitName? split
      have opened := length_of_take? paren
      have whole := begin r
      simp only [jump] at opened
      obtain ⟨fuel, rfl⟩ := exists_fuel (by omega) enough
      rw [readWithin_of_splitName? split]
      simp only [paren, ih fuel (by omega)]
      rfl
  | @noArguments r after paren =>
      intro fuel enough
      obtain ⟨fuel, rfl⟩ := exists_fuel (by omega) enough
      rw [readArguments]
      simp only [paren]
  | @someArguments r after params paren _ ih =>
      intro fuel enough
      have whole := begin r
      obtain ⟨fuel, rfl⟩ := exists_fuel (by omega) enough
      rw [readArguments]
      simp only [paren]
      exact ih fuel (by omega)
  | @last r mid after node _ paren ih =>
      intro fuel enough
      obtain ⟨fuel, rfl⟩ := exists_fuel (by omega) enough
      rw [readList, ih fuel (by omega)]
      simp only [bind, Except.bind, paren]
      rfl
  | @more r mid next after node params reads paren comma _ ih ih' =>
      intro fuel enough
      obtain ⟨fuel, rfl⟩ := exists_fuel (by omega) enough
      have first := reads.reaches.2
      have whole := begin mid
      have shorter := length_of_take? comma
      rw [readList, ih fuel (by omega)]
      simp only [bind, Except.bind, paren, comma, ih' fuel (by omega)]
      rfl

theorem read_eq_ok_iff {r after : Remaining} {node : Node} :
    read r = .ok (node, after) ↔ Reads r (.expression node) after := by
  constructor
  · exact (reads_of_fuel (fuelFor r)).1 r node after
  · intro h
    exact h.fuel (fuelFor r) (by unfold fuelFor; omega)

theorem readArguments_eq_ok_iff {r after : Remaining} {params : List Node} :
    readArguments (fuelFor r) r = .ok (params, after) ↔ Reads r (.arguments params) after := by
  constructor
  · exact (reads_of_fuel (fuelFor r)).2.1 r params after
  · intro h
    exact h.fuel (fuelFor r) (by unfold fuelFor; omega)

/-! ## Parameters of a tag -/

/-- Each after a comma, up to the end. -/
inductive ReadsToEnd : Remaining → List Node → Prop
  | nil {r : Remaining} : r.AtEnd → ReadsToEnd r []
  | cons {r next after : Remaining} {node : Node} {params : List Node} :
      r.skipBlanks.take? ',' = some next → Reads next (.expression node) after →
      ReadsToEnd after params → ReadsToEnd r (node :: params)

/-- What follows the name of a tag up to its end are the parameters. -/
inductive Parameters : Remaining → List Node → Prop
  | none {r : Remaining} : r.AtEnd → Parameters r []
  | inParentheses {r inside after : Remaining} {params : List Node} :
      r.skipBlanks.take? '(' = some inside → Reads inside (.arguments params) after →
      after.AtEnd → Parameters r params
  | listed {r after : Remaining} {node : Node} {params : List Node} :
      r.skipBlanks.take? '(' = none → Reads r.skipBlanks (.expression node) after →
      ReadsToEnd after params → Parameters r (node :: params)

theorem readToEnd_eq_ok_iff {fuel : Nat} {r : Remaining} {params : List Node}
    (enough : r.chars.length < fuel) : readToEnd fuel r = .ok params ↔ ReadsToEnd r params := by
  induction fuel generalizing r params with
  | zero => omega
  | succ fuel ih =>
      have whole := (reaches_skipBlanks r).length_le
      rw [readToEnd]
      cases hchars : r.skipBlanks.chars with
      | nil =>
          constructor
          · intro h
            cases h
            exact .nil hchars
          · intro h
            cases h with
            | nil => rfl
            | cons comma => simp [take?, hchars] at comma
      | cons c rest =>
          constructor
          · intro h
            simp only at h
            split at h
            · cases h
            next next comma =>
            simp only [bind_eq_ok_iff, pure_eq_ok_iff, Prod.exists, read_eq_ok_iff] at h
            obtain ⟨node, after, first, others, more, rfl⟩ := h
            have shorter := length_of_take? comma
            have consumed := first.reaches.2
            exact .cons comma first ((ih (by omega)).1 more)
          · intro h
            cases h with
            | nil blank => simp [AtEnd, hchars] at blank
            | @cons _ next after node params comma first more =>
                have shorter := length_of_take? comma
                have consumed := first.reaches.2
                simp only [comma, read_eq_ok_iff.2 first, bind, Except.bind,
                  (ih (by omega)).2 more]
                rfl

theorem readParameters_eq_ok_iff {r : Remaining} {params : List Node} :
    readParameters r = .ok params ↔ Parameters r params := by
  unfold readParameters
  simp only
  cases paren : r.skipBlanks.take? '(' with
  | some inside =>
      simp only [bind_eq_ok_iff, pure_eq_ok_iff, Prod.exists, readArguments_eq_ok_iff,
        expectEnd_eq_ok_iff]
      constructor
      · rintro ⟨params, after, reads, -, blank, rfl⟩
        exact .inParentheses paren reads blank
      · intro h
        cases h with
        | none blank => simp [take?, show r.skipBlanks.chars = [] from blank] at paren
        | inParentheses paren' reads blank =>
            cases paren.symm.trans paren'
            exact ⟨params, _, reads, (), blank, rfl⟩
        | listed closed => simp [closed] at paren
  | none =>
      cases hchars : r.skipBlanks.chars with
      | nil =>
          simp only [List.isEmpty_nil, if_true, Except.ok.injEq]
          constructor
          · rintro rfl
            exact .none hchars
          · intro h
            cases h with
            | none => rfl
            | inParentheses opened => simp [opened] at paren
            | listed _ first =>
                have consumed := first.reaches.2
                simp [hchars] at consumed
      | cons c rest =>
          simp only [List.isEmpty_cons, Bool.false_eq_true, if_false, bind_eq_ok_iff,
            pure_eq_ok_iff, Prod.exists, read_eq_ok_iff]
          constructor
          · rintro ⟨node, after, first, others, more, rfl⟩
            rw [← hchars] at more
            exact .listed paren first ((readToEnd_eq_ok_iff first.reaches.2).1 more)
          · intro h
            cases h with
            | none blank => simp [AtEnd, hchars] at blank
            | inParentheses opened => simp [opened] at paren
            | @listed after node params _ first more =>
                refine ⟨node, after, first, params, ?_, rfl⟩
                rw [← hchars]
                exact (readToEnd_eq_ok_iff first.reaches.2).2 more

end Expression

end Templating
