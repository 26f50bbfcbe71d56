import Templating.Proofs.Template.Grammar

/-!
# Integers too long to read

The text of an integer may have more digits than are read.  This is the one failure of reading
expressions that is no syntax error, and the predicates here say when they come to it: everything
before is read, and the digits stand where an integer is expected.
-/

namespace Templating

namespace Expression

open Remaining

/-! ## The digits of an integer -/

theorem readIntegerOf_eq_error_iff {negative : Bool} {digits : List Nat} {failure : ReadFailure} :
    readIntegerOf negative digits = .error failure ↔
      Number.digitLimit < digits.length ∧
        failure = .fault (.integerTextTooLong digits.length) := by
  unfold readIntegerOf Number.integerOf
  by_cases long : Number.digitLimit < digits.length
  · simp [long, eq_comm]
  · simp [long]

theorem expectEnd_ne_fault {r : Remaining} {f : Fault} : r.expectEnd ≠ .error (.fault f) := by
  unfold expectEnd
  cases hchars : r.skipBlanks.chars <;> simp [hchars, fail]

/-- An integer stands here as an expression, of more digits than are read. -/
def OverlongNumber (r : Remaining) (count : Nat) : Prop :=
  ∃ negative digits width rest, splitSigned? r.chars = some (negative, digits, width, rest) ∧
    (splitFraction rest).1 = [] ∧ splitExponent? (splitFraction rest).2 = none ∧
    digits.length = count ∧ Number.digitLimit < count

/-- The same in brackets. -/
def OverlongIndex (r : Remaining) (count : Nat) : Prop :=
  ∃ negative digits width rest, splitSigned? r.chars = some (negative, digits, width, rest) ∧
    digits.length = count ∧ Number.digitLimit < count

/-- The same after a point. -/
def OverlongStep (r : Remaining) (count : Nat) : Prop :=
  splitName? r.chars = none ∧ (Number.spanDigits r.chars).1.length = count ∧
    Number.digitLimit < count

theorem readNumber?_eq_error_iff {r : Remaining} {failure : ReadFailure} :
    readNumber? r = some (.error failure) ↔
      ∃ count, failure = .fault (.integerTextTooLong count) ∧ OverlongNumber r count := by
  unfold readNumber? OverlongNumber
  cases signed : splitSigned? r.chars with
  | none => simp
  | some found =>
      obtain ⟨negative, digits, width, rest⟩ := found
      cases exponent : splitExponent? (splitFraction rest).2 with
      | some found => simp [exponent]
      | none =>
          cases fraction : (splitFraction rest).1 with
          | cons d others => simp [exponent, fraction]
          | nil =>
              simp only [Option.map_some, Option.some.injEq, exponent, fraction, List.isEmpty_nil,
                if_true, map_eq_error_iff, readIntegerOf_eq_error_iff]
              constructor
              · rintro ⟨long, rfl⟩
                exact ⟨_, rfl, negative, digits, width, rest, rfl, fraction, exponent, rfl, long⟩
              · rintro ⟨count, rfl, _, _, _, _, same, -, -, rfl, long⟩
                cases same
                exact ⟨long, rfl⟩

theorem readNamedStep_eq_fault_iff {r : Remaining} {f : Fault} :
    readNamedStep r = .error (.fault f) ↔
      ∃ count, f = .integerTextTooLong count ∧ OverlongStep r count := by
  unfold readNamedStep OverlongStep
  cases split : splitName? r.chars with
  | some found => simp
  | none =>
      by_cases absent : (Number.spanDigits r.chars).1.isEmpty = true
      · have short : (Number.spanDigits r.chars).1.length = 0 := by
          rw [List.isEmpty_iff.1 absent]
          rfl
        simp [absent, short, fail, Number.digitLimit]
      · simp only [absent, Bool.false_eq_true, if_false, map_eq_error_iff,
          readIntegerOf_eq_error_iff, ReadFailure.fault.injEq, true_and]
        constructor
        · rintro ⟨long, rfl⟩
          exact ⟨_, rfl, rfl, long⟩
        · rintro ⟨count, rfl, rfl, long⟩
          exact ⟨long, rfl⟩

theorem readInside_eq_fault_iff {r : Remaining} {f : Fault} :
    readInside r = .error (.fault f) ↔
      ∃ count, f = .integerTextTooLong count ∧ OverlongIndex r count := by
  unfold readInside OverlongIndex
  cases hchars : r.chars with
  | nil => simp [splitSigned?, Number.spanDigits, fail]
  | cons c rest =>
      simp only
      cases signed : splitSigned? (c :: rest) with
      | none =>
          cases isQuote c with
          | false => simp [fail]
          | true =>
              simp only [if_true, map_eq_error_iff, readString]
              split <;> simp [fail]
      | some found =>
          obtain ⟨negative, digits, width, after⟩ := found
          simp only [isQuote_of_splitSigned? signed, Bool.false_eq_true, if_false, map_eq_error_iff,
            readIntegerOf_eq_error_iff, ReadFailure.fault.injEq]
          constructor
          · rintro ⟨long, rfl⟩
            exact ⟨_, rfl, negative, digits, width, after, rfl, rfl, long⟩
          · rintro ⟨count, rfl, _, _, _, _, same, rfl, long⟩
            cases same
            exact ⟨long, rfl⟩

theorem readBracketStep_eq_fault_iff {r : Remaining} {f : Fault} :
    readBracketStep r = .error (.fault f) ↔
      ∃ count, f = .integerTextTooLong count ∧ OverlongIndex r.skipBlanks count := by
  have closes (inside : Step × Remaining) : closeStep inside ≠ .error (.fault f) := by
    unfold closeStep
    cases inside.2.skipBlanks.take? ']' <;> simp [fail]
  rw [readBracketStep_eq, bind_eq_error_iff, readInside_eq_fault_iff]
  simp [closes]

/-! ## Paths -/

/-- The steps of a path from here on come to an integer of too many digits. -/
inductive OverlongSteps : Remaining → Nat → Prop
  | point {r : Remaining} {rest : List Char} {count : Nat} :
      r.chars = '.' :: rest → OverlongStep (r.jump 1 rest) count → OverlongSteps r count
  | bracket {r : Remaining} {rest : List Char} {count : Nat} :
      r.chars = '[' :: rest → OverlongIndex (r.jump 1 rest).skipBlanks count →
      OverlongSteps r count
  | afterPoint {r next : Remaining} {rest : List Char} {step : Step} {count : Nat} :
      r.chars = '.' :: rest → readNamedStep (r.jump 1 rest) = .ok (step, next) →
      OverlongSteps next count → OverlongSteps r count
  | afterBracket {r next : Remaining} {rest : List Char} {step : Step} {count : Nat} :
      r.chars = '[' :: rest → readBracketStep (r.jump 1 rest) = .ok (step, next) →
      OverlongSteps next count → OverlongSteps r count

theorem OverlongSteps.head {r : Remaining} {count : Nat} (h : OverlongSteps r count) :
    ∃ c rest, r.chars = c :: rest ∧ (c = '.' ∨ c = '[') := by
  cases h with
  | point hchars | afterPoint hchars => exact ⟨_, _, hchars, .inl rfl⟩
  | bracket hchars | afterBracket hchars => exact ⟨_, _, hchars, .inr rfl⟩

theorem OverlongSteps.limit {r : Remaining} {count : Nat} (h : OverlongSteps r count) :
    Number.digitLimit < count := by
  induction h with
  | point _ overlong => exact overlong.2.2
  | bracket _ overlong =>
      obtain ⟨_, _, _, _, _, _, long⟩ := overlong
      exact long
  | afterPoint _ _ _ ih | afterBracket _ _ _ ih => exact ih

theorem readSteps_eq_fault_iff {fuel : Nat} {r : Remaining} (enough : r.chars.length ≤ fuel)
    {f : Fault} :
    readSteps fuel r = .error (.fault f) ↔
      ∃ count, f = .integerTextTooLong count ∧ OverlongSteps r count := by
  induction fuel generalizing r with
  | zero =>
      have empty := List.eq_nil_of_length_eq_zero (Nat.le_zero.1 enough)
      constructor
      · intro h
        cases h
      · rintro ⟨count, -, overlong⟩
        obtain ⟨c, rest, hchars, -⟩ := overlong.head
        simp [empty] at hchars
  | succ fuel ih =>
      rw [readSteps]
      split
      · next rest hchars =>
        -- A step that was read leaves less than the fuel, which the hypothesis asks for.
        have later {step : Step} {next : Remaining}
            (first : readNamedStep (r.jump 1 rest) = .ok (step, next)) :
            next.chars.length ≤ fuel := by
          have shorter := (reaches_of_readNamedStep first).2
          rw [hchars, List.length_cons] at enough
          simp only [jump] at shorter
          omega
        simp only [bind_eq_error_iff, readNamedStep_eq_fault_iff, Prod.exists, pure_ne_error,
          and_false, exists_false, or_false]
        constructor
        · rintro (⟨count, rfl, overlong⟩ | ⟨step, next, first, others⟩)
          · exact ⟨count, rfl, .point hchars overlong⟩
          · obtain ⟨count, rfl, overlong⟩ := (ih (later first)).1 others
            exact ⟨count, rfl, .afterPoint hchars first overlong⟩
        · rintro ⟨count, rfl, overlong⟩
          cases overlong with
          | point hchars' overlong =>
              cases hchars.symm.trans hchars'
              exact .inl ⟨count, rfl, overlong⟩
          | afterPoint hchars' first overlong =>
              cases hchars.symm.trans hchars'
              exact .inr ⟨_, _, first, (ih (later first)).2 ⟨count, rfl, overlong⟩⟩
          | bracket hchars' | afterBracket hchars' => cases hchars.symm.trans hchars'
      · next rest hchars =>
        have later {step : Step} {next : Remaining}
            (first : readBracketStep (r.jump 1 rest) = .ok (step, next)) :
            next.chars.length ≤ fuel := by
          have shorter := (reaches_of_readBracketStep first).2
          rw [hchars, List.length_cons] at enough
          simp only [jump] at shorter
          omega
        simp only [bind_eq_error_iff, readBracketStep_eq_fault_iff, Prod.exists, pure_ne_error,
          and_false, exists_false, or_false]
        constructor
        · rintro (⟨count, rfl, overlong⟩ | ⟨step, next, first, others⟩)
          · exact ⟨count, rfl, .bracket hchars overlong⟩
          · obtain ⟨count, rfl, overlong⟩ := (ih (later first)).1 others
            exact ⟨count, rfl, .afterBracket hchars first overlong⟩
        · rintro ⟨count, rfl, overlong⟩
          cases overlong with
          | bracket hchars' overlong =>
              cases hchars.symm.trans hchars'
              exact .inl ⟨count, rfl, overlong⟩
          | afterBracket hchars' first overlong =>
              cases hchars.symm.trans hchars'
              exact .inr ⟨_, _, first, (ih (later first)).2 ⟨count, rfl, overlong⟩⟩
          | point hchars' | afterPoint hchars' => cases hchars.symm.trans hchars'
      · next noPoint noBracket =>
        constructor
        · intro h
          cases h
        · rintro ⟨count, -, overlong⟩
          obtain ⟨c, rest, hchars, rfl | rfl⟩ := overlong.head
          · exact absurd hchars (noPoint rest)
          · exact absurd hchars (noBracket rest)

theorem readPath_eq_fault_iff {p : Position} {name : String} {r : Remaining} {f : Fault} :
    readPath p name r = .error (.fault f) ↔
      ∃ count, f = .integerTextTooLong count ∧ OverlongSteps r count := by
  have follow : readPath.follow p name r = .error (.fault f) ↔
      ∃ count, f = .integerTextTooLong count ∧ OverlongSteps r count := by
    rw [readPath.follow, bind_eq_error_iff, readSteps_eq_fault_iff (Nat.le_refl _)]
    simp [pure_ne_error]
  unfold readPath
  split
  · next value keyword hchars =>
    constructor
    · intro h
      cases h
    · rintro ⟨count, -, overlong⟩
      obtain ⟨c, rest, nonempty, -⟩ := overlong.head
      cases hchars.symm.trans nonempty
  · next value c rest keyword hchars =>
    split
    · exact follow
    · next neither =>
      constructor
      · intro h
        cases h
      · rintro ⟨count, -, overlong⟩
        obtain ⟨d, others, nonempty, either⟩ := overlong.head
        cases hchars.symm.trans nonempty
        exact absurd either neither
  · exact follow

/-! ## Expressions -/

inductive Scope
  | expression
  | arguments
  | list

/-- Reading an expression, the rest of a call or the rest of its parameters comes to an integer of
too many digits. -/
inductive Overlong : Remaining → Scope → Nat → Prop
  | number {r : Remaining} {count : Nat} :
      OverlongNumber r.skipBlanks count → Overlong r .expression count
  | path {r : Remaining} {name : String} {rest : List Char} {count : Nat} :
      splitName? r.skipBlanks.chars = some (name, rest) →
      OverlongSteps (r.skipBlanks.jump name.length rest) count → Overlong r .expression count
  | call {r inside : Remaining} {name : String} {rest : List Char} {count : Nat} :
      splitName? r.skipBlanks.chars = some (name, rest) →
      (r.skipBlanks.jump name.length rest).take? '(' = some inside →
      Overlong inside .arguments count → Overlong r .expression count
  | arguments {r : Remaining} {count : Nat} :
      r.skipBlanks.take? ')' = none → Overlong r.skipBlanks .list count →
      Overlong r .arguments count
  | first {r : Remaining} {count : Nat} : Overlong r .expression count → Overlong r .list count
  | later {r mid next : Remaining} {node : Node} {count : Nat} :
      Reads r (.expression node) mid → mid.skipBlanks.take? ')' = none →
      mid.skipBlanks.take? ',' = some next → Overlong next .list count → Overlong r .list count

theorem overlong_of_fuel (fuel : Nat) :
    (∀ r f, readWithin fuel r = .error (.fault f) →
        ∃ count, f = .integerTextTooLong count ∧ Overlong r .expression count) ∧
      (∀ r f, readArguments fuel r = .error (.fault f) →
        ∃ count, f = .integerTextTooLong count ∧ Overlong r .arguments count) ∧
      (∀ r f, readList fuel r = .error (.fault f) →
        ∃ count, f = .integerTextTooLong count ∧ Overlong r .list count) := by
  induction fuel with
  | zero =>
      refine ⟨?_, ?_, ?_⟩
      · intro r f h
        cases h
      · intro r f h
        cases h
      · intro r f h
        cases h
  | succ fuel ih =>
      obtain ⟨expression, arguments, list⟩ := ih
      refine ⟨?_, ?_, ?_⟩
      · intro r f h
        rw [readWithin] at h
        simp only at h
        split at h
        · cases h
        next c rest hchars =>
        split at h
        · simp only [bind_eq_error_iff, pure_ne_error, and_false, exists_false, or_false,
            readString] at h
          split at h <;> cases h
        split at h
        · next reading number =>
          simp only [bind_eq_error_iff, pure_ne_error, and_false, exists_false, or_false] at h
          subst h
          obtain ⟨count, same, overlong⟩ := readNumber?_eq_error_iff.1 number
          cases same
          exact ⟨count, rfl, .number overlong⟩
        split at h
        · cases h
        next name rest split =>
        split at h
        · next inside paren =>
          simp only [bind_eq_error_iff, pure_ne_error, and_false, exists_false, or_false] at h
          obtain ⟨count, same, overlong⟩ := arguments _ _ h
          exact ⟨count, same, .call split paren overlong⟩
        · next paren =>
          obtain ⟨count, same, overlong⟩ := readPath_eq_fault_iff.1 h
          exact ⟨count, same, .path split overlong⟩
      · intro r f h
        rw [readArguments] at h
        split at h
        · cases h
        · next paren =>
          obtain ⟨count, same, overlong⟩ := list _ _ h
          exact ⟨count, same, .arguments paren overlong⟩
      · intro r f h
        rw [readList] at h
        simp only [bind_eq_error_iff, Prod.exists] at h
        rcases h with h | ⟨node, mid, read, h⟩
        · obtain ⟨count, same, overlong⟩ := expression _ _ h
          exact ⟨count, same, .first overlong⟩
        · split at h
          · cases h
          next paren =>
          split at h
          · cases h
          next next comma =>
          simp only [bind_eq_error_iff, pure_ne_error, and_false, exists_false, or_false] at h
          obtain ⟨count, same, overlong⟩ := list _ _ h
          have reads := (reads_of_fuel fuel).1 r node mid read
          exact ⟨count, same, .later reads paren comma overlong⟩

/-- Enough fuel comes to the integer. -/
theorem Overlong.fuel {r : Remaining} {scope : Scope} {count : Nat} (h : Overlong r scope count) :
    match scope with
    | .expression =>
      ∀ fuel, 3 * r.chars.length ≤ fuel →
        readWithin fuel r = .error (.fault (.integerTextTooLong count))
    | .arguments =>
      ∀ fuel, 3 * r.chars.length + 2 ≤ fuel →
        readArguments fuel r = .error (.fault (.integerTextTooLong count))
    | .list =>
      ∀ fuel, 3 * r.chars.length + 1 ≤ fuel →
        readList fuel r = .error (.fault (.integerTextTooLong count)) := by
  have begin (r : Remaining) := (reaches_skipBlanks r).length_le
  induction h with
  | @number r count overlong =>
      intro fuel enough
      have whole := begin r
      have read := readNumber?_eq_error_iff.2 ⟨count, rfl, overlong⟩
      obtain ⟨negative, digits, width, rest, signed, -⟩ := overlong
      obtain ⟨passed, hpassed, -, -, nonempty⟩ := exists_of_splitSigned? signed
      have positive := List.length_pos_iff.2 nonempty
      have total := congrArg List.length hpassed
      rw [List.length_append] at total
      obtain ⟨fuel, rfl⟩ := exists_fuel (by omega) enough
      rw [readWithin_of_readNumber? read]
      rfl
  | @path r name rest count split overlong =>
      intro fuel enough
      have shorter := length_of_splitName? split
      have whole := begin r
      obtain ⟨fuel, rfl⟩ := exists_fuel (by omega) enough
      have paren : (r.skipBlanks.jump name.length rest).take? '(' = none := by
        obtain ⟨c, others, hchars, rfl | rfl⟩ := overlong.head <;> simp [take?, hchars]
      rw [readWithin_of_splitName? split]
      simp only [paren]
      exact readPath_eq_fault_iff.2 ⟨count, rfl, overlong⟩
  | @call r inside name rest count split paren _ ih =>
      intro fuel enough
      have shorter := length_of_splitName? split
      have opened := length_of_take? paren
      have whole := begin r
      simp only [jump] at opened
      obtain ⟨fuel, rfl⟩ := exists_fuel (by omega) enough
      rw [readWithin_of_splitName? split]
      simp only [paren, ih fuel (by omega)]
      rfl
  | @arguments r count paren _ ih =>
      intro fuel enough
      have whole := begin r
      obtain ⟨fuel, rfl⟩ := exists_fuel (by omega) enough
      rw [readArguments]
      simp only [paren]
      exact ih fuel (by omega)
  | @first r count _ ih =>
      intro fuel enough
      obtain ⟨fuel, rfl⟩ := exists_fuel (by omega) enough
      rw [readList, ih fuel (by omega)]
      rfl
  | @later r mid next node count reads paren comma _ ih =>
      intro fuel enough
      obtain ⟨fuel, rfl⟩ := exists_fuel (by omega) enough
      have first := reads.reaches.2
      have whole := begin mid
      have shorter := length_of_take? comma
      rw [readList, reads.fuel fuel (by omega)]
      simp only [bind, Except.bind, paren, comma, ih fuel (by omega)]

theorem Overlong.limit {r : Remaining} {scope : Scope} {count : Nat}
    (h : Overlong r scope count) : Number.digitLimit < count := by
  induction h with
  | number overlong =>
      obtain ⟨_, _, _, _, _, _, _, _, long⟩ := overlong
      exact long
  | path _ overlong => exact overlong.limit
  | call _ _ _ ih | arguments _ _ ih | first _ ih | later _ _ _ _ ih => exact ih

theorem Overlong.nonempty {r : Remaining} {count : Nat} (h : Overlong r .expression count) :
    r.chars ≠ [] := by
  intro empty
  have read := h.fuel 0 (by simp [empty])
  cases read

theorem read_eq_fault_iff {r : Remaining} {f : Fault} :
    read r = .error (.fault f) ↔
      ∃ count, f = .integerTextTooLong count ∧ Overlong r .expression count := by
  constructor
  · exact (overlong_of_fuel (fuelFor r)).1 r f
  · rintro ⟨count, rfl, overlong⟩
    exact overlong.fuel (fuelFor r) (by unfold fuelFor; omega)

theorem readArguments_eq_fault_iff {r : Remaining} {f : Fault} :
    readArguments (fuelFor r) r = .error (.fault f) ↔
      ∃ count, f = .integerTextTooLong count ∧ Overlong r .arguments count := by
  constructor
  · exact (overlong_of_fuel (fuelFor r)).2.1 r f
  · rintro ⟨count, rfl, overlong⟩
    exact overlong.fuel (fuelFor r) (by unfold fuelFor; omega)

/-! ## Parameters of a tag -/

/-- The further parameters of a tag come to an integer of too many digits. -/
inductive OverlongToEnd : Remaining → Nat → Prop
  | first {r next : Remaining} {count : Nat} :
      r.skipBlanks.take? ',' = some next → Overlong next .expression count → OverlongToEnd r count
  | later {r next after : Remaining} {node : Node} {count : Nat} :
      r.skipBlanks.take? ',' = some next → Reads next (.expression node) after →
      OverlongToEnd after count → OverlongToEnd r count

/-- The parameters of a tag come to an integer of too many digits. -/
inductive OverlongParameters : Remaining → Nat → Prop
  | inParentheses {r inside : Remaining} {count : Nat} :
      r.skipBlanks.take? '(' = some inside → Overlong inside .arguments count →
      OverlongParameters r count
  | first {r : Remaining} {count : Nat} :
      r.skipBlanks.take? '(' = none → Overlong r.skipBlanks .expression count →
      OverlongParameters r count
  | later {r after : Remaining} {node : Node} {count : Nat} :
      r.skipBlanks.take? '(' = none → Reads r.skipBlanks (.expression node) after →
      OverlongToEnd after count → OverlongParameters r count

theorem OverlongToEnd.limit {r : Remaining} {count : Nat} (h : OverlongToEnd r count) :
    Number.digitLimit < count := by
  induction h with
  | first _ overlong => exact overlong.limit
  | later _ _ _ ih => exact ih

theorem OverlongParameters.limit {r : Remaining} {count : Nat} (h : OverlongParameters r count) :
    Number.digitLimit < count := by
  cases h with
  | inParentheses _ overlong | first _ overlong => exact overlong.limit
  | later _ _ overlong => exact overlong.limit

theorem readToEnd_eq_fault_iff {fuel : Nat} {r : Remaining} (enough : r.chars.length < fuel)
    {f : Fault} :
    readToEnd fuel r = .error (.fault f) ↔
      ∃ count, f = .integerTextTooLong count ∧ OverlongToEnd r count := by
  induction fuel generalizing r with
  | zero => omega
  | succ fuel ih =>
      have whole := (reaches_skipBlanks r).length_le
      rw [readToEnd]
      cases hchars : r.skipBlanks.chars with
      | nil =>
          constructor
          · intro h
            cases h
          · rintro ⟨count, -, overlong⟩
            cases overlong with
            | first comma | later comma => simp [take?, hchars] at comma
      | cons c rest =>
          simp only
          cases comma : r.skipBlanks.take? ',' with
          | none =>
              constructor
              · intro h
                cases h
              · rintro ⟨count, -, overlong⟩
                cases overlong with
                | first comma' | later comma' => simp [comma] at comma'
          | some next =>
              have later {node : Node} {after : Remaining}
                  (first : Reads next (.expression node) after) : after.chars.length < fuel := by
                have shorter := length_of_take? comma
                have consumed := first.reaches.2
                omega
              simp only [bind_eq_error_iff, read_eq_fault_iff, read_eq_ok_iff, Prod.exists,
                pure_ne_error, and_false, exists_false, or_false]
              constructor
              · rintro (⟨count, rfl, overlong⟩ | ⟨node, after, first, others⟩)
                · exact ⟨count, rfl, .first comma overlong⟩
                · obtain ⟨count, rfl, overlong⟩ := (ih (later first)).1 others
                  exact ⟨count, rfl, .later comma first overlong⟩
              · rintro ⟨count, rfl, overlong⟩
                cases overlong with
                | first comma' overlong =>
                    cases comma.symm.trans comma'
                    exact .inl ⟨count, rfl, overlong⟩
                | later comma' first overlong =>
                    cases comma.symm.trans comma'
                    exact .inr ⟨_, _, first, (ih (later first)).2 ⟨count, rfl, overlong⟩⟩

theorem readParameters_eq_fault_iff {r : Remaining} {f : Fault} :
    readParameters r = .error (.fault f) ↔
      ∃ count, f = .integerTextTooLong count ∧ OverlongParameters r count := by
  unfold readParameters
  simp only
  cases paren : r.skipBlanks.take? '(' with
  | some inside =>
      simp only [bind_eq_error_iff, readArguments_eq_fault_iff, pure_ne_error, and_false,
        exists_false, or_false, expectEnd_ne_fault]
      constructor
      · rintro ⟨count, rfl, overlong⟩
        exact ⟨count, rfl, .inParentheses paren overlong⟩
      · rintro ⟨count, rfl, overlong⟩
        cases overlong with
        | inParentheses paren' overlong =>
            cases paren.symm.trans paren'
            exact ⟨count, rfl, overlong⟩
        | first closed | later closed => simp [closed] at paren
  | none =>
      cases hchars : r.skipBlanks.chars with
      | nil =>
          simp only [List.isEmpty_nil, if_true, reduceCtorEq, false_iff]
          rintro ⟨count, -, overlong⟩
          cases overlong with
          | inParentheses opened => simp [opened] at paren
          | first _ overlong => exact absurd overlong.nonempty (by simp [hchars])
          | later _ first =>
              have consumed := first.reaches.2
              simp [hchars] at consumed
      | cons c rest =>
          simp only [List.isEmpty_cons, Bool.false_eq_true, if_false, bind_eq_error_iff,
            read_eq_fault_iff, read_eq_ok_iff, Prod.exists, pure_ne_error, and_false, exists_false,
            or_false]
          rw [← hchars]
          constructor
          · rintro (⟨count, rfl, overlong⟩ | ⟨node, after, first, others⟩)
            · exact ⟨count, rfl, .first paren overlong⟩
            · obtain ⟨count, rfl, overlong⟩ :=
                (readToEnd_eq_fault_iff first.reaches.2).1 others
              exact ⟨count, rfl, .later paren first overlong⟩
          · rintro ⟨count, rfl, overlong⟩
            cases overlong with
            | inParentheses opened => simp [opened] at paren
            | first _ overlong => exact .inl ⟨count, rfl, overlong⟩
            | later _ first overlong =>
                exact .inr ⟨_, _, first,
                  (readToEnd_eq_fault_iff first.reaches.2).2 ⟨count, rfl, overlong⟩⟩

end Expression

end Templating
