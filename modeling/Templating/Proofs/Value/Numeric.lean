import Mathlib.Algebra.Order.Ring.Nat
import Templating.Proofs.Outcome
import Templating.Value.Numeric

/-!
# Values without a number

An integer is too great for a number if it lies half a unit or more beyond the greatest one.  Such an
integer has no view as a number, and an infinity and a not-a-number have none as an integer; all
other values have a view or stand for none.
-/

namespace Templating

namespace Binary64

/-! ## Integers that are rounded -/

/-- The least magnitude that is rounded beyond the greatest number, `(2 ^ 53 - 1) * 2 ^ 971`: it lies
half a unit above it. -/
def overflowBound : Nat := (2 ^ 54 - 1) * 2 ^ 970

theorem scale_one_of_nonneg (n : Nat) {exponent : Int} (h : 0 ≤ exponent) :
    scale n 1 exponent = (n, 2 ^ exponent.toNat) := by
  rw [scale, if_pos h, Nat.one_shiftLeft]

theorem scale_one_succ (n exponent : Nat) :
    scale n 1 (exponent + 1 : Nat) = (n, 2 * 2 ^ exponent) := by
  rw [scale_one_of_nonneg n (Int.natCast_nonneg _), Int.toNat_natCast, Nat.pow_succ']

theorem scale_one_of_neg (n : Nat) {exponent : Int} (h : exponent < 0) :
    scale n 1 exponent = (n * 2 ^ (-exponent).toNat, 1) := by
  rw [scale, if_neg (by omega), Nat.shiftLeft_eq]

/-- In units of the guessed exponent the magnitude has more than 53 binary places. -/
theorem le_div_scale {n : Nat} (positive : n ≠ 0) :
    2 ^ 53 ≤ (scale n 1 (n.log2 - 53)).1 / (scale n 1 (n.log2 - 53)).2 := by
  have least : 2 ^ n.log2 ≤ n := Nat.log2_self_le positive
  by_cases small : n.log2 < 53
  · obtain ⟨more, split⟩ := Nat.exists_eq_add_of_lt small
    rw [scale_one_of_neg n (by omega), Nat.div_one]
    have power : 2 ^ 53 = 2 ^ n.log2 * 2 ^ (-((n.log2 : Int) - 53)).toNat := by
      rw [← Nat.pow_add]
      congr 1
      omega
    rw [power]
    exact Nat.mul_le_mul_right _ least
  · rw [scale_one_of_nonneg n (by omega), Nat.le_div_iff_mul_le (Nat.two_pow_pos _),
      ← Nat.pow_add]
    exact Nat.le_trans (Nat.pow_le_pow_right (by decide) (by omega)) least

theorem exponentFor_one {n : Nat} (positive : n ≠ 0) : exponentFor n 1 = n.log2 - 52 := by
  have guess : max ((n.log2 : Int) - Nat.log2 1 - 53) leastExponent = n.log2 - 53 := by
    have one : Nat.log2 1 = 0 := by decide
    rw [one, leastExponent]
    omega
  rw [exponentFor, guess, if_pos (by rw [Nat.one_shiftLeft]; exact le_div_scale positive)]
  omega

/-- A magnitude below `2 ^ 53` units is rounded up to so many from the last half unit on. -/
theorem roundHalfEven_eq_iff {n unit : Nat} (positive : 0 < unit)
    (below : n < 2 ^ 53 * (2 * unit)) :
    roundHalfEven n (2 * unit) = 2 ^ 53 ↔ (2 ^ 54 - 1) * unit ≤ n := by
  have whole := Nat.div_add_mod n (2 * unit)
  have part := Nat.mod_lt n (show 0 < 2 * unit by omega)
  have quotient : n / (2 * unit) < 2 ^ 53 := Nat.div_lt_of_lt_mul (by rwa [Nat.mul_comm])
  unfold roundHalfEven
  dsimp only
  generalize n / (2 * unit) = q at whole quotient ⊢
  generalize n % (2 * unit) = r at whole part ⊢
  by_cases last : q = 2 ^ 53 - 1
  · subst last
    split
    · omega
    split
    · omega
    · omega
  · have bound : 2 * unit * q ≤ 2 * unit * (2 ^ 53 - 2) := Nat.mul_le_mul_left _ (by omega)
    split
    · omega
    split
    · omega
    · omega

/-- A quotient is beyond all numbers if its exponent is, or if it has the greatest exponent and is
rounded up to the next power of two. -/
theorem ofRatio_eq_infinite_iff (negative : Bool) {num : Nat} (positive : num ≠ 0) (den : Nat) :
    ofRatio negative num den = .infinite negative ↔
      greatestExponent < exponentFor num den ∨
        exponentFor num den = greatestExponent ∧
          roundHalfEven (scale num den greatestExponent).1 (scale num den greatestExponent).2 =
            2 ^ 53 := by
  have full : 1 <<< 53 = 2 ^ 53 := Nat.one_shiftLeft 53
  rw [ofRatio, if_neg positive, full]
  generalize exponentFor num den = exponent
  by_cases greatest : exponent = greatestExponent
  · subst greatest
    rw [or_iff_right (Int.lt_irrefl _), and_iff_right rfl]
    dsimp only
    by_cases up : roundHalfEven (scale num den greatestExponent).1
        (scale num den greatestExponent).2 = 2 ^ 53
    · rw [if_pos up, if_pos (Int.lt_succ _)]
      exact iff_of_true rfl up
    · rw [if_neg up, if_neg (Int.lt_irrefl _)]
      exact iff_of_false nofun up
  · have last : greatestExponent < exponent + 1 ↔ greatestExponent < exponent := by omega
    dsimp only
    split <;> simp [greatest, last]

theorem eq_of_ofRatio_eq_infinite {negative b : Bool} {num den : Nat}
    (h : ofRatio negative num den = .infinite b) : negative = b := by
  unfold ofRatio at h
  split at h
  · cases h
  · dsimp only at h
    split at h <;> split at h <;> cases h <;> rfl

/-- A magnitude has at least the exponent `971` from `2 ^ 1023` on, and from `2 ^ 1024` on more. -/
theorem ofRatio_one_eq_infinite_iff (negative : Bool) (n : Nat) :
    ofRatio negative n 1 = .infinite negative ↔ overflowBound ≤ n := by
  have unit : 0 < 2 ^ 970 := pow_pos Nat.two_pos 970
  by_cases positive : n = 0
  · subst positive
    have bound : overflowBound ≠ 0 := by
      rw [overflowBound]
      generalize 2 ^ 970 = unit at *
      omega
    simp [ofRatio, zero, bound]
  have greatest : greatestExponent = (970 + 1 : Nat) := rfl
  rw [ofRatio_eq_infinite_iff negative positive, exponentFor_one positive, greatest, overflowBound]
  have reaches (more : Nat) : more + 970 ≤ n.log2 ↔ 2 ^ more * 2 ^ 970 ≤ n := by
    rw [Nat.le_log2 positive, pow_add]
  by_cases beyond : 54 + 970 ≤ n.log2
  · have least := (reaches 54).1 beyond
    generalize 2 ^ 970 = unit at *
    exact iff_of_true (.inl (by omega)) (by omega)
  have below : n < 2 ^ 53 * (2 * 2 ^ 970) := by
    have below := mt (reaches 54).2 beyond
    generalize 2 ^ 970 = unit at *
    omega
  by_cases last : n.log2 = 1023
  · rw [scale_one_succ, roundHalfEven_eq_iff unit below]
    generalize 2 ^ 970 = unit at *
    omega
  · have smaller := mt (reaches 53).2 (by omega)
    generalize 2 ^ 970 = unit at *
    exact iff_of_false (by omega) (by omega)

end Binary64

namespace Value

open Binary64 (overflowBound)

theorem integerAsFloat_eq_error_iff (n : Int) (e : Error) :
    integerAsFloat n = .error e ↔
      overflowBound ≤ n.natAbs ∧ e = .fault .integerBeyondNumbers := by
  rw [← Binary64.ofRatio_one_eq_infinite_iff (n < 0), integerAsFloat, Binary64.ofInt]
  cases rounded : Binary64.ofRatio (n < 0) n.natAbs 1 with
  | infinite negative => simp [Binary64.eq_of_ofRatio_eq_infinite rounded, eq_comm]
  | nan | finite => simp

theorem truncate_eq_error_iff (x : Binary64) (e : Error) :
    truncate x = .error e ↔
      (∃ payload, x = .nan payload ∧ e = .fault .nanToInteger) ∨
        ∃ negative, x = .infinite negative ∧ e = .fault .infinityToInteger := by
  cases x <;> simp [truncate, eq_comm]

/-- A value has a view as an integer and as a number, or stands for none, but for three sorts of
values: a not-a-number and an infinity have no view as an integer, and an integer from the bound on
has none as a number. -/
theorem numeric_view_fails_iff (v : Value) (e : Error) :
    (v.asInt? = .error e ↔
      (∃ payload, v = .float (.nan payload) ∧ e = .fault .nanToInteger) ∨
        ∃ negative, v = .float (.infinite negative) ∧ e = .fault .infinityToInteger) ∧
      (v.asFloat? = .error e ↔
        ∃ n, v = .int n ∧ overflowBound ≤ n.natAbs ∧ e = .fault .integerBeyondNumbers) := by
  have text (s : String) : ∃ view, (string s).asInt? = .ok view := by
    rw [asInt?]
    split <;> exact ⟨_, rfl⟩
  cases v with
  | float x =>
      simp only [asInt?, asFloat?, bind_eq_error_iff, truncate_eq_error_iff]
      simp [pure, Except.pure]
  | int n =>
      simp only [asInt?, asFloat?, bind_eq_error_iff, integerAsFloat_eq_error_iff]
      simp [pure, Except.pure]
  | string s =>
      obtain ⟨view, own⟩ := text s
      simp [own, asFloat?]
  | _ => simp [asInt?, asFloat?]

/-- An infinity has no view as an integer, and a one with so many zeros has none as a number. -/
theorem infinity_without_integer :
    (∀ view, (float (.infinite false)).asInt? ≠ .ok view) ∧
      ∀ view, (int (10 ^ 400)).asFloat? ≠ .ok view := by
  have beyond : overflowBound ≤ (10 ^ 400 : Int).natAbs := by decide +kernel
  have fails := (integerAsFloat_eq_error_iff (10 ^ 400) _).2 ⟨beyond, rfl⟩
  refine ⟨nofun, fun view same => ?_⟩
  rw [asFloat?, fails] at same
  cases same

end Value

end Templating
