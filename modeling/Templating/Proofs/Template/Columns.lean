import Mathlib.Algebra.GroupWithZero.Nat
import Templating.Proofs.Template.Concatenation

/-!
# Lines, columns and bytes

The line and the column of a place are the line feeds before it and the bytes since the last of
them.  What is read inside of a tag counts characters in the place of bytes, so that it keeps the
line and falls short of the column by the further bytes of the characters on the line before it.
-/

namespace Templating

/-! ## Lines -/

/-- The line and the column of what stands behind the bytes. -/
def Position.following (before : List UInt8) : Position :=
  ⟨1 + before.count 10, (before.rtakeWhile (· != 10)).length⟩

/-- The bytes are the line of that number, without the line feed that ends it. -/
def IsLine (data : List UInt8) (line : Int) (row : List UInt8) : Prop :=
  ∃ above below, data = above ++ row ++ below ∧ line = 1 + above.count 10 ∧
    (above = [] ∨ above.getLast? = some 10) ∧ 10 ∉ row ∧ (below = [] ∨ below.head? = some 10)

namespace Position

theorem afterBytes_start (before : List UInt8) : start.afterBytes before = following before := by
  rw [← behind_start, behind_of_line_eq rfl]
  simp [following, start]

theorem following_append (a b : List UInt8) : following (a ++ b) = (following a).afterBytes b := by
  rw [← afterBytes_start, ← afterBytes_start, afterBytes_append]

theorem exists_isLine (before after : List UInt8) :
    ∃ row, IsLine (before ++ after) (following before).line row ∧
      (following before).column ≤ row.length := by
  let feed (b : UInt8) : Bool := b != 10
  have apart : before = before.rdropWhile feed ++ before.rtakeWhile feed :=
    List.rdropWhile_append_rtakeWhile.symm
  have follows : after = after.takeWhile feed ++ after.dropWhile feed :=
    List.takeWhile_append_dropWhile.symm
  have plain : 10 ∉ before.rtakeWhile feed := fun member => by
    simpa [feed] using List.mem_rtakeWhile_imp member
  refine ⟨before.rtakeWhile feed ++ after.takeWhile feed, ⟨before.rdropWhile feed,
    after.dropWhile feed, ?_, ?_, ?_, ?_, ?_⟩, ?_⟩
  · conv_lhs => rw [apart, follows]
    simp only [List.append_assoc]
  · have count := congrArg (List.count 10) apart
    rw [List.count_append, List.count_eq_zero_of_not_mem plain] at count
    simp [following, count]
  · by_cases empty : before.rdropWhile feed = []
    · exact .inl empty
    · have last := List.rdropWhile_last_not feed before empty
      rw [List.getLast?_eq_some_getLast empty]
      exact .inr (congrArg some (by simpa [feed] using last))
  · rw [List.mem_append, not_or]
    refine ⟨plain, fun member => ?_⟩
    simpa [feed] using List.mem_takeWhile_imp member
  · cases rest : after.dropWhile feed with
    | nil => exact .inl rfl
    | cons b tail =>
        have stop := List.head_dropWhile_not feed (l := after) (by simp [rest])
        simp only [rest, List.head_cons] at stop
        exact .inr (congrArg some (by simpa [feed] using stop))
  · simp only [following, List.length_append]
    exact Int.ofNat_le.2 (Nat.le_add_right _ _)

theorem line_following_le (before after : List UInt8) :
    1 ≤ (following before).line ∧
      (following before).line ≤ 1 + (before ++ after).count 10 ∧ 0 ≤ (following before).column := by
  simp only [following, List.count_append]
  omega

end Position

/-! ## Characters -/

/-- The further bytes of the characters since the last line feed. -/
def surplus (cs : List Char) : Nat :=
  ((cs.rtakeWhile (· != '\n')).map fun c => c.utf8Size - 1).sum

theorem surplus_eq_zero_iff {cs : List Char} :
    surplus cs = 0 ↔ ∀ c ∈ cs.rtakeWhile (· != '\n'), c.toNat < 128 := by
  rw [surplus, List.sum_eq_zero_iff_forall_eq_nat, List.forall_mem_map]
  refine forall₂_congr fun c _ => ?_
  have positive := c.utf8Size_pos
  have one : c.utf8Size = 1 ↔ c.toNat < 128 := by
    rw [Char.utf8Size_eq_one_iff, UInt32.le_iff_toNat_le]
    exact Nat.lt_succ_iff.symm
  omega

namespace Position

theorem afterBytes_of_not_mem {bytes : List UInt8} (h : 10 ∉ bytes) (p : Position) :
    p.afterBytes bytes = p.right bytes.length := by
  induction bytes generalizing p with
  | nil => simp [right]
  | cons b bytes ih =>
      simp only [List.mem_cons, not_or] at h
      rw [afterBytes_cons, afterByte, if_neg (Ne.symm h.1), ih h.2]
      simp only [right, List.length_cons, mk.injEq, true_and]
      omega

theorem right_right (p : Position) (m n : Nat) : (p.right m).right n = p.right (m + n) := by
  simp [right, Int.add_assoc]

/-- Counting bytes leads where counting characters does, but for the surplus. -/
theorem afterBytes_encodeChars (p : Position) (cs : List Char) :
    p.afterBytes (encodeChars cs) = (p.afterChars cs).right (surplus cs) := by
  -- From the right, for a line feed forgets the surplus of all that is before it.
  induction cs using List.reverseRecOn with
  | nil => simp [encodeChars, afterChars, surplus, right]
  | append_singleton cs c ih =>
      have single : encodeChars [c] = String.utf8EncodeChar c := by simp [encodeChars]
      rw [encodeChars_append, afterBytes_append, ih, single, afterChars_append]
      by_cases feed : c = '\n'
      · subst feed
        have none : surplus (cs ++ ['\n']) = 0 := by
          rw [surplus, List.rtakeWhile_concat_neg _ _ _ (by decide)]
          rfl
        rw [none]
        rfl
      · have plain : 10 ∉ String.utf8EncodeChar c := fun member =>
          Text.Utf8.ne_of_mem_utf8EncodeChar (d := '\n') (by decide) feed member rfl
        have more : surplus (cs ++ [c]) = surplus cs + (c.utf8Size - 1) := by
          rw [surplus, List.rtakeWhile_concat_pos _ _ _ (by simpa using feed)]
          simp [surplus]
        have step : (p.afterChars cs).afterChars [c] = (p.afterChars cs).right 1 :=
          if_neg feed
        have positive := c.utf8Size_pos
        rw [afterBytes_of_not_mem plain, String.length_utf8EncodeChar, step, more, right_right,
          right_right]
        congr 1
        omega

end Position

end Templating
