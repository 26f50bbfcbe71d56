import Mathlib.Data.List.TakeWhile
import Templating.Proofs.Text.Utf8
import Templating.Text.Blank

/-!
# Lines of texts and of bytes

A text has a line wherever a character breaks it, and of the characters that do so only the line
feed is counted in a source.  `strays` counts the other ones: so much further on among the lines of
a text stands what follows so many line feeds.
-/

namespace Templating.Text

/-! ## Where a text is broken -/

theorem head?_linesFrom {line text : List Char} (some_ : line ≠ [] ∨ text ≠ []) :
    (linesFrom line text).head? = some (line.reverse ++ text.takeWhile (!isLineBreak ·)) := by
  fun_induction linesFrom line text with
  | case1 line empty => simp_all
  | case2 => simp
  | case3 => simp [isLineBreak]
  | case4 line c rest _ breaks => simp [breaks]
  | case5 line c rest _ keeps ih =>
      rw [ih (.inl (by simp))]
      simp_all

/-! ## Line feeds -/

/-- The breaks of a text that are no line feeds; a carriage return in front of a line feed belongs
to it. -/
def strays : List Char → Nat
  | [] => 0
  | '\r' :: '\n' :: rest => strays rest
  | c :: rest => if isLineBreak c && c != '\n' then strays rest + 1 else strays rest

/-- The last line of the text is ended by a line feed, or there is none. -/
def Ended (line text : List Char) : Prop :=
  text.getLast? = some '\n' ∨ line = [] ∧ text = []

namespace Ended

variable {line above : List Char} {c : Char}

theorem of_cons (h : Ended line (c :: above)) : Ended [] above := by
  cases above with
  | nil => exact .inr ⟨rfl, rfl⟩
  | cons d rest => simpa [Ended] using h

theorem of_keep (h : Ended line (c :: above)) (keeps : c ≠ '\n') : Ended (c :: line) above := by
  cases above with
  | nil => simp_all [Ended]
  | cons d rest => simpa [Ended] using h

/-- A carriage return that a line feed follows has it in the same text. -/
theorem head?_ne (h : Ended line (c :: above)) (single : ∀ rest, c = '\r' → above ≠ '\n' :: rest)
    (rest : List Char) (carriage : c = '\r') : (above ++ rest).head? ≠ some '\n' := by
  subst carriage
  cases above with
  | nil => simp [Ended] at h
  | cons d above =>
      rintro ⟨⟩
      exact single above rfl rfl

end Ended

theorem linesFrom_append {line above : List Char} (ended : Ended line above) (rest : List Char) :
    linesFrom line (above ++ rest) = linesFrom line above ++ linesFrom [] rest := by
  fun_induction linesFrom line above with
  | case1 => simp_all
  | case2 => simp_all [Ended]
  | case3 line above ih => simp [linesFrom, ih ended.of_cons.of_cons]
  | case4 line c above single breaks ih =>
      rw [List.cons_append, linesFrom_break breaks (ended.head?_ne single rest),
        ih ended.of_cons]
      rfl
  | case5 line c above _ keeps ih =>
      have plain : isLineBreak c = false := by simpa using keeps
      rw [List.cons_append, linesFrom_keep plain]
      apply ih
      apply ended.of_keep
      rintro rfl
      cases plain

theorem length_linesFrom {line above : List Char} (ended : Ended line above) :
    (linesFrom line above).length = above.count '\n' + strays above := by
  fun_induction linesFrom line above with
  | case1 => rfl
  | case2 => simp_all [Ended]
  | case3 line above ih =>
      simp [strays, ih ended.of_cons.of_cons]
      omega
  | case4 line c above single breaks ih =>
      rw [strays]
      · by_cases feed : c = '\n'
        · simp [feed, ih ended.of_cons]
          omega
        · simp [feed, breaks, ih ended.of_cons]
          omega
      · exact single
  | case5 line c above single keeps ih =>
      have plain : isLineBreak c = false := by simpa using keeps
      have other : c ≠ '\n' := by
        rintro rfl
        cases plain
      rw [strays]
      · simp [other, plain, ih (ended.of_keep other)]
      · exact single

/-- What stands behind so many line feeds is found further on by the stray breaks before it. -/
theorem getElem?_linesFrom {above rest : List Char} (ended : Ended [] above) (some_ : rest ≠ []) :
    (linesFrom [] (above ++ rest))[above.count '\n' + strays above]? =
      some (rest.takeWhile (!isLineBreak ·)) := by
  rw [linesFrom_append ended, ← length_linesFrom ended, List.getElem?_append_right (Nat.le_refl _),
    Nat.sub_self, ← List.head?_eq_getElem?, head?_linesFrom (.inr some_)]
  rfl

namespace Utf8

/-! ## Bytes that need not be text -/

def shown : Except Defect Char → Char
  | .ok c => c
  | .error _ => replacement

theorem decodeLossy_eq (bytes : List UInt8) : decodeLossy bytes = (items bytes).map shown := by
  apply List.map_congr_left
  rintro (_ | _) - <;> rfl

/-- No byte below 128 carries on with a character. -/
def Start.Large : Start → Prop
  | .more p => 128 ≤ p.low
  | .char _ | .bad => True

theorem large_start (b : UInt8) : (start b).Large := by
  unfold start
  simp only
  repeat' split
  all_goals simp [Start.Large]

theorem large_push (p : Pending) (b : UInt8) : (p.push b).Large := by
  simp only [Pending.push]
  split <;> simp [Start.Large]

theorem items_small {b : UInt8} (small : b.toNat < 128) (rest : List UInt8) :
    items (b :: rest) = .ok (Char.ofNat b.toNat) :: items rest := by
  have first : start b = .char (Char.ofNat b.toNat) := by simp [start, small]
  rw [items_cons, first, itemsAfter_char]

theorem map_shown_itemsAfter {s : Start} (large : s.Large) (a : List UInt8) {b : List UInt8}
    (small : ∀ x, b.head? = some x → x.toNat < 128) :
    (itemsAfter s (a ++ b)).map shown = (itemsAfter s a).map shown ++ (items b).map shown := by
  induction a generalizing s with
  | nil =>
      cases s with
      | char c => cases b <;> simp [itemsAfter, items]
      | bad => cases b <;> simp [itemsAfter, items]
      | more p =>
          cases b with
          | nil => simp [items]
          | cons x b =>
              have below : ¬ p.low ≤ x.toNat := Nat.not_le.2 (Nat.lt_of_lt_of_le (small x rfl) large)
              simp [itemsAfter, items, Pending.accepts, below, shown]
  | cons x a ih =>
      have fresh := ih (large_start x)
      cases s with
      | char c | bad => simpa [itemsAfter, items] using fresh
      | more p =>
          rw [List.cons_append, itemsAfter, itemsAfter]
          split
          · exact ih (large_push p x)
          · simpa using fresh

theorem decodeLossy_append (a : List UInt8) {b : List UInt8}
    (small : ∀ x, b.head? = some x → x.toNat < 128) :
    decodeLossy (a ++ b) = decodeLossy a ++ decodeLossy b := by
  simp only [decodeLossy_eq]
  cases a with
  | nil => rfl
  | cons x a => exact map_shown_itemsAfter (large_start x) a small

theorem decodeLossy_small {b : UInt8} (small : b.toNat < 128) (rest : List UInt8) :
    decodeLossy (b :: rest) = Char.ofNat b.toNat :: decodeLossy rest := by
  rw [decodeLossy_eq, decodeLossy_eq, items_small small]
  rfl

/-- The line feeds that a state has come to. -/
def Start.feeds : Start → Nat
  | .char c => if c = '\n' then 1 else 0
  | .more _ | .bad => 0

theorem Spells.feeds_eq_zero {read : List UInt8} {s : Start} (h : Spells read s)
    (other : read ≠ [10]) : s.feeds = 0 := by
  cases h with
  | more | bad => rfl
  | @char read c spelt =>
      rw [Start.feeds, if_neg]
      rintro rfl
      exact other spelt.symm

theorem feeds_start (b : UInt8) : (start b).feeds = if b = 10 then 1 else 0 := by
  split
  · next feed =>
    subst feed
    rfl
  · next other =>
    apply (spells_start b).feeds_eq_zero
    simpa using other

theorem count_itemsAfter {read : List UInt8} {s : Start} (spells : Spells read s)
    (large : s.Large) (bytes : List UInt8) :
    ((itemsAfter s bytes).map shown).count '\n' = s.feeds + bytes.count 10 := by
  induction bytes generalizing read s with
  | nil =>
      cases s with
      | char c => by_cases c = '\n' <;> simp_all [itemsAfter, shown, Start.feeds]
      | more p | bad => rfl
  | cons b bytes ih =>
      have fresh := ih (spells_start b) (large_start b)
      rw [feeds_start] at fresh
      have replaced (defect : Defect) :
          (((.error defect : Except Defect Char) :: itemsAfter (start b) bytes).map shown).count
            '\n' = (b :: bytes).count 10 := by
        have other : shown (.error defect) ≠ '\n' := (by decide : replacement ≠ '\n')
        rw [List.map_cons, List.count_cons_of_ne other, fresh, List.count_cons, Nat.add_comm]
        simp
      cases spells with
      | char spelt =>
          rw [itemsAfter, List.map_cons, List.count_cons, fresh, List.count_cons]
          simp [shown, Start.feeds]
          omega
      | bad => simpa [itemsAfter, Start.feeds] using replaced .badStart
      | @more read p next =>
          rw [itemsAfter]
          split
          · next accepted =>
            have high : 128 ≤ b.toNat := Nat.le_trans large (accepts_iff.1 accepted).1
            have other : b ≠ 10 := by
              rintro rfl
              exact absurd high (by decide)
            have none : (p.push b).feeds = 0 := by
              apply (next b accepted).feeds_eq_zero
              intro same
              have last := congrArg List.getLast? same
              simp [other] at last
            rw [ih (next b accepted) (large_push p b), none, List.count_cons_of_ne other]
            rfl
          · simpa [Start.feeds] using replaced .badContinuation

theorem count_decodeLossy (bytes : List UInt8) :
    (decodeLossy bytes).count '\n' = bytes.count 10 := by
  rw [decodeLossy_eq]
  cases bytes with
  | nil => rfl
  | cons b bytes =>
      rw [items_cons, count_itemsAfter (spells_start b) (large_start b), feeds_start,
        List.count_cons]
      simp
      omega

theorem decodeLossy_ne_nil {bytes : List UInt8} (some_ : bytes ≠ []) : decodeLossy bytes ≠ [] := by
  obtain ⟨b, rest, rfl⟩ := List.exists_cons_of_ne_nil some_
  have more (s : Start) : itemsAfter s rest ≠ [] := by
    induction rest generalizing s with
    | nil => cases s <;> simp [itemsAfter]
    | cons c rest ih =>
        cases s with
        | char | bad => simp [itemsAfter]
        | more p =>
            rw [itemsAfter]
            split
            · exact ih (by simp) _
            · simp
  simpa [decodeLossy, items] using more (start b)

/-- Behind a line feed no character is under way. -/
theorem decodeLossy_of_ended {above : List UInt8} (ended : above = [] ∨ above.getLast? = some 10)
    (rest : List UInt8) :
    decodeLossy (above ++ rest) = decodeLossy above ++ decodeLossy rest ∧
      Ended [] (decodeLossy above) := by
  rcases ended with rfl | last
  · exact ⟨rfl, .inr ⟨rfl, rfl⟩⟩
  · obtain ⟨front, rfl⟩ := List.getLast?_eq_some_iff.1 last
    have feed (more : List UInt8) :
        decodeLossy (front ++ 10 :: more) = decodeLossy front ++ '\n' :: decodeLossy more := by
      rw [decodeLossy_append front (by simp), decodeLossy_small (by decide)]
      rfl
    rw [List.append_assoc, List.singleton_append, feed, feed]
    exact ⟨by simp [decodeLossy, items], .inl (by simp [decodeLossy, items])⟩

end Utf8

/-! ## A line and its first piece -/

/-- The text of a line of bytes, without a carriage return at its end. -/
def lineText (row : List UInt8) : List Char :=
  let chars := Utf8.decodeLossy row
  if chars.getLast? = some '\r' then chars.dropLast else chars

/-- A line of bytes is all of a line of the text if nothing breaks it. -/
theorem takeWhile_eq_lineText_iff {row : List UInt8} :
    (Utf8.decodeLossy row).takeWhile (!isLineBreak ·) = lineText row ↔
      ∀ c ∈ lineText row, isLineBreak c = false := by
  constructor
  · intro same c member
    rw [← same] at member
    simpa using List.mem_takeWhile_imp member
  · intro plain
    unfold lineText at plain ⊢
    simp only at plain ⊢
    split at plain
    · next last =>
      obtain ⟨front, whole⟩ := List.getLast?_eq_some_iff.1 last
      rw [whole, List.dropLast_concat] at plain ⊢
      rw [if_pos (by simp), List.takeWhile_append_of_pos (by simpa using plain)]
      simp [isLineBreak]
    · next other =>
      rw [if_neg other, List.takeWhile_eq_self_iff]
      simpa using plain

end Templating.Text
