import Templating.Text.Utf8

/-!
# UTF-8 reads back what it writes

The bytes of a character are read as that character, whatever follows them, and no other bytes are.
Thus decoding undoes encoding and encoding undoes decoding.
-/

namespace Templating.Text.Utf8

/-! ## One character -/

theorem items_cons (b : UInt8) (rest : List UInt8) :
    items (b :: rest) = itemsAfter (start b) rest := rfl

@[simp] theorem itemsAfter_char (c : Char) (rest : List UInt8) :
    itemsAfter (.char c) rest = .ok c :: items rest := by
  cases rest <;> simp [itemsAfter, items]

theorem toNat_ofNat_of_lt {n : Nat} (h : n < 256) : (UInt8.ofNat n).toNat = n := by
  simp [Nat.mod_eq_of_lt h]

private theorem itemsAfter_more {p : Pending} {b : UInt8} (rest : List UInt8)
    (low : p.low ≤ b.toNat) (high : b.toNat ≤ p.high) :
    itemsAfter (.more p) (b :: rest) = itemsAfter (p.push b) rest := by
  simp [itemsAfter, Pending.accepts, low, high]

private theorem push_tail (p : Pending) (n : Nat) :
    p.push (UInt8.ofNat (n % 0x40 + 0x80)) =
      if p.missing ≤ 1 then .char (Char.ofNat (p.code * 64 + n % 64))
      else .more ⟨p.code * 64 + n % 64, p.missing - 1, 0x80, 0xBF⟩ := by
  have tail : (UInt8.ofNat (n % 0x40 + 0x80)).toNat % 64 = n % 64 := by
    rw [toNat_ofNat_of_lt (by omega)]
    omega
  simp only [Pending.push, tail]

private theorem itemsAfter_last {p : Pending} {n : Nat} (rest : List UInt8)
    (missing : p.missing = 1) (low : p.low ≤ n % 0x40 + 0x80)
    (high : n % 0x40 + 0x80 ≤ p.high) :
    itemsAfter (.more p) (UInt8.ofNat (n % 0x40 + 0x80) :: rest) =
      .ok (Char.ofNat (p.code * 64 + n % 64)) :: items rest := by
  have small : n % 0x40 + 0x80 < 256 := by omega
  rw [itemsAfter_more rest (by rwa [toNat_ofNat_of_lt small])
    (by rwa [toNat_ofNat_of_lt small]), push_tail, if_pos (by omega), itemsAfter_char]

private theorem itemsAfter_tail {p : Pending} {n : Nat} (rest : List UInt8)
    (missing : 1 < p.missing) (low : p.low ≤ n % 0x40 + 0x80)
    (high : n % 0x40 + 0x80 ≤ p.high) :
    itemsAfter (.more p) (UInt8.ofNat (n % 0x40 + 0x80) :: rest) =
      itemsAfter (.more ⟨p.code * 64 + n % 64, p.missing - 1, 0x80, 0xBF⟩) rest := by
  have small : n % 0x40 + 0x80 < 256 := by omega
  rw [itemsAfter_more rest (by rwa [toNat_ofNat_of_lt small])
    (by rwa [toNat_ofNat_of_lt small]), push_tail, if_neg (by omega)]

private theorem start_one {n : Nat} (h : n ≤ 0x7F) :
    start (UInt8.ofNat n) = .char (Char.ofNat n) := by
  simp only [start, toNat_ofNat_of_lt (show n < 256 by omega)]
  rw [if_pos (by omega)]

private theorem start_two {n : Nat} (low : 0x7F < n) (high : n ≤ 0x7FF) :
    start (UInt8.ofNat (n / 64 % 0x20 + 0xC0)) = .more ⟨n / 64, 1, 0x80, 0xBF⟩ := by
  have code : n / 64 % 0x20 + 0xC0 - 0xC0 = n / 64 := by omega
  simp only [start, toNat_ofNat_of_lt (show n / 64 % 0x20 + 0xC0 < 256 by omega)]
  rw [if_neg (by omega), if_neg (by omega), if_pos (by omega), code]

/-- The ranges after the first of three bytes rule out short forms and surrogates. -/
private theorem start_three {n : Nat} (high : n ≤ 0xFFFF) :
    start (UInt8.ofNat (n / 4096 % 0x10 + 0xE0)) =
      .more ⟨n / 4096, 2, if n / 4096 = 0 then 0xA0 else 0x80,
        if n / 4096 = 0xD then 0x9F else 0xBF⟩ := by
  have code : n / 4096 % 0x10 + 0xE0 - 0xE0 = n / 4096 := by omega
  simp only [start, toNat_ofNat_of_lt (show n / 4096 % 0x10 + 0xE0 < 256 by omega)]
  rw [if_neg (by omega), if_neg (by omega), if_neg (by omega)]
  by_cases first : n / 4096 = 0
  · rw [if_pos (by omega)]
    simp [first]
  · rw [if_neg (by omega)]
    by_cases surrogate : n / 4096 = 0xD
    · rw [if_pos (by omega)]
      simp [surrogate]
    · rw [if_neg (by omega), if_pos (by omega), code]
      simp [first, surrogate]

/-- The ranges after the first of four bytes rule out short forms and what is past the last code. -/
private theorem start_four {n : Nat} (high : n ≤ 0x10FFFF) :
    start (UInt8.ofNat (n / 262144 % 0x08 + 0xF0)) =
      .more ⟨n / 262144, 3, if n / 262144 = 0 then 0x90 else 0x80,
        if n / 262144 = 4 then 0x8F else 0xBF⟩ := by
  have code : n / 262144 % 0x08 + 0xF0 - 0xF0 = n / 262144 := by omega
  simp only [start, toNat_ofNat_of_lt (show n / 262144 % 0x08 + 0xF0 < 256 by omega)]
  rw [if_neg (by omega), if_neg (by omega), if_neg (by omega), if_neg (by omega),
    if_neg (by omega), if_neg (by omega)]
  by_cases first : n / 262144 = 0
  · rw [if_pos (by omega)]
    simp [first]
  · rw [if_neg (by omega)]
    by_cases last : n / 262144 = 4
    · rw [if_neg (by omega), if_pos (by omega)]
      simp [last]
    · rw [if_pos (by omega), code]
      simp [first, last]

theorem items_utf8EncodeChar (c : Char) (rest : List UInt8) :
    items (String.utf8EncodeChar c ++ rest) = .ok c :: items rest := by
  have valid : c.val.toNat < 0xD800 ∨ 0xDFFF < c.val.toNat ∧ c.val.toNat < 0x110000 := c.valid
  have back : Char.ofNat c.val.toNat = c := Char.ofNat_toNat c
  simp only [String.utf8EncodeChar]
  generalize c.val.toNat = n at valid back ⊢
  split
  · rw [List.cons_append, List.nil_append, items_cons, start_one (by assumption),
      itemsAfter_char, back]
  split
  · have code : n / 64 * 64 + n % 64 = n := by omega
    simp only [List.cons_append, List.nil_append, items_cons]
    rw [start_two (by omega) (by assumption),
      itemsAfter_last _ rfl (by simp) (by simp only; omega), code, back]
  split
  · have code : (n / 4096 * 64 + n / 64 % 64) * 64 + n % 64 = n := by omega
    simp only [List.cons_append, List.nil_append, items_cons]
    rw [start_three (by assumption),
      itemsAfter_tail _ (by simp) (by simp only; split <;> omega) (by simp only; split <;> omega),
      itemsAfter_last _ rfl (by simp) (by simp only; omega), code, back]
  · have code : ((n / 262144 * 64 + n / 4096 % 64) * 64 + n / 64 % 64) * 64 + n % 64 = n := by
      omega
    simp only [List.cons_append, List.nil_append, items_cons]
    rw [start_four (by omega),
      itemsAfter_tail _ (by simp) (by simp only; split <;> omega) (by simp only; split <;> omega),
      itemsAfter_tail _ (by simp) (by simp) (by simp only; omega),
      itemsAfter_last _ rfl (by simp) (by simp only; omega), code, back]

/-! ## Texts -/

theorem items_flatMap_utf8EncodeChar (cs : List Char) (rest : List UInt8) :
    items (cs.flatMap String.utf8EncodeChar ++ rest) = cs.map Except.ok ++ items rest := by
  induction cs with
  | nil => rfl
  | cons c cs ih =>
      rw [List.flatMap_cons, List.append_assoc, items_utf8EncodeChar, ih]
      rfl

@[simp] theorem collect_map_ok (cs : List Char) : collect (cs.map Except.ok) = .ok cs := by
  induction cs with
  | nil => rfl
  | cons c cs ih => simp [collect, ih, Except.map]

theorem decode_flatMap_utf8EncodeChar (cs : List Char) :
    decode (cs.flatMap String.utf8EncodeChar) = .ok cs := by
  have read := items_flatMap_utf8EncodeChar cs []
  rw [List.append_nil] at read
  rw [decode, read]
  simp [items]

theorem decode_encode (text : String) : decode (encode text) = .ok text.toList :=
  decode_flatMap_utf8EncodeChar text.toList

/-! ## Characters and bytes of one place each -/

theorem utf8EncodeChar_of_lt {c : Char} (h : c.toNat < 128) :
    String.utf8EncodeChar c = [UInt8.ofNat c.toNat] := by
  have small : c.val.toNat ≤ 0x7F := Nat.le_of_lt_succ h
  simp only [String.utf8EncodeChar]
  rw [if_pos small]
  rfl

/-- Only the characters of one byte have bytes below 128. -/
theorem le_of_mem_utf8EncodeChar {c : Char} (h : 128 ≤ c.toNat) {b : UInt8}
    (hb : b ∈ String.utf8EncodeChar c) : 128 ≤ b.toNat := by
  have large : ¬ c.val.toNat ≤ 0x7F := Nat.not_le.2 h
  simp only [String.utf8EncodeChar] at hb
  rw [if_neg large] at hb
  split at hb
  · simp only [List.mem_cons, List.not_mem_nil, or_false] at hb
    rcases hb with rfl | rfl <;> rw [toNat_ofNat_of_lt (by omega)] <;> omega
  split at hb
  · simp only [List.mem_cons, List.not_mem_nil, or_false] at hb
    rcases hb with rfl | rfl | rfl <;> rw [toNat_ofNat_of_lt (by omega)] <;> omega
  · simp only [List.mem_cons, List.not_mem_nil, or_false] at hb
    rcases hb with rfl | rfl | rfl | rfl <;> rw [toNat_ofNat_of_lt (by omega)] <;> omega

/-- A character that is not the one-byte character `d` has no byte of it. -/
theorem ne_of_mem_utf8EncodeChar {c d : Char} (small : d.toNat < 128) (different : c ≠ d)
    {b : UInt8} (hb : b ∈ String.utf8EncodeChar c) : b ≠ UInt8.ofNat d.toNat := by
  rintro rfl
  by_cases ascii : c.toNat < 128
  · rw [utf8EncodeChar_of_lt ascii, List.mem_singleton] at hb
    have same := congrArg UInt8.toNat hb
    rw [toNat_ofNat_of_lt (by omega), toNat_ofNat_of_lt (by omega)] at same
    exact different (Char.toNat_inj.1 same.symm)
  · have large := le_of_mem_utf8EncodeChar (Nat.le_of_not_lt ascii) hb
    rw [toNat_ofNat_of_lt (by omega)] at large
    omega

/-! ## Bytes that are read -/

/-- `read`, and whatever bytes the state goes on to accept, are the bytes of the character that they
come to. -/
inductive Spells : List UInt8 → Start → Prop
  | char {read : List UInt8} {c : Char} : String.utf8EncodeChar c = read → Spells read (.char c)
  | more {read : List UInt8} {p : Pending} :
      (∀ b, p.accepts b = true → Spells (read ++ [b]) (p.push b)) → Spells read (.more p)
  | bad (read : List UInt8) : Spells read .bad

private theorem val_ofNat {n : Nat} (h : n < 0xD800 ∨ 0xDFFF < n ∧ n < 0x110000) :
    (Char.ofNat n).val.toNat = n := by
  have valid : n.isValidChar := h
  rw [Char.ofNat, dif_pos valid]
  rfl

private theorem spells_one {b : UInt8} (h : b.toNat < 0x80) :
    String.utf8EncodeChar (Char.ofNat b.toNat) = [b] := by
  simp only [String.utf8EncodeChar, val_ofNat (.inl (by omega : b.toNat < 0xD800))]
  rw [if_pos (by omega), UInt8.ofNat_toNat]

/-- A byte of the form that follows the first one of a character. -/
private theorem eq_tail {b : UInt8} (low : 0x80 ≤ b.toNat) (high : b.toNat ≤ 0xBF) {n : Nat}
    (h : n % 64 = b.toNat % 64) : UInt8.ofNat (n % 0x40 + 0x80) = b := by
  rw [show n % 0x40 + 0x80 = b.toNat by omega, UInt8.ofNat_toNat]

private theorem eq_head {b : UInt8} {n : Nat} (h : n = b.toNat) : UInt8.ofNat n = b := by
  rw [h, UInt8.ofNat_toNat]

private theorem spells_last {read : List UInt8} {p : Pending} (last : p.missing = 1)
    (h : ∀ b, p.accepts b = true →
      String.utf8EncodeChar (Char.ofNat (p.code * 64 + b.toNat % 64)) = read ++ [b]) :
    Spells read (.more p) := by
  refine .more fun b accepted => ?_
  simp only [Pending.push, last, Nat.le_refl, if_true]
  exact .char (h b accepted)

private theorem spells_next {read : List UInt8} {p : Pending} (more : 1 < p.missing)
    (h : ∀ b, p.accepts b = true → Spells (read ++ [b])
      (.more ⟨p.code * 64 + b.toNat % 64, p.missing - 1, 0x80, 0xBF⟩)) :
    Spells read (.more p) := by
  refine .more fun b accepted => ?_
  simp only [Pending.push, if_neg (Nat.not_le.2 more)]
  exact h b accepted

theorem accepts_iff {p : Pending} {b : UInt8} :
    p.accepts b = true ↔ p.low ≤ b.toNat ∧ b.toNat ≤ p.high := by
  simp [Pending.accepts]

private theorem spells_two {b : UInt8} (low : 0xC2 ≤ b.toNat) (high : b.toNat < 0xE0) :
    Spells [b] (.more ⟨b.toNat - 0xC0, 1, 0x80, 0xBF⟩) := by
  refine spells_last rfl fun c accepted => ?_
  have range := accepts_iff.1 accepted
  simp only at range
  simp only [String.utf8EncodeChar, val_ofNat
    (.inl (by omega : (b.toNat - 0xC0) * 64 + c.toNat % 64 < 0xD800))]
  rw [if_neg (by omega), if_pos (by omega), eq_head (b := b) (by omega),
    eq_tail range.1 range.2 (by omega)]
  rfl

private theorem spells_three {b : UInt8} {x low high : Nat} (head : b.toNat = 0xE0 + x)
    (small : x < 16) (bounds : 0x80 ≤ low ∧ high ≤ 0xBF) (short : x = 0 → 0xA0 ≤ low)
    (surrogate : x = 0xD → high ≤ 0x9F) : Spells [b] (.more ⟨x, 2, low, high⟩) := by
  refine spells_next (by simp) fun c accepted => spells_last rfl fun d accepted' => ?_
  have range := accepts_iff.1 accepted
  have range' := accepts_iff.1 accepted'
  simp only at range range'
  have valid : (x * 64 + c.toNat % 64) * 64 + d.toNat % 64 < 0xD800 ∨
      0xDFFF < (x * 64 + c.toNat % 64) * 64 + d.toNat % 64 ∧
        (x * 64 + c.toNat % 64) * 64 + d.toNat % 64 < 0x110000 := by omega
  simp only [String.utf8EncodeChar, val_ofNat valid]
  rw [if_neg (by omega), if_neg (by omega), if_pos (by omega), eq_head (b := b) (by omega),
    eq_tail (b := c) (by omega) (by omega) (by omega), eq_tail range'.1 range'.2 (by omega)]
  rfl

private theorem spells_four {b : UInt8} {x low high : Nat} (head : b.toNat = 0xF0 + x)
    (small : x < 5) (bounds : 0x80 ≤ low ∧ high ≤ 0xBF) (short : x = 0 → 0x90 ≤ low)
    (last : x = 4 → high ≤ 0x8F) : Spells [b] (.more ⟨x, 3, low, high⟩) := by
  refine spells_next (by simp) fun c accepted => spells_next (by simp) fun d accepted' =>
    spells_last rfl fun e accepted'' => ?_
  have range := accepts_iff.1 accepted
  have range' := accepts_iff.1 accepted'
  have range'' := accepts_iff.1 accepted''
  simp only at range range' range''
  have valid : ((x * 64 + c.toNat % 64) * 64 + d.toNat % 64) * 64 + e.toNat % 64 < 0xD800 ∨
      0xDFFF < ((x * 64 + c.toNat % 64) * 64 + d.toNat % 64) * 64 + e.toNat % 64 ∧
        ((x * 64 + c.toNat % 64) * 64 + d.toNat % 64) * 64 + e.toNat % 64 < 0x110000 := by omega
  simp only [String.utf8EncodeChar, val_ofNat valid]
  rw [if_neg (by omega), if_neg (by omega), if_neg (by omega), eq_head (b := b) (by omega),
    eq_tail (b := c) (by omega) (by omega) (by omega), eq_tail range'.1 range'.2 (by omega),
    eq_tail range''.1 range''.2 (by omega)]
  rfl

theorem spells_start (b : UInt8) : Spells [b] (start b) := by
  unfold start
  simp only
  split
  · exact .char (spells_one (by assumption))
  split
  · exact .bad _
  split
  · exact spells_two (by omega) (by omega)
  split
  · exact spells_three (by omega) (by omega) (by omega) (by omega) (by omega)
  split
  · exact spells_three (by omega) (by omega) (by omega) (by omega) (by omega)
  split
  · exact spells_three (by omega) (by omega) (by omega) (by omega) (by omega)
  split
  · exact spells_four (by omega) (by omega) (by omega) (by omega) (by omega)
  split
  · exact spells_four (by omega) (by omega) (by omega) (by omega) (by omega)
  split
  · exact spells_four (by omega) (by omega) (by omega) (by omega) (by omega)
  · exact .bad _

private theorem collect_cons_eq_ok {c : Char} {rest : List (Except Defect Char)} {cs : List Char}
    (h : collect (.ok c :: rest) = .ok cs) :
    ∃ others, cs = c :: others ∧ collect rest = .ok others := by
  rw [collect] at h
  cases others : collect rest with
  | error defect =>
      rw [others] at h
      cases h
  | ok found =>
      rw [others] at h
      cases h
      exact ⟨found, rfl, rfl⟩

theorem flatMap_of_collect {read : List UInt8} {s : Start} (spells : Spells read s)
    {rest : List UInt8} {cs : List Char} (h : collect (itemsAfter s rest) = .ok cs) :
    cs.flatMap String.utf8EncodeChar = read ++ rest := by
  induction rest generalizing read s cs with
  | nil =>
      cases spells with
      | char spelt =>
          obtain ⟨others, rfl, done⟩ := collect_cons_eq_ok h
          cases done
          simp [spelt]
      | more | bad => cases h
  | cons b rest ih =>
      cases spells with
      | char spelt =>
          obtain ⟨others, rfl, later⟩ := collect_cons_eq_ok h
          rw [List.flatMap_cons, spelt, ih (spells_start b) later]
          rfl
      | more next =>
          rw [itemsAfter] at h
          split at h
          · next accepted =>
            rw [ih (next b accepted) h, List.append_assoc]
            rfl
          · cases h
      | bad => cases h

/-- Strict decoding takes each text in one spelling only. -/
theorem flatMap_of_decode {bytes : List UInt8} {cs : List Char} (h : decode bytes = .ok cs) :
    cs.flatMap String.utf8EncodeChar = bytes := by
  cases bytes with
  | nil =>
      cases h
      rfl
  | cons b rest => exact flatMap_of_collect (spells_start b) h

theorem decode_append {a b : List UInt8} {cs ds : List Char} (ha : decode a = .ok cs)
    (hb : decode b = .ok ds) : decode (a ++ b) = .ok (cs ++ ds) := by
  rw [← flatMap_of_decode ha, ← flatMap_of_decode hb, ← List.flatMap_append]
  exact decode_flatMap_utf8EncodeChar (cs ++ ds)

end Templating.Text.Utf8
