import Templating.Proofs.Template.Stability

/-!
# Sources that are text

A source is decoded piece by piece.  The pieces meet at bytes of one-byte characters, and a source
that is text as a whole is text on both sides of such a byte.  Thus what is left of it is text
wherever the reading has come to.
-/

namespace Templating

/-- The bytes are the UTF-8 form of some characters. -/
def IsUtf8 (bytes : List UInt8) : Prop := ∃ cs, Text.Utf8.decode bytes = .ok cs

theorem isUtf8_iff {bytes : List UInt8} : IsUtf8 bytes ↔ ∃ cs, bytes = encodeChars cs := by
  constructor
  · rintro ⟨cs, decoded⟩
    exact ⟨cs, (Text.Utf8.flatMap_of_decode decoded).symm⟩
  · rintro ⟨cs, rfl⟩
    exact ⟨cs, decode_encodeChars cs⟩

namespace IsUtf8

variable {a b bytes : List UInt8}

/-- In front of a one-byte character there is no half of another one. -/
theorem split (h : IsUtf8 (a ++ b)) (small : ∀ x, b.head? = some x → x.toNat < 128) :
    IsUtf8 a ∧ IsUtf8 b := by
  obtain ⟨cs, whole⟩ := isUtf8_iff.1 h
  simp only [isUtf8_iff]
  induction cs generalizing a with
  | nil =>
      obtain ⟨rfl, rfl⟩ := List.append_eq_nil_iff.1 whole
      exact ⟨⟨[], rfl⟩, [], rfl⟩
  | cons c cs ih =>
      rcases List.eq_nil_or_concat a with rfl | ⟨front, last, ha⟩
      · exact ⟨⟨[], rfl⟩, c :: cs, whole⟩
      rw [encodeChars_cons] at whole
      -- The cut is inside of the first character, at its end, or behind it.
      rcases List.append_eq_append_iff.1 whole with ⟨mid, own, rest⟩ | ⟨mid, own, rest⟩
      · cases mid with
        | nil =>
            refine ⟨⟨[c], ?_⟩, cs, rest⟩
            rw [← List.append_nil a, ← own, encodeChars_cons]
            exact (List.append_nil _).symm
        | cons x mid =>
            obtain ⟨first, bytes, form, large⟩ := Construct.exists_utf8EncodeChar c
            have inside : x ∈ bytes := by
              rw [form] at own
              cases a with
              | nil => simp at ha
              | cons y a =>
                  rw [List.cons_append, List.cons.injEq] at own
                  rw [own.2]
                  exact List.mem_append_right a List.mem_cons_self
            have below := small x (by rw [rest]; rfl)
            have above := large x inside
            omega
      · obtain ⟨⟨ds, rfl⟩, others⟩ := ih (isUtf8_iff.2 ⟨cs, rest.symm⟩) rest.symm
        exact ⟨⟨c :: ds, by rw [own, encodeChars_cons]⟩, others⟩

theorem tail {x : UInt8} (h : IsUtf8 (x :: bytes)) (small : x.toNat < 128) : IsUtf8 bytes := by
  obtain ⟨cs, whole⟩ := isUtf8_iff.1 h
  cases cs with
  | nil => cases whole
  | cons c cs =>
      rw [encodeChars_cons] at whole
      by_cases ascii : c.toNat < 128
      · rw [Text.Utf8.utf8EncodeChar_of_lt ascii] at whole
        exact isUtf8_iff.2 ⟨cs, (List.cons.inj whole).2⟩
      · obtain ⟨first, others, form, -⟩ := Construct.exists_utf8EncodeChar c
        rw [form] at whole
        have large := Text.Utf8.le_of_mem_utf8EncodeChar (Nat.le_of_not_lt ascii)
          (form ▸ List.mem_cons_self : first ∈ String.utf8EncodeChar c)
        rw [← (List.cons.inj whole).1] at large
        omega

theorem around {x : UInt8} (h : IsUtf8 (a ++ x :: b)) (small : x.toNat < 128) :
    IsUtf8 a ∧ IsUtf8 b := by
  obtain ⟨before, after⟩ := h.split (b := x :: b) (by rintro _ ⟨⟩; exact small)
  exact ⟨before, after.tail small⟩

end IsUtf8

/-! ## Delimiters -/

theorem exists_openingBytes (d : Delimiter) :
    ∃ mark : UInt8, d.openingBytes = [123, mark] ∧ mark.toNat < 128 := by
  cases d
  · exact ⟨_, Delimiter.openingBytes_output, by decide⟩
  · exact ⟨_, Delimiter.openingBytes_statement, by decide⟩
  · exact ⟨_, Delimiter.openingBytes_comment, by decide⟩

theorem exists_closingBytes (d : Delimiter) :
    ∃ mark : UInt8, d.closingBytes = [mark, 125] ∧ mark.toNat < 128 := by
  cases d
  · exact ⟨_, Delimiter.closingBytes_output, by decide⟩
  · exact ⟨_, Delimiter.closingBytes_statement, by decide⟩
  · exact ⟨_, Delimiter.closingBytes_comment, by decide⟩

/-- A construct that is text has a content that is, and so is what follows it. -/
theorem IsUtf8.delimited {d : Delimiter} {content rest : List UInt8}
    (h : IsUtf8 (d.openingBytes ++ content ++ d.closingBytes ++ rest)) :
    IsUtf8 content ∧ IsUtf8 rest := by
  obtain ⟨mark, opening, small⟩ := exists_openingBytes d
  obtain ⟨mark', closing, small'⟩ := exists_closingBytes d
  rw [opening, closing] at h
  have inside : IsUtf8 (content ++ mark' :: 125 :: rest) := by
    refine (IsUtf8.around (a := [123]) (x := mark) ?_ small).2
    simpa using h
  obtain ⟨own, others⟩ := inside.around small'
  exact ⟨own, others.tail (by decide)⟩

/-- What is read as a raw block's closing tag begins and ends with one-byte characters. -/
theorem IsUtf8.closed {body tag rest : List UInt8} (closes : Construct.IsRawClose tag)
    (h : IsUtf8 (body ++ tag ++ rest)) : IsUtf8 body ∧ IsUtf8 rest := by
  obtain ⟨others, head⟩ := closes.head
  obtain ⟨front, last⟩ : ∃ front, tag = front ++ [125] := by
    obtain ⟨before, after, -, -, rfl⟩ := closes
    exact ⟨_, (List.append_assoc _ [Construct.percent] [125]).symm⟩
  constructor
  · rw [head, List.append_assoc, List.cons_append] at h
    exact (h.around (by decide)).1
  · rw [last, List.append_assoc, List.append_assoc, ← List.append_assoc] at h
    exact (h.around (x := 125) (by decide)).2

namespace Construct

theorem isUtf8_of_ends {bytes rest : List UInt8} (ends : rest = [] ∨ Opens rest)
    (text : IsUtf8 (bytes ++ rest)) : IsUtf8 bytes ∧ IsUtf8 rest := by
  refine text.split fun x first => ?_
  rcases ends with rfl | ⟨d, after, rfl⟩
  · cases first
  · obtain ⟨mark, opening, -⟩ := exists_openingBytes d
    rw [opening] at first
    cases first
    decide

theorem Piece.isUtf8_rest {p : Position} {bytes rest : List UInt8} {c : Option Construct}
    (h : Piece p bytes rest c) (text : IsUtf8 (bytes ++ rest)) : IsUtf8 rest := by
  cases h with
  | text _ _ ends _ => exact (isUtf8_of_ends ends text).2
  | comment | output | statement => exact text.delimited.2
  | @rawBlock q content body tag _ chars found params _ _ _ _ cut =>
      have whole : IsUtf8 (Delimiter.statement.openingBytes ++ content ++
          Delimiter.statement.closingBytes ++ (body ++ tag ++ rest)) := by
        simpa using text
      have later := whole.delimited.2
      exact (later.closed (isRawClose_of_splitRawBody? cut).1).2

theorem Reads.isUtf8_left {p q : Position} {data left : List UInt8} {constructs : List Construct}
    (h : Reads p data constructs q left) (text : IsUtf8 data) : IsUtf8 left := by
  induction h with
  | refl => exact text
  | step piece _ ih => exact ih (piece.isUtf8_rest text)

end Construct

end Templating
