import Mathlib.Data.List.Infix
import Templating.Error.Report

/-!
# Colours that come off

A colour sequence is an escape, a bracket, parameters and the letter that ends it.  A text in
colours decorates a plain one if the plain one is what is left without the sequences.  A report is
searched for its code before it is put in front, so both texts have to show the same codes as well:
no sequence stands within one.
-/

namespace Templating

/-! ## Colour sequences -/

namespace Colour

/-- What stands behind the parameters of a colour sequence and the letter that ends it. -/
def afterParameters? : List Char → Option (List Char)
  | [] => none
  | c :: rest =>
    if c = 'm' then some rest
    else if c.isDigit || c = ';' then afterParameters? rest
    else none

/-- What stands behind the colour sequence that a text begins with. -/
def afterSequence? : List Char → Option (List Char)
  | '\x1b' :: '[' :: rest => afterParameters? rest
  | _ => none

theorem length_of_afterParameters? {text rest : List Char}
    (h : afterParameters? text = some rest) : rest.length < text.length := by
  induction text with
  | nil => cases h
  | cons c text ih =>
      rw [afterParameters?] at h
      split at h
      · cases h
        exact Nat.lt_succ_self _
      split at h
      · exact Nat.lt_succ_of_lt (ih h)
      · cases h

theorem length_of_afterSequence? {text rest : List Char}
    (h : afterSequence? text = some rest) : rest.length < text.length := by
  unfold afterSequence? at h
  split at h
  · exact Nat.lt_succ_of_lt (Nat.lt_succ_of_lt (length_of_afterParameters? h))
  · cases h

/-- The text without its colour sequences. -/
def strip (text : List Char) : List Char :=
  match text with
  | [] => []
  | c :: rest =>
    match _ : afterSequence? (c :: rest) with
    | some behind => strip behind
    | none => c :: strip rest
termination_by text.length
decreasing_by
  · exact length_of_afterSequence? ‹_›
  · exact Nat.lt_succ_self _

theorem strip_of_afterSequence? {text behind : List Char}
    (h : afterSequence? text = some behind) : strip text = strip behind := by
  cases text with
  | nil => cases h
  | cons c rest =>
      rw [strip]
      split
      · next found =>
        rw [h] at found
        rw [Option.some.inj found]
      · next found =>
        rw [h] at found
        cases found

theorem strip_cons {c : Char} (plain : c ≠ '\x1b') (rest : List Char) :
    strip (c :: rest) = c :: strip rest := by
  have none_ : afterSequence? (c :: rest) = none := by
    unfold afterSequence?
    split
    · next same =>
      cases same
      exact absurd rfl plain
    · rfl
  rw [strip]
  split
  · next found =>
    rw [none_] at found
    cases found
  · rfl

theorem strip_append {text : List Char} (plain : '\x1b' ∉ text) (rest : List Char) :
    strip (text ++ rest) = text ++ strip rest := by
  induction text with
  | nil => rfl
  | cons c text ih =>
      rw [List.mem_cons, not_or] at plain
      rw [List.cons_append, strip_cons (Ne.symm plain.1), ih plain.2, List.cons_append]

theorem strip_sequence (colour : Colour) (rest : List Char) :
    strip (colour.sequence.toList ++ rest) = strip rest := by
  cases colour <;> exact strip_of_afterSequence? rfl

end Colour

def stripColours (text : String) : String := String.ofList (Colour.strip text.toList)

/-! ## Codes in a text -/

namespace Text

theorem occursIn_iff_infix {α : Type} [BEq α] [LawfulBEq α] {needle text : List α} :
    occursIn needle text = true ↔ needle <:+: text := by
  unfold occursIn
  induction text with
  | nil => cases needle <;> simp [splitAtFirst?]
  | cons x rest ih =>
      rw [splitAtFirst?, List.infix_cons_iff, ← List.isPrefixOf_iff_prefix, ← ih]
      split
      · next begins => simp [begins]
      · next other => simp [other]

/-- What occurs in a text without some character occurs before or behind it. -/
theorem infix_append_cons_iff {α : Type} {needle : List α} {x : α} (other : x ∉ needle)
    (before rest : List α) :
    needle <:+: before ++ x :: rest ↔ needle <:+: before ∨ needle <:+: rest := by
  constructor
  · rintro ⟨left, right, same⟩
    rw [List.append_eq_append_iff] at same
    rcases same with ⟨inside, rfl, -⟩ | ⟨later, same, behind⟩
    · exact .inl ⟨left, inside, rfl⟩
    · rw [List.append_eq_append_iff] at same
      rcases same with ⟨inside, rfl, rfl⟩ | ⟨later', rfl, rfl⟩
      · cases later with
        | nil => exact .inl ⟨left, [], by simp⟩
        | cons y later =>
            obtain ⟨rfl, -⟩ := List.cons.inj behind
            exact absurd (List.mem_append_right inside List.mem_cons_self) other
      · cases later' with
        | nil =>
            cases needle with
            | nil => exact .inl List.nil_infix
            | cons y needle =>
                obtain ⟨rfl, -⟩ := List.cons.inj behind
                exact absurd List.mem_cons_self other
        | cons y later' =>
            obtain ⟨-, rfl⟩ := List.cons.inj behind
            exact .inr ⟨later', right, rfl⟩
  · rintro (inside | inside)
    · exact inside.trans (List.prefix_append _ _).isInfix
    · exact (List.infix_cons inside).trans (List.suffix_append _ _).isInfix

end Text

namespace Code

/-- Codes are made of capitals, digits and hyphens. -/
def holds (c : Char) : Bool := c.isUpper || c.isDigit || c == '-'

theorem holds_of_mem (code : Code) : ∀ c ∈ code.text.toList, holds c = true :=
  List.all_eq_true.1 (by cases code <;> rfl)

theorem infix_append_cons_iff (code : Code) {c : Char} (apart : holds c = false)
    (before rest : List Char) :
    code.text.toList <:+: before ++ c :: rest ↔
      code.text.toList <:+: before ∨ code.text.toList <:+: rest := by
  refine Text.infix_append_cons_iff (fun inside => ?_) before rest
  rw [code.holds_of_mem c inside] at apart
  cases apart

/-- Every code has this letter in it. -/
theorem not_infix (code : Code) {text : List Char} (without : 'S' ∉ text) :
    ¬ code.text.toList <:+: text := by
  intro inside
  have letter : 'S' ∈ code.text.toList := by cases code <;> decide
  exact without (inside.subset letter)

end Code

/-! ## Decorated texts -/

/-- There is no escape in the text. -/
def EscapeFree (text : String) : Prop := '\x1b' ∉ text.toList

instance (text : String) : Decidable (EscapeFree text) :=
  inferInstanceAs (Decidable ('\x1b' ∉ text.toList))

/-- The text begins with a character that is in no code. -/
def OpensApart (text : String) : Prop := ∃ c ∈ text.toList.head?, Code.holds c = false

/-- The text ends with a character that is in no code. -/
def ClosesApart (text : String) : Prop := ∃ c ∈ text.toList.getLast?, Code.holds c = false

theorem EscapeFree.literal {cs : List Char} (h : cs.contains '\x1b' = false) :
    EscapeFree (String.ofList cs) := by
  rw [EscapeFree, String.toList_ofList]
  simpa using h

theorem OpensApart.literal {cs : List Char} (h : (cs.head?.any fun c => !Code.holds c) = true) :
    OpensApart (String.ofList cs) := by
  rw [OpensApart, String.toList_ofList]
  simpa [Option.any_eq_true] using h

theorem ClosesApart.literal {cs : List Char}
    (h : (cs.getLast?.any fun c => !Code.holds c) = true) : ClosesApart (String.ofList cs) := by
  rw [ClosesApart, String.toList_ofList]
  simpa [Option.any_eq_true] using h

theorem escapeFree_append {a b : String} : EscapeFree (a ++ b) ↔ EscapeFree a ∧ EscapeFree b := by
  simp [EscapeFree]

theorem EscapeFree.append {a b : String} (first : EscapeFree a) (second : EscapeFree b) :
    EscapeFree (a ++ b) :=
  escapeFree_append.2 ⟨first, second⟩

theorem EscapeFree.append₃ {a b c : String} (first : EscapeFree a) (second : EscapeFree b)
    (third : EscapeFree c) : EscapeFree (a ++ b ++ c) :=
  (first.append second).append third

theorem OpensApart.append {text : String} (h : OpensApart text) (more : String) :
    OpensApart (text ++ more) := by
  obtain ⟨c, begins, apart⟩ := h
  refine ⟨c, ?_, apart⟩
  rw [String.toList_append, List.head?_append, Option.mem_def.1 begins]
  rfl

theorem OpensApart.infix_append_iff {text : String} (h : OpensApart text) (code : Code)
    (before : List Char) :
    code.text.toList <:+: before ++ text.toList ↔
      code.text.toList <:+: before ∨ code.text.toList <:+: text.toList := by
  obtain ⟨c, begins, apart⟩ := h
  obtain ⟨rest, whole⟩ := List.head?_eq_some_iff.1 begins
  have alone := code.infix_append_cons_iff apart [] rest
  have nothing := code.not_infix (List.not_mem_nil : 'S' ∉ [])
  rw [List.nil_append] at alone
  rw [whole, code.infix_append_cons_iff apart, alone, or_iff_right nothing]

theorem ClosesApart.infix_append_iff {text : String} (h : ClosesApart text) (code : Code)
    (more : List Char) :
    code.text.toList <:+: text.toList ++ more ↔
      code.text.toList <:+: text.toList ∨ code.text.toList <:+: more := by
  obtain ⟨c, ends, apart⟩ := h
  obtain ⟨before, whole⟩ := List.getLast?_eq_some_iff.1 ends
  have nothing := code.not_infix (List.not_mem_nil : 'S' ∉ [])
  rw [whole, List.append_assoc, List.singleton_append, code.infix_append_cons_iff apart,
    code.infix_append_cons_iff apart, or_iff_left nothing]

/-- A text that may stand between two others: it has no escape and is apart from both. -/
structure Separates (text : String) : Prop where
  plain : EscapeFree text
  opens : OpensApart text
  closes : ClosesApart text

def isSeparator (cs : List Char) : Bool :=
  !cs.contains '\x1b' && (cs.head?.any fun c => !Code.holds c) &&
    cs.getLast?.any fun c => !Code.holds c

theorem Separates.literal {cs : List Char} (h : isSeparator cs = true) :
    Separates (String.ofList cs) := by
  simp only [isSeparator, Bool.and_eq_true, Bool.not_eq_true'] at h
  exact ⟨.literal h.1.1, .literal h.1.2, .literal h.2⟩

/-- The one text is the other one with colour sequences in it, and none of them in a code. -/
structure Decorates (coloured plain : String) : Prop where
  strip_append : ∀ rest,
    Colour.strip (coloured.toList ++ rest) = plain.toList ++ Colour.strip rest
  sameCodes : ∀ code : Code, code.text.toList <:+: coloured.toList ↔
    code.text.toList <:+: plain.toList

namespace Decorates

variable {a b c d : String}

theorem refl (plain : EscapeFree a) : Decorates a a :=
  ⟨Colour.strip_append plain, fun _ => Iff.rfl⟩

theorem stripColours_eq (h : Decorates a b) : stripColours a = b := by
  have stripped := h.strip_append []
  rw [Colour.strip, List.append_nil, List.append_nil] at stripped
  rw [stripColours, stripped, String.ofList_toList]

theorem occursIn_eq (h : Decorates a b) (code : Code) :
    Text.occursIn code.text.toList a.toList = Text.occursIn code.text.toList b.toList := by
  rw [Bool.eq_iff_iff, Text.occursIn_iff_infix, Text.occursIn_iff_infix]
  exact h.sameCodes code

theorem strip_append_append (h : Decorates a b) (h' : Decorates c d) (rest : List Char) :
    Colour.strip ((a ++ c).toList ++ rest) = (b ++ d).toList ++ Colour.strip rest := by
  rw [String.toList_append, String.toList_append, List.append_assoc, List.append_assoc,
    h.strip_append, h'.strip_append]

/-- A text may follow that begins apart in both forms. -/
theorem append (h : Decorates a b) (h' : Decorates c d) (opens : OpensApart c)
    (opens' : OpensApart d) : Decorates (a ++ c) (b ++ d) := by
  refine ⟨h.strip_append_append h', fun code => ?_⟩
  rw [String.toList_append, String.toList_append, opens.infix_append_iff, opens'.infix_append_iff,
    h.sameCodes, h'.sameCodes]

theorem append_plain (h : Decorates a b) (plain : EscapeFree c) (opens : OpensApart c) :
    Decorates (a ++ c) (b ++ c) :=
  h.append (refl plain) opens opens

theorem plain_append (h : Decorates a b) (plain : EscapeFree c) (closes : ClosesApart c) :
    Decorates (c ++ a) (c ++ b) := by
  refine ⟨(refl plain).strip_append_append h, fun code => ?_⟩
  rw [String.toList_append, String.toList_append, closes.infix_append_iff,
    closes.infix_append_iff, h.sameCodes]

theorem between (h : Decorates a b) (h' : Decorates c d) {text : String}
    (separates : Separates text) : Decorates (a ++ text ++ c) (b ++ text ++ d) := by
  have later := h'.plain_append separates.plain separates.closes
  rw [String.append_assoc, String.append_assoc]
  exact h.append later (separates.opens.append c) (separates.opens.append d)

theorem intercalate {text : String} (separates : Separates text) {parts parts' : List String}
    (h : List.Forall₂ Decorates parts parts') :
    Decorates (String.intercalate text parts) (String.intercalate text parts') := by
  induction h with
  | nil => exact refl (by simp [EscapeFree])
  | cons first rest ih =>
      cases rest with
      | nil => simpa using first
      | cons second rest =>
          rw [String.intercalate_cons_cons, String.intercalate_cons_cons]
          exact first.between ih separates

/-! A colour sequence may stand before a text or behind it. -/

theorem sequence_append (h : Decorates a b) (colour : Colour) :
    Decorates (colour.sequence ++ a) b := by
  refine ⟨fun rest => ?_, fun code => ?_⟩
  · rw [String.toList_append, List.append_assoc, Colour.strip_sequence, h.strip_append]
  · have closes : ClosesApart colour.sequence := by
      cases colour <;> exact .literal rfl
    have without : 'S' ∉ colour.sequence.toList := by cases colour <;> decide
    rw [String.toList_append, closes.infix_append_iff, or_iff_right (code.not_infix without),
      h.sameCodes]

theorem append_sequence (h : Decorates a b) (colour : Colour) :
    Decorates (a ++ colour.sequence) b := by
  refine ⟨fun rest => ?_, fun code => ?_⟩
  · rw [String.toList_append, List.append_assoc, h.strip_append, Colour.strip_sequence]
  · have opens : OpensApart colour.sequence := by
      cases colour <;> exact .literal rfl
    have without : 'S' ∉ colour.sequence.toList := by cases colour <;> decide
    rw [String.toList_append, opens.infix_append_iff, or_iff_left (code.not_infix without),
      h.sameCodes]

theorem sequences_append (h : Decorates a b) (colours : List Colour) :
    Decorates (String.join (colours.map Colour.sequence) ++ a) b := by
  induction colours with
  | nil => simpa using h
  | cons colour rest ih =>
      rw [List.map_cons, String.join_cons, String.append_assoc]
      exact ih.sequence_append colour

theorem paint (h : Decorates a b) (colours : List Colour) :
    Decorates (Style.coloured.paint colours a) (Style.plain.paint colours b) := by
  cases colours with
  | nil => exact h
  | cons colour rest => exact (h.sequences_append (colour :: rest)).append_sequence .reset

end Decorates

end Templating
