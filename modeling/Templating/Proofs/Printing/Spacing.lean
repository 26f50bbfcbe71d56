import Templating.Proofs.Printing.Delimited
import Templating.Proofs.Printing.ReadBack
import Templating.Proofs.Template.Source

/-!
# White space in closing tags

A closing tag has white space in front of its slash, behind it, and behind the name, and is read as
one whatever that white space is.
-/

namespace Templating.Construct

open Expression Remaining

/-! ## Runs of white space -/

theorem ne_of_isBlank {c d : Char} (blank : Text.isBlank c = true)
    (other : Text.isBlank d = false) : c ≠ d := by
  rintro rfl
  cases blank.symm.trans other

theorem isNamePart_of_isBlank {c : Char} (blank : Text.isBlank c = true) :
    isNamePart c = false := by
  by_contra part
  simp only [isNamePart, Char.isAlphanum, Bool.or_eq_true, Bool.not_eq_false] at part
  rcases part with (letter | digit) | line
  · have start : isNameStart c = true := by simp [isNameStart, letter]
    have range := range_of_isNameStart start
    cases blank.symm.trans (isBlank_of_range (by omega) range.2)
  · have range := range_of_isDigit digit
    cases blank.symm.trans (isBlank_of_range (by omega) (by omega))
  · rw [beq_iff_eq.1 line] at blank
    cases blank

theorem skipBlanks_append {blanks : List Char} (blank : ∀ c ∈ blanks, Text.isBlank c = true)
    (rest : List Char) (p : Position) :
    skipBlanks ⟨blanks ++ rest, p⟩ = skipBlanks ⟨rest, p.afterChars blanks⟩ := by
  induction blanks generalizing p with
  | nil => rfl
  | cons c blanks ih =>
      obtain ⟨own, others⟩ := List.forall_mem_cons.1 blank
      rw [List.cons_append, skipBlanks_blank own, ih others]
      rfl

theorem atEnd_of_blank {blanks : List Char} (blank : ∀ c ∈ blanks, Text.isBlank c = true)
    (p : Position) : AtEnd ⟨blanks, p⟩ := by
  have run := skipBlanks_append blank [] p
  rw [List.append_nil] at run
  rw [AtEnd, run]
  rfl

theorem readName_append {name : String} (isName : IsName name) {rest : List Char}
    (stop : ∀ c, rest.head? = some c → isNamePart c = false) (p : Position) :
    readName ⟨name.toList ++ rest, p⟩ = .ok (name, ⟨rest, p.right name.length⟩) := by
  obtain ⟨-, split, after⟩ := split_name isName stop p
  simp only [readName, split, after]

/-! ## Closing tags -/

/-- The white space of a closing tag: in front of the slash, behind it, and behind the name. -/
structure Spacing where
  front : List Char
  inner : List Char
  back : List Char
  blank : ∀ c ∈ front ++ inner ++ back, Text.isBlank c = true

namespace Spacing

def content (s : Spacing) (name : String) : List Char :=
  s.front ++ '/' :: (s.inner ++ (name.toList ++ s.back))

def closingTag (s : Spacing) (name : String) : List UInt8 :=
  Delimiter.statement.openingBytes ++ encodeChars (s.content name) ++
    Delimiter.statement.closingBytes

variable {name : String}

theorem blank_front (s : Spacing) : ∀ c ∈ s.front, Text.isBlank c = true :=
  fun c member => s.blank c (by simp [member])

theorem blank_inner (s : Spacing) : ∀ c ∈ s.inner, Text.isBlank c = true :=
  fun c member => s.blank c (by simp [member])

theorem blank_back (s : Spacing) : ∀ c ∈ s.back, Text.isBlank c = true :=
  fun c member => s.blank c (by simp [member])

theorem exists_readName (s : Spacing) (isName : IsName name) (p : Position) :
    ∃ q, readName ⟨s.inner ++ (name.toList ++ s.back), p⟩ = .ok (name, ⟨s.back, q⟩) := by
  have stop : ∀ c, s.back.head? = some c → isNamePart c = false := fun c head =>
    isNamePart_of_isBlank (s.blank_back c (List.mem_of_head? head))
  have named := readName_append isName stop (p.afterChars s.inner)
  rw [readName, skipBlanks_append s.blank_inner, ← readName, named]
  exact ⟨_, rfl⟩

theorem statement (s : Spacing) (isName : IsName name) (p q : Position) :
    Statement p ⟨s.content name, q⟩ (.closing p name) := by
  have begins : skipBlanks ⟨s.content name, q⟩ =
      ⟨'/' :: (s.inner ++ (name.toList ++ s.back)), q.afterChars s.front⟩ := by
    rw [content, skipBlanks_append s.blank_front]
    exact skipBlanks_cons (by decide) _ _
  obtain ⟨place, named⟩ := s.exists_readName isName ((q.afterChars s.front).right 1)
  apply Statement.closing _ named (atEnd_of_blank s.blank_back place)
  rw [begins]
  exact take?_cons '/' _ _

theorem closed (s : Spacing) (isName : IsName name) : Closed (s.content name) := by
  have plain {cs : List Char} (blank : ∀ c ∈ cs, Text.isBlank c = true) : Closed cs := by
    apply closed_of_plain
    intro c member
    have own := blank c member
    refine ⟨?_, ?_, ?_, ?_⟩ <;> exact ne_of_isBlank own (by decide)
  have named := (closed_name isName).append (plain s.blank_back)
  exact (plain s.blank_front).append
    (closed_cons '/' ((plain s.blank_inner).append named) (by decide))

theorem piece (s : Spacing) (isName : IsName name) (p : Position) (rest : List UInt8) :
    Piece p (s.closingTag name) rest (some (.closing p name)) :=
  .statement (splitContent?_closed (by decide) (s.closed isName) rest)
    (decode_encodeChars _) (s.statement isName p (p.right 2)) (by simp)

end Spacing

end Templating.Construct
