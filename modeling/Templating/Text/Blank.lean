/-!
# White space and line breaks

White space is the characters that separate words in any script. Lines end at a line feed, a
carriage return (alone or before a line feed), a vertical tab, a form feed, one of the file, group
and record separators, the next-line control, or a line or paragraph separator.
-/

namespace Templating.Text

def isBlank (c : Char) : Bool :=
  let n := c.toNat
  (9 ≤ n && n ≤ 13) || (28 ≤ n && n ≤ 32) || n == 0x85 || n == 0xA0 || n == 0x1680 ||
    (0x2000 ≤ n && n ≤ 0x200A) || n == 0x2028 || n == 0x2029 || n == 0x202F || n == 0x205F ||
    n == 0x3000

def trim (cs : List Char) : List Char :=
  ((cs.dropWhile isBlank).reverse.dropWhile isBlank).reverse

def isLineBreak (c : Char) : Bool :=
  let n := c.toNat
  (10 ≤ n && n ≤ 13) || (28 ≤ n && n ≤ 30) || n == 0x85 || n == 0x2028 || n == 0x2029

/-- The lines of a text whose current line so far is `line`, last character first. -/
def linesFrom (line : List Char) : List Char → List (List Char)
  | [] => if line.isEmpty then [] else [line.reverse]
  | '\r' :: '\n' :: rest => line.reverse :: linesFrom [] rest
  | c :: rest =>
    if isLineBreak c then line.reverse :: linesFrom [] rest else linesFrom (c :: line) rest

theorem plain_of_mem_linesFrom {line text : List Char} (plain : ∀ c ∈ line, isLineBreak c = false) :
    ∀ found ∈ linesFrom line text, ∀ c ∈ found, isLineBreak c = false := by
  fun_induction linesFrom line text with
  | case1 => simp
  | case2 => simpa using plain
  | case3 line rest ih | case4 line c rest _ breaks ih =>
      rw [List.forall_mem_cons]
      exact ⟨by simpa using plain, ih (by simp)⟩
  | case5 line c rest _ keeps ih =>
      apply ih
      rw [List.forall_mem_cons]
      exact ⟨by simpa using keeps, plain⟩

/-- The lines of a text, without their ends; a break at the very end opens no further line. -/
def lines (text : String) : List String :=
  (linesFrom [] text.toList).map String.ofList

def padLeft (width : Nat) (text : String) : String :=
  String.ofList (List.replicate (width - text.length) ' ') ++ text

theorem isBlank_of_isWhitespace (c : Char) (h : c.isWhitespace = true) : isBlank c = true := by
  simp only [Char.isWhitespace, Bool.or_eq_true, decide_eq_true_eq] at h
  rcases h with ((rfl | rfl) | rfl) | rfl <;> decide

theorem linesFrom_keep {c : Char} (plain : isLineBreak c = false) (line rest : List Char) :
    linesFrom line (c :: rest) = linesFrom (c :: line) rest := by
  rw [linesFrom]
  · simp [plain]
  · intro _ carriage _
    rw [carriage] at plain
    exact absurd plain (by decide)

theorem linesFrom_break {c : Char} (breaks : isLineBreak c = true) {rest : List Char}
    (single : c = '\r' → rest.head? ≠ some '\n') (line : List Char) :
    linesFrom line (c :: rest) = line.reverse :: linesFrom [] rest := by
  rw [linesFrom]
  · simp [breaks]
  · intro _ carriage feed
    exact single carriage (by rw [feed]; rfl)

end Templating.Text
