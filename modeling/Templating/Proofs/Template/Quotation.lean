import Templating.Proofs.Error.Layout
import Templating.Proofs.Template.Diagnostics

/-!
# The line that a syntax error quotes

A syntax error counts line feeds to the line on which it stands, and looks that number up among the
lines of the text, which more characters than line feeds part.  Thus it quotes the line on which it
stands as long as only line feeds break the source up to there.
-/

namespace Templating

open Text (isLineBreak lineText strays)

/-- The line of a position has a byte, or a line feed behind it. -/
theorem Points.exists_line {data : List UInt8} {p : Position} (h : Points data p) :
    ∃ above row below : List UInt8, data = above ++ (row ++ below) ∧ row ++ below ≠ [] ∧
      p.line = 1 + above.count 10 ∧ (above = [] ∨ above.getLast? = some 10) ∧ 10 ∉ row ∧
      (below = [] ∨ below.head? = some 10) := by
  obtain ⟨before, after, rfl, ahead, line, -⟩ := h
  obtain ⟨row, ⟨above, below, whole, count, ended, plain, stop⟩, -⟩ :=
    Position.exists_isLine before after
  rw [List.append_assoc] at whole
  refine ⟨above, row, below, whole, fun nothing => ?_, line.trans count, ended, plain, stop⟩
  -- Were it not so, then the last line feed of the source would be counted.
  rw [nothing, List.append_nil] at whole
  subst whole
  have none : after.count 10 = 0 := by
    simp only [Position.following, List.count_append] at count
    omega
  rcases ended with empty | last
  · simp_all
  · rw [List.getLast?_append_of_ne_nil _ ahead] at last
    exact List.count_eq_zero.1 none (List.mem_of_getLast? last)

namespace Text

theorem takeWhile_append_break (row : List Char) {c : Char} (breaks : isLineBreak c = true)
    (rest : List Char) :
    (row ++ c :: rest).takeWhile (!isLineBreak ·) = row.takeWhile (!isLineBreak ·) := by
  induction row with
  | nil => simp [breaks]
  | cons d row ih =>
      rw [List.cons_append, List.takeWhile_cons, List.takeWhile_cons, ih]

def linesOf (data : List UInt8) : List (List Char) := linesFrom [] (Utf8.decodeLossy data)

section

variable {above row below : List UInt8}

/-- Among the lines of a text the first piece of a line of bytes stands further on by the stray
breaks before it. -/
theorem getElem?_linesOf (some_ : row ++ below ≠ [])
    (ended : above = [] ∨ above.getLast? = some 10) (stop : below = [] ∨ below.head? = some 10) :
    (linesOf (above ++ (row ++ below)))[above.count 10 + strays (Utf8.decodeLossy above)]? =
      some ((Utf8.decodeLossy row).takeWhile (!isLineBreak ·)) := by
  obtain ⟨split, ended'⟩ := Utf8.decodeLossy_of_ended ended (row ++ below)
  rw [linesOf, split, ← Utf8.count_decodeLossy,
    getElem?_linesFrom ended' (Utf8.decodeLossy_ne_nil some_)]
  rcases stop with rfl | feed
  · rw [List.append_nil]
  · obtain ⟨rest, rfl⟩ := List.head?_eq_some_iff.1 feed
    rw [Utf8.decodeLossy_append row (by simp), Utf8.decodeLossy_small (by decide),
      takeWhile_append_break _ (by decide)]

/-- The line of the text at the place of a line of bytes, and when it is that line. -/
theorem exists_getElem?_linesOf (some_ : row ++ below ≠ [])
    (ended : above = [] ∨ above.getLast? = some 10) (stop : below = [] ∨ below.head? = some 10) :
    ∃ found, (linesOf (above ++ (row ++ below)))[above.count 10]? = some found ∧
      (found = lineText row ↔ (∀ c ∈ lineText row, isLineBreak c = false) ∧
        (linesOf (above ++ (row ++ below)))[above.count 10]? =
          (linesOf (above ++ (row ++ below)))[
            above.count 10 + strays (Utf8.decodeLossy above)]?) := by
  have piece := getElem?_linesOf some_ ended stop
  obtain ⟨inside, -⟩ := List.getElem?_eq_some_iff.1 piece
  have here := List.getElem?_eq_getElem (Nat.lt_of_le_of_lt (Nat.le_add_right _ _) inside)
  refine ⟨_, here, ?_⟩
  rw [piece, here, Option.some_inj]
  constructor
  · intro same
    have plain := plain_of_mem_linesFrom (by simp) _ (List.mem_of_getElem? here)
    rw [same] at plain ⊢
    exact ⟨plain, (takeWhile_eq_lineText_iff.2 plain).symm⟩
  · rintro ⟨plain, same⟩
    rw [same]
    exact takeWhile_eq_lineText_iff.2 plain

end

end Text

namespace Template

open SyntaxError

/-- Both reports of a syntax error show the same line, and that is the line on which the error stands
if nothing but line feeds breaks the source up to its end, or the text has the same line twice. -/
theorem quoted_line {file : String} {data : List UInt8} {e : SyntaxError}
    (h : parse file data = .error (.malformed e)) :
    ∃ (line : Nat) (content : String) (above row below : List UInt8),
      e.line = some ↑line ∧ e.Shows line content ∧
      data = above ++ (row ++ below) ∧ line = 1 + above.count 10 ∧
      (above = [] ∨ above.getLast? = some 10) ∧ 10 ∉ row ∧ (below = [] ∨ below.head? = some 10) ∧
      (content.toList = lineText row ↔ (∀ c ∈ lineText row, isLineBreak c = false) ∧
        (Text.linesOf data)[line - 1]? =
          (Text.linesOf data)[line - 1 + strays (Text.Utf8.decodeLossy above)]?) := by
  obtain ⟨failure, failed, explained⟩ := mapError_eq_error_iff.1 h
  cases failure with
  | fault f => cases explained
  | malformed problem p =>
      cases explained
      obtain ⟨above, row, below, rfl, some_, line, ended, plain, stop⟩ :=
        (diagnosis_of_read failed).points.exists_line
      obtain ⟨found, here, own⟩ := Text.exists_getElem?_linesOf some_ ended stop
      have index : 1 + above.count 10 - 1 = above.count 10 := by omega
      have number : some p.line = some (((1 + above.count 10 : Nat)) : Int) := by simp [line]
      refine ⟨1 + above.count 10, String.ofList found, above, row, below, number, ?_, rfl, rfl,
        ended, plain, stop, ?_⟩
      · refine Quotes.shows (⟨rfl, number, rfl, by omega, ?_⟩ : Quotes _ _ _ p.column _)
        rw [Text.linesOf] at here
        rw [index, Text.lines, String.toList_ofList, List.getElem?_map, here, Option.map_some]
      · rwa [String.toList_ofList, index]

/-- A form feed on the first line, and an output on the second that nothing closes. -/
def fedSource : List UInt8 := [97, 12, 98, 10, 123, 123]

def fedError : SyntaxError :=
  ⟨.unclosed .output, some "template", some 2, some 0, some "a\x0cb\n\x7b\x7b"⟩

theorem quoted_line_fedSource :
    parse "template" fedSource = .error (.malformed fedError) ∧
      ∃ (line : Nat) (content : String) (above row below : List UInt8),
        fedError.line = some ↑line ∧ fedError.Shows line content ∧
        fedSource = above ++ (row ++ below) ∧ line = 1 + above.count 10 := by
  have parsed : parse "template" fedSource = .error (.malformed fedError) := rfl
  obtain ⟨line, content, above, row, below, number, shows, whole, count, -⟩ := quoted_line parsed
  exact ⟨parsed, line, content, above, row, below, number, shows, whole, count⟩

/-- The second piece of the first line is quoted in the place of the second line. -/
theorem quoted_other_line :
    parse "template" fedSource = .error (.malformed fedError) ∧
    rows fedError.text = ["Syntax Error: Unclosed '\x7b\x7b'; expected '\x7d\x7d'".toList,
      "  --> template:2:0".toList, "   |".toList, "  2 | b".toList, "   | ^".toList] ∧
    lineText [123, 123] = "\x7b\x7b".toList := by
  refine ⟨rfl, ?_, ?_⟩ <;> decide +kernel

end Template

end Templating
