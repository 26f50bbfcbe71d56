import Templating.Error.Report
import Templating.Proofs.Text.Lines

/-!
# The layout of a syntax error

A syntax error that knows its source shows a line of it, and the row of a caret, in both of its
reports.  Here are the rows of the reports, and the columns in which the line and the caret stand.
-/

namespace Templating

/-! ## Rows -/

def rows (report : String) : List (List Char) := report.toList.splitOn '\n'

theorem rows_append (above below : String) :
    rows (above ++ "\n" ++ below) = rows above ++ rows below := by
  simp [rows, List.splitOn_append_cons_self]

theorem rows_of_not_mem {row : String} (h : '\n' ∉ row.toList) : rows row = [row.toList] :=
  List.splitOn_eq_singleton h

theorem rows_intercalate {parts : List String} (some_ : parts ≠ [])
    (h : ∀ part ∈ parts, '\n' ∉ part.toList) :
    rows (String.intercalate "\n" parts) = parts.map String.toList := by
  rw [rows, String.toList_intercalate]
  apply List.splitOn_intercalate
  · simpa using h
  · simpa using some_

theorem feed_not_mem_lines {source content : String} (h : content ∈ Text.lines source) :
    '\n' ∉ content.toList := by
  obtain ⟨found, member, rfl⟩ := List.mem_map.1 h
  intro feed
  rw [String.toList_ofList] at feed
  cases Text.plain_of_mem_linesFrom (by simp) found member _ feed

theorem feed_not_mem_repr (number : Int) : '\n' ∉ number.repr.toList := by
  have digits (n : Nat) : '\n' ∉ Nat.toDigits 10 n := fun feed => by
    cases Nat.isDigit_of_mem_toDigits (by decide) (by decide) feed
  rw [Int.repr_eq_if]
  split <;> simp [digits]

/-! ## Gutters -/

namespace Snippet

/-- The width of the column for the numbers of lines. -/
def numberWidth (number : Int) : Nat := max 3 (toString number).length

def gutter (number : Int) : String := Text.padLeft 3 (toString number) ++ " | "

theorem length_gutter (number : Int) : (gutter number).length = numberWidth number + 3 := by
  have bar : " | ".length = 3 := rfl
  simp [gutter, Text.padLeft, numberWidth, bar]
  omega

theorem feed_not_mem_gutter (number : Int) : '\n' ∉ (gutter number).toList := by
  simp [gutter, Text.padLeft, feed_not_mem_repr]

theorem formatLine_plain (number : Int) (content : String) (isError : Bool) :
    formatLine .plain number content isError =
      (if isError then ">" else " ") ++ gutter number ++ content := by
  cases isError <;>
    simp [formatLine, gutter, Style.lineNumber, Style.errorLine, Style.dimmed, Style.paint,
      String.append_assoc]

theorem toList_caret (column : Int) :
    (caret column).toList = List.replicate column.toNat ' ' ++ ['^'] :=
  String.toList_ofList

/-! ## The lines around an error -/

theorem numbered_append (first : Int) (a b : List String) :
    numbered first (a ++ b) = numbered first a ++ numbered (first + a.length) b := by
  induction a generalizing first with
  | nil => simp [numbered]
  | cons line a ih =>
      simp only [List.cons_append, numbered, ih, List.length_cons]
      congr 3
      omega

theorem of_mem_numbered {first : Int} {lines : List String} {entry : Int × String}
    (h : entry ∈ numbered first lines) :
    first ≤ entry.1 ∧ entry.1 < first + lines.length ∧ entry.2 ∈ lines := by
  induction lines generalizing first with
  | nil => cases h
  | cons line lines ih =>
      rw [List.length_cons, List.mem_cons]
      rcases List.mem_cons.1 h with rfl | later
      · exact ⟨Int.le_refl _, by omega, .inl rfl⟩
      · obtain ⟨low, high, member⟩ := ih later
        exact ⟨by omega, by omega, .inr member⟩

theorem lines_build {source content : String} {above below : List String}
    (whole : Text.lines source = above ++ content :: below) (context : Nat)
    (column : Option Int) :
    (build source (above.length + 1) context column).lines =
      numbered ((above.length - context : Nat) + 1) (above.drop (above.length - context)) ++
        ((above.length : Int) + 1, content) ::
          numbered ((above.length : Int) + 2) (below.take context) := by
  have first : ((above.length : Int) + 1 - 1 - context).toNat = above.length - context := by omega
  have last : ((above.length : Int) + 1 + context).toNat = above.length + (context + 1) := by omega
  have own : ((above.length - context : Nat) : Int) + 1 +
      (above.drop (above.length - context)).length = above.length + 1 := by
    rw [List.length_drop]
    omega
  simp only [build, whole, first, last]
  rw [List.take_length_add_append, List.take_succ_cons, List.drop_append_of_le_length (by omega),
    numbered_append, own]
  simp only [numbered, Int.add_assoc]
  rfl

def row (errorLine : Int) (entry : Int × String) : List Char :=
  (if entry.1 = errorLine then '>' else ' ') :: ((gutter entry.1).toList ++ entry.2.toList)

theorem toList_formatLine (errorLine : Int) (entry : Int × String) :
    (formatLine .plain entry.1 entry.2 (entry.1 == errorLine)).toList = row errorLine entry := by
  rw [formatLine_plain, row]
  by_cases same : entry.1 = errorLine <;> simp [same]

theorem rows_format {snippet : Snippet} {column : Int} (pointed : snippet.column = some column)
    (single : ∀ entry ∈ snippet.lines, '\n' ∉ entry.2.toList) :
    rows (snippet.format .plain) =
      "   |".toList :: snippet.lines.map (row snippet.errorLine) ++
        ["   | ".toList ++ (caret column).toList, "   |".toList] := by
  have whole : snippet.format .plain = String.intercalate "\n" ("   |" ::
      snippet.lines.map (fun line => formatLine .plain line.1 line.2 (line.1 == snippet.errorLine))
        ++ ["   | " ++ caret column, "   |"]) := by
    have bar : "   |" ++ " " = "   | " := rfl
    simp [format, pointed, Style.dimmed, Style.errorLine, Style.paint, bar]
  rw [whole, rows_intercalate (by simp)]
  · simp [toList_formatLine]
  · intro part member
    simp only [List.cons_append, List.mem_cons, List.mem_append, List.mem_map, List.not_mem_nil,
      or_false] at member
    rcases member with rfl | ⟨entry, inside, rfl⟩ | rfl | rfl
    · decide
    · have own := single entry inside
      rw [toList_formatLine, row]
      split <;> simp [own, feed_not_mem_gutter]
    · simp [toList_caret]
    · decide

theorem head?_row_of_ne {errorLine : Int} {entries : List (Int × String)}
    (other : ∀ entry ∈ entries, entry.1 ≠ errorLine) :
    ∀ found ∈ entries.map (row errorLine), found.head? = some ' ' := by
  rw [List.forall_mem_map]
  intro entry member
  simp [row, other entry member]

/-- Of the lines around the error the one on which it stands is marked. -/
theorem rows_build {source content : String} {above below : List String}
    (whole : Text.lines source = above ++ content :: below) (column : Int) :
    ∃ before after : List (List Char),
      rows ((build source (above.length + 1) 2 (some column)).format .plain) =
        "   |".toList :: before ++
          ('>' :: ((gutter (above.length + 1)).toList ++ content.toList)) :: after ++
          ["   | ".toList ++ (caret column).toList, "   |".toList] ∧
      ∀ found ∈ before ++ after, found.head? = some ' ' := by
  have lines : (build source (above.length + 1) 2 (some column)).lines = _ :=
    lines_build whole 2 (some column)
  have single : ∀ entry ∈ (build source (above.length + 1) 2 (some column)).lines,
      '\n' ∉ entry.2.toList := fun entry member =>
    feed_not_mem_lines
      (List.mem_of_mem_take (List.mem_of_mem_drop (of_mem_numbered member).2.2))
  let shown (first : Int) (entries : List String) : List (List Char) :=
    (numbered first entries).map (row (above.length + 1))
  refine ⟨shown ((above.length - 2 : Nat) + 1) (above.drop (above.length - 2)),
    shown (above.length + 2) (below.take 2), ?_, ?_⟩
  · have errorLine : (build source (above.length + 1) 2 (some column)).errorLine =
        above.length + 1 := rfl
    rw [rows_format rfl single, lines, errorLine]
    simp [shown, row]
  · rw [List.forall_mem_append]
    constructor
    · apply head?_row_of_ne
      intro entry member
      have range := of_mem_numbered member
      rw [List.length_drop] at range
      omega
    · apply head?_row_of_ne
      intro entry member
      have range := of_mem_numbered member
      omega

end Snippet

namespace SyntaxError

/-- The error stands on a line of a source that it knows. -/
structure Quotes (e : SyntaxError) (source : String) (line : Nat) (column : Int)
    (content : String) : Prop where
  source_eq : e.source = some source
  line_eq : e.line = some ↑line
  column_eq : e.column = some column
  positive : 0 < line
  shown : (Text.lines source)[line - 1]? = some content

/-- Both reports show the text as the line of that number, and the short one marks it among the
lines around it. -/
structure Shows (e : SyntaxError) (line : Nat) (content : String) : Prop where
  text : ∃ header pointer, rows e.text =
    header ++ [(Snippet.gutter line).toList ++ content.toList, pointer]
  compact : ∃ header before after pointer, rows (e.compact .plain) =
    header ++ "   |".toList :: before ++
      ('>' :: ((Snippet.gutter line).toList ++ content.toList)) :: after ++
      [pointer, "   |".toList] ∧
    ∀ row ∈ before ++ after, row.head? = some ' '

namespace Quotes

variable {e : SyntaxError} {source content : String} {line : Nat} {column : Int}

theorem place?_eq (h : Quotes e source line column content) :
    e.place? = some (source, ↑line) := by
  have some_ : source ≠ "" := by
    rintro rfl
    cases h.shown
  simp [place?, h.source_eq, h.line_eq, some_, Nat.ne_of_gt h.positive]

theorem rows_text (h : Quotes e source line column content) :
    ∃ header, rows e.text = header ++ [(Snippet.gutter line).toList ++ content.toList,
      "   | ".toList ++ (Snippet.caret column).toList] := by
  have whole : e.text =
      s!"Syntax Error: {e.message}\n  --> {locationText e.file e.line e.column}" ++ "\n" ++
        "   |" ++ "\n" ++ (Snippet.gutter line ++ content) ++ "\n" ++
        ("   | " ++ Snippet.caret column) := by
    have natural : ¬ (line : Int) < 0 := by omega
    have index : (line : Int).toNat - 1 = line - 1 := rfl
    simp only [text, h.place?_eq, natural, if_false, index, h.shown, h.column_eq]
    simp [Snippet.gutter, ← String.toList_inj]
  have edge : '\n' ∉ "   |".toList := by decide
  have shown : '\n' ∉ (Snippet.gutter line ++ content).toList := by
    simp [Snippet.feed_not_mem_gutter, feed_not_mem_lines (List.mem_of_getElem? h.shown)]
  have pointer : '\n' ∉ ("   | " ++ Snippet.caret column).toList := by
    simp [Snippet.toList_caret]
  refine ⟨rows s!"Syntax Error: {e.message}\n  --> {locationText e.file e.line e.column}" ++
    ["   |".toList], ?_⟩
  rw [whole, rows_append, rows_append, rows_append, rows_of_not_mem edge, rows_of_not_mem shown,
    rows_of_not_mem pointer]
  simp

theorem exists_lines (h : Quotes e source line column content) :
    ∃ above below, Text.lines source = above ++ content :: below ∧ line = above.length + 1 := by
  obtain ⟨inside, own⟩ := List.getElem?_eq_some_iff.1 h.shown
  have whole := List.take_append_drop (line - 1) (Text.lines source)
  rw [List.drop_eq_getElem_cons inside, own] at whole
  refine ⟨_, _, whole.symm, ?_⟩
  have positive := h.positive
  rw [List.length_take]
  omega

theorem rows_compact (h : Quotes e source line column content) :
    ∃ header before after : List (List Char), rows (e.compact .plain) =
      header ++ "   |".toList :: before ++
        ('>' :: ((Snippet.gutter line).toList ++ content.toList)) :: after ++
        ["   | ".toList ++ (Snippet.caret column).toList, "   |".toList] ∧
      ∀ row ∈ before ++ after, row.head? = some ' ' := by
  obtain ⟨above, below, whole, rfl⟩ := h.exists_lines
  have report : e.compact .plain =
      s!"{e.problem.code.text}: {e.message}\n  --> {locationText e.file e.line none}" ++ "\n" ++
        (Snippet.build source (above.length + 1) 2 (some column)).format .plain := by
    simp only [compact, h.place?_eq, h.column_eq]
    rfl
  obtain ⟨before, after, own, others⟩ := Snippet.rows_build whole column
  have number : ((above.length + 1 : Nat) : Int) = above.length + 1 := rfl
  refine ⟨rows s!"{e.problem.code.text}: {e.message}\n  --> {locationText e.file e.line none}",
    before, after, ?_, others⟩
  rw [report, rows_append, own, number]
  simp only [List.append_assoc, List.cons_append]

theorem shows (h : Quotes e source line column content) : Shows e line content := by
  obtain ⟨header, text⟩ := h.rows_text
  obtain ⟨header', before, after, compact, others⟩ := h.rows_compact
  exact ⟨⟨header, _, text⟩, header', before, after, _, compact, others⟩

end Quotes

/-- The caret is below the line, but too far to the left: the gutter in front of it is narrower
than the one in front of the line, which has the number in it and in a short report the mark. -/
theorem caret_left_of_column {e : SyntaxError} {source content : String} {line column : Nat}
    (h : Quotes e source line column content) :
    3 ≤ Snippet.numberWidth line ∧
    (∃ header pointer, rows e.text = header ++
        [(Snippet.gutter line).toList ++ content.toList, pointer ++ ['^']] ∧
      '^' ∉ pointer ∧
      pointer.length + (Snippet.numberWidth line - 2) = (Snippet.gutter line).length + column) ∧
    ∃ header before after pointer, rows (e.compact .plain) =
        header ++ "   |".toList :: before ++
          ('>' :: ((Snippet.gutter line).toList ++ content.toList)) :: after ++
          [pointer ++ ['^'], "   |".toList] ∧
      (∀ row ∈ before ++ after, row.head? = some ' ') ∧ '^' ∉ pointer ∧
      pointer.length + (Snippet.numberWidth line - 1) =
        1 + (Snippet.gutter line).length + column := by
  have width : 3 ≤ Snippet.numberWidth line := Nat.le_max_left _ _
  let pointer : List Char := "   | ".toList ++ List.replicate column ' '
  have blank : '^' ∉ pointer := by simp [pointer]
  have length : pointer.length = 5 + column := by
    simp [pointer]
    omega
  have whole : "   | ".toList ++ (Snippet.caret column).toList = pointer ++ ['^'] := by
    rw [Snippet.toList_caret]
    exact (List.append_assoc _ _ _).symm
  rw [Snippet.length_gutter]
  refine ⟨width, ?_, ?_⟩
  · obtain ⟨header, text⟩ := h.rows_text
    rw [whole] at text
    exact ⟨header, pointer, text, blank, by omega⟩
  · obtain ⟨header, before, after, compact, others⟩ := h.rows_compact
    rw [whole] at compact
    exact ⟨header, before, after, pointer, compact, others, blank, by omega⟩

/-- An error at the second of three letters. -/
def letterError : SyntaxError :=
  ⟨.other "bad" .syntaxError, some "t.html", some 1, some 1, some "abc"⟩

theorem caret_letterError :
    Quotes letterError "abc" 1 1 "abc" ∧ ∃ header pointer,
      rows letterError.text = header ++
        [(Snippet.gutter 1).toList ++ "abc".toList, pointer ++ ['^']] ∧
      '^' ∉ pointer ∧
      pointer.length + (Snippet.numberWidth 1 - 2) = (Snippet.gutter 1).length + 1 := by
  have quotes : Quotes letterError "abc" 1 (1 : Nat) "abc" :=
    ⟨rfl, rfl, rfl, by decide, by decide⟩
  exact ⟨quotes, (caret_left_of_column quotes).2.1⟩

/-- The caret is below the first letter in the one report and below the gutter in the other. -/
theorem caret_not_below_second_letter :
    rows letterError.text = ["Syntax Error: bad".toList, "  --> t.html:1:1".toList,
      "   |".toList, "  1 | abc".toList, "   |  ^".toList] ∧
    rows (letterError.compact .plain) = ["S-TPL-002: bad".toList, "  --> t.html:1".toList,
      "   |".toList, ">  1 | abc".toList, "   |  ^".toList, "   |".toList] := by
  decide +kernel

end SyntaxError

end Templating
