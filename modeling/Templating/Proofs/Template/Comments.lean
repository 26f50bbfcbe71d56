import Templating.Proofs.Template.Concatenation
import Templating.Proofs.Template.Reading
import Templating.Proofs.Template.Validity

/-!
# What comments hold

All of a source is decoded but the contents of its comments.  `Blanked` lists those contents and
puts blanks in their place, line for line: this leaves the constructs and their positions as they
are, and what is left of a template that is accepted is text.
-/

namespace Templating

open Text (splitAtFirst?)

/-! ## Bytes that are text -/

namespace IsUtf8

theorem append {a b : List UInt8} (ha : IsUtf8 a) (hb : IsUtf8 b) : IsUtf8 (a ++ b) := by
  obtain ⟨cs, decoded⟩ := ha
  obtain ⟨ds, decoded'⟩ := hb
  exact ⟨cs ++ ds, Text.Utf8.decode_append decoded decoded'⟩

theorem of_small {bytes : List UInt8} (h : ∀ b ∈ bytes, b.toNat < 128) : IsUtf8 bytes := by
  induction bytes with
  | nil => exact ⟨[], rfl⟩
  | cons b bytes ih =>
      have small := h b List.mem_cons_self
      obtain ⟨cs, decoded⟩ := ih fun c member => h c (List.mem_cons_of_mem b member)
      have first : Text.Utf8.start b = .char (Char.ofNat b.toNat) := by
        simp [Text.Utf8.start, small]
      rw [Text.Utf8.decode] at decoded
      refine ⟨Char.ofNat b.toNat :: cs, ?_⟩
      simp [Text.Utf8.decode, Text.Utf8.items_cons, first, Text.Utf8.collect, decoded, Except.map]

end IsUtf8

theorem isUtf8_openingBytes (d : Delimiter) : IsUtf8 d.openingBytes := by
  obtain ⟨mark, whole, small⟩ := exists_openingBytes d
  rw [whole]
  apply IsUtf8.of_small
  simp [small]

theorem isUtf8_closingBytes (d : Delimiter) : IsUtf8 d.closingBytes := by
  obtain ⟨mark, whole, small⟩ := exists_closingBytes d
  rw [whole]
  apply IsUtf8.of_small
  simp [small]

namespace Construct

theorem isSpace_iff {b : UInt8} : isSpace b = true ↔ b = 32 ∨ 9 ≤ b.toNat ∧ b.toNat ≤ 13 := by
  simp [isSpace, UInt8.le_iff_toNat_le]

theorem IsRawClose.isUtf8 {tag : List UInt8} (h : IsRawClose tag) : IsUtf8 tag := by
  obtain ⟨before, after, space, space', rfl⟩ := h
  have small {bytes : List UInt8} (space : ∀ b ∈ bytes, isSpace b = true) : IsUtf8 bytes := by
    apply IsUtf8.of_small
    intro b member
    rcases isSpace_iff.1 (space b member) with rfl | range
    · decide
    · omega
  have opener : IsUtf8 [brace, percent] := .of_small (by simp [brace, percent])
  have slash : IsUtf8 (Text.Utf8.encode "/raw") := ⟨_, Text.Utf8.decode_encode "/raw"⟩
  have closer : IsUtf8 [percent, 125] := .of_small (by simp [percent])
  exact (((opener.append (small space)).append slash).append (small space')).append closer

theorem Piece.isUtf8 {p : Position} {bytes rest : List UInt8} {c : Construct}
    (h : Piece p bytes rest (some c)) : IsUtf8 bytes := by
  have enclosed (d : Delimiter) {content : List UInt8} {chars : List Char}
      (decoded : Text.Utf8.decode content = .ok chars) :
      IsUtf8 (d.openingBytes ++ content ++ d.closingBytes) :=
    ((isUtf8_openingBytes d).append ⟨chars, decoded⟩).append (isUtf8_closingBytes d)
  cases h with
  | text _ _ _ decoded => exact ⟨_, decoded⟩
  | output _ decoded => exact enclosed .output decoded
  | statement _ decoded => exact enclosed .statement decoded
  | rawBlock _ decoded _ _ cut decodedBody =>
      have closes := (isRawClose_of_splitRawBody? cut).1
      exact ((enclosed .statement decoded).append ⟨_, decodedBody⟩).append closes.isUtf8

/-! ## Constructs before other bytes -/

theorem opens_iff_take {data : List UInt8} : Opens data ↔ Opens (data.take 2) := by
  unfold Opens
  simp [List.prefix_take_iff, length_openingBytes]

/-- Of what follows it, only the first byte can make a delimiter with the end of a text. -/
theorem opens_append_congr {bytes rest rest' : List UInt8} (nonempty : bytes ≠ [])
    (head : rest'.head? = rest.head?) : Opens (bytes ++ rest') ↔ Opens (bytes ++ rest) := by
  obtain ⟨b, bytes, rfl⟩ := List.exists_cons_of_ne_nil nonempty
  have same : ((b :: bytes) ++ rest').take 2 = ((b :: bytes) ++ rest).take 2 := by
    cases bytes with
    | nil => cases rest <;> cases rest' <;> simp_all
    | cons c bytes => simp
  rw [opens_iff_take, same, ← opens_iff_take]

theorem IsText.congr {bytes rest rest' : List UInt8} (h : IsText bytes rest)
    (head : rest'.head? = rest.head?) : IsText bytes rest' := by
  intro before after split nonempty opens
  exact h before after split nonempty ((opens_append_congr nonempty head).1 opens)

/-- Where strings are whole the content ends at the same place whatever follows. -/
theorem splitContent?_before {d : Delimiter} {content rest : List UInt8} {chars : List Char}
    (quoting : d ≠ .comment)
    (h : splitContent? d (content ++ d.closingBytes ++ rest) = some (content, rest))
    (decoded : Text.Utf8.decode content = .ok chars) (balanced : Expression.Balanced chars)
    (rest' : List UInt8) :
    splitContent? d (content ++ d.closingBytes ++ rest') = some (content, rest') := by
  have ends := isSome_splitUnquoted?_content quoting decoded balanced
  rw [splitContent?_of_isSome quoting (ends _)] at h ⊢
  obtain ⟨⟨found, left⟩, short⟩ := Option.isSome_iff_exists.1 (ends [])
  rw [List.append_nil] at short
  have long := splitUnquoted?_append short rest
  rw [h] at long
  obtain ⟨rfl, rfl⟩ : content = found ∧ left = [] := by simpa using long
  exact splitUnquoted?_append short rest'

theorem Piece.before {p : Position} {bytes rest rest' : List UInt8} {c : Construct}
    (h : Piece p bytes rest (some c)) (head : rest'.head? = rest.head?)
    (opens : Opens rest → Opens rest') : Piece p bytes rest' (some c) := by
  cases h with
  | text nonempty isText ends decoded =>
      refine .text nonempty (isText.congr head) ?_ decoded
      rcases ends with rfl | found
      · exact .inl (List.head?_eq_none_iff.1 head)
      · exact .inr (opens found)
  | output split decoded output =>
      exact .output (splitContent?_before (by decide) split decoded output.balanced rest') decoded
        output
  | statement split decoded statement ordinary =>
      have split' := splitContent?_before (by decide) split decoded statement.balanced rest'
      exact .statement split' decoded statement ordinary
  | rawBlock split decoded statement place cut decodedBody =>
      obtain ⟨closes, closed⟩ := isRawClose_of_splitRawBody? cut
      have split' := splitContent?_before (by decide) split decoded statement.balanced
      exact .rawBlock (split' _) decoded statement place (splitRawBody?_append closed closes rest')
        decodedBody

/-! ## Blanks for the contents of comments -/

/-- Blanks in the place of the bytes, line for line. -/
def blanks (bytes : List UInt8) : List UInt8 := bytes.map fun b => if b = 10 then 10 else 32

/-- The source at `p` has comments with such contents, and is `text` with blanks for them. -/
inductive Blanked : Position → List UInt8 → List (List UInt8) → List UInt8 → Prop
  | nil (p : Position) : Blanked p [] [] []
  | construct {p : Position} {bytes rest text : List UInt8} {comments : List (List UInt8)}
      {c : Construct} :
      Piece p bytes rest (some c) → Blanked (p.afterBytes bytes) rest comments text →
      Blanked p (bytes ++ rest) comments (bytes ++ text)
  | comment {p : Position} {content rest text : List UInt8} {comments : List (List UInt8)} :
      Piece p (Delimiter.comment.openingBytes ++ content ++ Delimiter.comment.closingBytes) rest
        none →
      Blanked (p.afterBytes
        (Delimiter.comment.openingBytes ++ content ++ Delimiter.comment.closingBytes)) rest comments
        text →
      Blanked p
        (Delimiter.comment.openingBytes ++ content ++ Delimiter.comment.closingBytes ++ rest)
        (content :: comments)
        (Delimiter.comment.openingBytes ++ blanks content ++ Delimiter.comment.closingBytes ++ text)

theorem afterBytes_blanks (p : Position) (bytes : List UInt8) :
    p.afterBytes (blanks bytes) = p.afterBytes bytes := by
  induction bytes generalizing p with
  | nil => rfl
  | cons b bytes ih =>
      rw [blanks, List.map_cons, Position.afterBytes_cons, Position.afterBytes_cons, ← blanks, ih]
      by_cases feed : b = 10 <;> simp [Position.afterByte, feed]

theorem splitAtFirst?_of_not_mem {b : UInt8} {before : List UInt8} (h : b ∉ before)
    (needle rest : List UInt8) :
    splitAtFirst? (b :: needle) (before ++ b :: (needle ++ rest)) =
      some (before, b :: (needle ++ rest)) := by
  induction before with
  | nil => simp [splitAtFirst?]
  | cons c before ih =>
      simp only [List.mem_cons, not_or] at h
      simp [splitAtFirst?, h.1, ih h.2]

theorem splitContent?_blanks (bytes rest : List UInt8) :
    splitContent? .comment (blanks bytes ++ Delimiter.comment.closingBytes ++ rest) =
      some (blanks bytes, rest) := by
  have plain : 35 ∉ blanks bytes := by
    simp only [blanks, List.mem_map, not_exists, not_and]
    intro b _
    split <;> decide
  show splitAnywhere? Delimiter.comment.closingBytes _ = _
  have found := splitAtFirst?_of_not_mem plain [125] rest
  rw [List.singleton_append] at found
  rw [Delimiter.closingBytes_comment, splitAnywhere?]
  simp [found]

theorem isUtf8_blanks (bytes : List UInt8) : IsUtf8 (blanks bytes) := by
  apply IsUtf8.of_small
  simp only [blanks, List.forall_mem_map]
  intro b _
  split <;> decide

namespace Blanked

variable {p : Position} {data text : List UInt8} {comments : List (List UInt8)}

theorem starts (h : Blanked p data comments text) :
    text.head? = data.head? ∧ (Opens data → Opens text) := by
  cases h with
  | nil => exact ⟨rfl, id⟩
  | @construct p bytes rest text comments c piece _ =>
      obtain ⟨b, others, rfl⟩ := List.exists_cons_of_ne_nil piece.ne_nil
      refine ⟨rfl, fun opens => ?_⟩
      by_cases isText : ∃ q content, c = .text q content
      · obtain ⟨q, content, rfl⟩ := isText
        cases piece with
        | text _ closed => exact absurd opens (closed [] _ rfl (List.cons_ne_nil b others))
        | output _ _ output => cases output
        | statement _ _ statement => cases statement
      · apply opens_of_piece piece
        rintro q content ⟨⟩
        exact isText ⟨q, content, rfl⟩
  | comment =>
      refine ⟨by simp [Delimiter.openingBytes_comment], fun _ => ?_⟩
      simp only [List.append_assoc]
      exact ⟨.comment, List.prefix_append _ _⟩

/-- The constructs are those of the source, and they stand where they stood. -/
theorem reads (h : Blanked p data comments text) :
    ∃ constructs q, Reads p data constructs q [] ∧ Reads p text constructs q [] := by
  induction h with
  | nil p => exact ⟨[], p, .refl p [], .refl p []⟩
  | construct piece later ih =>
      obtain ⟨constructs, q, reads, reads'⟩ := ih
      obtain ⟨head, opens⟩ := later.starts
      exact ⟨_, q, .step piece reads, .step (piece.before head opens) reads'⟩
  | @comment p content rest text comments piece later ih =>
      obtain ⟨constructs, q, reads, reads'⟩ := ih
      refine ⟨_, q, .step piece reads, .step (c := none) (.comment (splitContent?_blanks _ _)) ?_⟩
      rw [afterBytes_delimited] at reads' ⊢
      rwa [afterBytes_blanks]

theorem isUtf8_text (h : Blanked p data comments text) : IsUtf8 text := by
  induction h with
  | nil => exact ⟨[], rfl⟩
  | construct piece _ ih => exact piece.isUtf8.append ih
  | comment _ _ ih =>
      have opening := isUtf8_openingBytes .comment
      have closing := isUtf8_closingBytes .comment
      exact ((opening.append (isUtf8_blanks _)).append closing).append ih

theorem isUtf8_data (h : Blanked p data comments text) (all : ∀ content ∈ comments, IsUtf8 content) :
    IsUtf8 data := by
  induction h with
  | nil => exact ⟨[], rfl⟩
  | construct piece _ ih => exact piece.isUtf8.append (ih all)
  | comment _ _ ih =>
      obtain ⟨own, others⟩ := List.forall_mem_cons.1 all
      have opening := isUtf8_openingBytes .comment
      have closing := isUtf8_closingBytes .comment
      exact ((opening.append own).append closing).append (ih others)

end Blanked

theorem Reads.exists_blanked {p q : Position} {data left : List UInt8}
    {constructs : List Construct} (h : Reads p data constructs q left) (complete : left = []) :
    ∃ comments text, Blanked p data comments text := by
  induction h with
  | refl p =>
      subst complete
      exact ⟨[], [], .nil p⟩
  | @step p q bytes rest left c constructs piece _ ih =>
      obtain ⟨comments, text, later⟩ := ih complete
      cases c with
      | some c => exact ⟨comments, _, .construct piece later⟩
      | none =>
          cases piece with
          | comment split => exact ⟨_, _, .comment (.comment split) later⟩

end Construct

namespace Template

open Construct (Blanked)

/-- What stands in comments makes no difference to the tree. -/
theorem parse_of_blanked {data text : List UInt8} {comments : List (List UInt8)}
    (h : Blanked .start data comments text) (file : String) (tree : List Node) :
    parse file data = .ok tree ↔ parse file text = .ok tree := by
  obtain ⟨constructs, q, reads, reads'⟩ := h.reads
  rw [parse_eq_ok_iff, parse_eq_ok_iff, read, read, Construct.survey_of_reads reads,
    Construct.survey_of_reads reads']

theorem exists_blanked_of_parse {file : String} {data : List UInt8} {tree : List Node}
    (h : parse file data = .ok tree) : ∃ comments text, Blanked .start data comments text := by
  obtain ⟨complete, -⟩ := read_eq_ok_iff.1 (parse_eq_ok_iff.1 h)
  exact (Construct.reads_of_failure_eq_none complete).exists_blanked rfl

/-- A source that is no text is refused with a syntax error, unless it comes to an integer of too
many digits, or is a template but for what stands in its comments, and only there is no text. -/
theorem refused_of_not_isUtf8 {file : String} {data : List UInt8} (bad : ¬ IsUtf8 data) :
    (∃ e, parse file data = .error (.malformed e)) ↔
      (∀ count, ¬ ComesToOverlong data count) ∧
        ¬ ∃ comments text tree, Blanked .start data comments text ∧ IsUtf8 text ∧
          (∃ content ∈ comments, ¬ IsUtf8 content) ∧ parse file text = .ok tree := by
  constructor
  · rintro ⟨e, refused⟩
    refine ⟨fun count overlong => ?_, ?_⟩
    · rw [parse_eq_fault_iff.2 overlong] at refused
      cases refused
    · rintro ⟨comments, text, tree, blanked, -, -, accepted⟩
      rw [(parse_of_blanked blanked file tree).2 accepted] at refused
      cases refused
  · rintro ⟨short, other⟩
    cases outcome : parse file data with
    | ok tree =>
        obtain ⟨comments, text, blanked⟩ := exists_blanked_of_parse outcome
        refine absurd ⟨comments, text, tree, blanked, blanked.isUtf8_text, ?_,
          (parse_of_blanked blanked file tree).1 outcome⟩ other
        by_contra none
        push Not at none
        exact bad (blanked.isUtf8_data none)
    | error e =>
        obtain ⟨failure, failed, rfl⟩ := mapError_eq_error_iff.1 outcome
        cases failure with
        | malformed problem p => exact ⟨_, rfl⟩
        | fault f =>
            obtain ⟨count, -, overlong⟩ := read_eq_fault_iff.1 failed
            exact absurd overlong (short count)

/-- A byte that begins no character, in the string of an output behind a comment. -/
def brokenSource : List UInt8 :=
  [123, 35, 35, 125, 123, 123, 32, 39, 255, 39, 32, 125, 125]

theorem refused_brokenSource :
    ¬ IsUtf8 brokenSource ∧ (∀ count, ¬ ComesToOverlong brokenSource count) ∧
      ¬ ∃ comments text tree, Blanked .start brokenSource comments text ∧ IsUtf8 text ∧
        (∃ content ∈ comments, ¬ IsUtf8 content) ∧ parse "page" text = .ok tree := by
  have broken : ¬ IsUtf8 brokenSource := by
    rintro ⟨chars, decoded⟩
    have defect : Text.Utf8.decode brokenSource = .error .badStart := by decide
    cases defect.symm.trans decoded
  have refused : (match parse "page" brokenSource with
      | .error (.malformed _) => true
      | _ => false) = true := by decide +kernel
  split at refused
  · next e parsed => exact ⟨broken, (refused_of_not_isUtf8 broken).1 ⟨e, parsed⟩⟩
  · cases refused

/-- The same byte in a comment is passed over. -/
theorem accepted_with_broken_comment :
    Text.Utf8.decode [123, 35, 255, 35, 125] = .error .badStart ∧
      parse "page" [123, 35, 255, 35, 125] = .ok [] := ⟨by decide, rfl⟩

end Template

end Templating
