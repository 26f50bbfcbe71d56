import Templating.Proofs.Template.Blame
import Templating.Proofs.Template.Columns
import Templating.Proofs.Template.Nesting
import Templating.Proofs.Template.Validity

/-!
# What a syntax error says

A syntax error stands at a place in the source, and its code tells what is the matter there: nothing
closes a delimiter, a block is open to the end, the bytes are no text.  `Flaw` says so of the first
construct that cannot be read and `Diagnosis` of the whole source.
-/

namespace Templating

open Text (splitAtFirst?)

/-! ## Places in a source -/

/-- The position is on the line of some byte of the source, and not behind that byte. -/
def Points (data : List UInt8) (p : Position) : Prop :=
  ∃ before after, data = before ++ after ∧ after ≠ [] ∧
    p.line = (Position.following before).line ∧
    0 ≤ p.column ∧ p.column ≤ (Position.following before).column

namespace Position

theorem column_afterChars_nonneg {p : Position} (h : 0 ≤ p.column) (cs : List Char) :
    0 ≤ (p.afterChars cs).column := by
  induction cs generalizing p with
  | nil => exact h
  | cons c cs ih =>
      refine ih ?_
      unfold afterChar
      split
      · exact Int.le_refl 0
      · simp only [right]
        omega

end Position

theorem points_following (before : List UInt8) {after : List UInt8} (ahead : after ≠ []) :
    Points (before ++ after) (.following before) :=
  ⟨before, after, rfl, ahead, rfl, (Position.line_following_le before after).2.2, Int.le_refl _⟩

theorem points_afterChars (before : List UInt8) (passed : List Char) {after : List UInt8}
    (ahead : after ≠ []) :
    Points (before ++ encodeChars passed ++ after)
      ((Position.following before).afterChars passed) := by
  have behind : Position.following (before ++ encodeChars passed) =
      ((Position.following before).afterChars passed).right (surplus passed) := by
    rw [Position.following_append, Position.afterBytes_encodeChars]
  have start := (Position.line_following_le before []).2.2
  refine ⟨before ++ encodeChars passed, after, rfl, ahead, ?_,
    Position.column_afterChars_nonneg start passed, ?_⟩
  · rw [behind]
    rfl
  · rw [behind]
    simp only [Position.right]
    omega

theorem Points.bounds {data : List UInt8} {p : Position} (h : Points data p) :
    1 ≤ p.line ∧ p.line ≤ 1 + data.count 10 ∧
      ∃ row, IsLine data p.line row ∧ 0 ≤ p.column ∧ p.column ≤ row.length := by
  obtain ⟨before, after, rfl, -, line, nonneg, column⟩ := h
  obtain ⟨row, isLine, short⟩ := Position.exists_isLine before after
  have lines := Position.line_following_le before after
  rw [← line] at isLine lines
  exact ⟨lines.1, lines.2.1, row, isLine, nonneg, Int.le_trans column short⟩

/-! ## Constructs that cannot be read -/

theorem not_infix_of_splitAtFirst? {needle data : List UInt8}
    (h : splitAtFirst? needle data = none) : ¬ needle <:+: data := by
  induction data with
  | nil =>
      intro occurs
      rw [List.infix_nil.1 occurs] at h
      cases h
  | cons b data ih =>
      simp only [splitAtFirst?] at h
      split at h
      · cases h
      · next other =>
        intro occurs
        rcases List.infix_cons_iff.1 occurs with begins | later
        · exact other (List.isPrefixOf_iff_prefix.2 begins)
        · exact ih (Option.map_eq_none_iff.1 h) later

namespace Construct

open Expression

theorem not_infix_of_splitContent? {d : Delimiter} {data : List UInt8}
    (h : splitContent? d data = none) : ¬ d.closingBytes <:+: data := by
  have anywhere (h : splitAnywhere? d.closingBytes data = none) : ¬ d.closingBytes <:+: data :=
    not_infix_of_splitAtFirst? (Option.map_eq_none_iff.1 h)
  cases d with
  | comment => exact anywhere h
  | output | statement => exact anywhere (Option.or_eq_none_iff.1 h).2

/-- The construct at a place cannot be read, for such a problem, which is put at such a position. -/
inductive Flaw (p : Position) (data : List UInt8) : SyntaxProblem → Position → Prop
  | unclosed {d : Delimiter} {rest : List UInt8} :
      data = d.openingBytes ++ rest → ¬ d.closingBytes <:+: rest → Flaw p data (.unclosed d) p
  | openRaw {content rest : List UInt8} {chars : List Char} {params : List Node} :
      data = Delimiter.statement.openingBytes ++ content ++ Delimiter.statement.closingBytes ++
        rest →
      Text.Utf8.decode content = .ok chars →
      Statement p ⟨chars, p.right 2⟩ (.opening p "raw" params) → NoRawClose rest →
      Flaw p data (.unclosedBlock "raw") p
  | expression {d : Delimiter} {passed : List Char} {rest : List UInt8} {problem : SyntaxProblem} :
      data = d.openingBytes ++ encodeChars passed ++ rest → problem.code = .invalidExpression →
      rest ≠ [] → Flaw p data problem ((p.right 2).afterChars passed)
  | encoding {before after : List UInt8} {defect : Text.Utf8.Defect} :
      data = before ++ after → ¬ IsUtf8 data → after ≠ [] →
      Flaw p data (.notUtf8 defect) (p.afterBytes before)

theorem decodeAt_eq_malformed_iff {p q : Position} {bytes : List UInt8} {problem : SyntaxProblem} :
    decodeAt p bytes = .error (.malformed problem q) ↔
      ∃ defect, Text.Utf8.decode bytes = .error defect ∧ problem = .notUtf8 defect ∧ q = p := by
  unfold decodeAt
  cases Text.Utf8.decode bytes with
  | ok chars => simp
  | error defect => simp [eq_comm]

theorem not_isUtf8 {bytes : List UInt8} {defect : Text.Utf8.Defect}
    (h : Text.Utf8.decode bytes = .error defect) : ¬ IsUtf8 bytes := by
  rintro ⟨cs, decoded⟩
  cases h.symm.trans decoded

theorem flaw_of_blames {p q : Position} {d : Delimiter} {content rest : List UInt8}
    {chars : List Char} {result : Except ReadFailure Construct} {problem : SyntaxProblem}
    (blames : Remaining.Blames ⟨chars, p.right 2⟩ result)
    (decoded : Text.Utf8.decode content = .ok chars)
    (failed : result = .error (.malformed problem q)) :
    Flaw p (d.openingBytes ++ (content ++ d.closingBytes ++ rest)) problem q := by
  obtain ⟨code, after, ⟨passed, whole, position, -⟩, rfl⟩ := blames problem q failed
  have split : content = encodeChars passed ++ encodeChars after.chars := by
    rw [← encodeChars_append, ← whole]
    exact (Text.Utf8.flatMap_of_decode decoded).symm
  have place : d.openingBytes ++ (content ++ d.closingBytes ++ rest) = d.openingBytes ++
      encodeChars passed ++ (encodeChars after.chars ++ d.closingBytes ++ rest) := by
    simp [split]
  rw [position]
  exact .expression place code (by simp [closingBytes_ne_nil])

theorem flaw_of_readRawBlock {p q s : Position} {content rest : List UInt8} {chars : List Char}
    {params : List Node} {problem : SyntaxProblem}
    (decoded : Text.Utf8.decode content = .ok chars)
    (statement : Statement p ⟨chars, p.right 2⟩ (.opening p "raw" params))
    (place : q = p.afterBytes
      (Delimiter.statement.openingBytes ++ content ++ Delimiter.statement.closingBytes))
    (failed : readRawBlock p q params rest = .error (.malformed problem s)) :
    Flaw p (Delimiter.statement.openingBytes ++ content ++ Delimiter.statement.closingBytes ++ rest)
      problem s := by
  unfold readRawBlock at failed
  split at failed
  · next none =>
    cases failed
    exact .openRaw rfl decoded statement (noRawClose_of_splitRawBody? none)
  · next body tag left cut =>
    simp only [bind_eq_error_iff, pure_ne_error, and_false, exists_false, or_false,
      decodeAt_eq_malformed_iff] at failed
    obtain ⟨defect, bad, rfl, rfl⟩ := failed
    rw [place]
    have some_ : rest ≠ [] := by
      rintro rfl
      cases cut
    refine .encoding rfl (fun text => not_isUtf8 bad ?_) some_
    have later := text.delimited.2
    rw [append_of_splitRawBody? cut] at later
    exact (later.closed (isRawClose_of_splitRawBody? cut).1).1

theorem flaw_of_readNext {p q : Position} {data : List UInt8} {problem : SyntaxProblem}
    (h : readNext p data = .error (.malformed problem q)) : Flaw p data problem q := by
  unfold readNext at h
  split at h
  · next d rest opener =>
    rw [splitOpener?_eq_some_iff.1 opener]
    unfold readDelimited at h
    split at h
    · next none =>
      cases h
      exact .unclosed rfl (not_infix_of_splitContent? none)
    next content left split =>
    have whole := append_of_splitContent? split
    subst whole
    -- The content is decoded for itself, and it is text if the construct is.
    have undecoded {defect : Text.Utf8.Defect} (bad : Text.Utf8.decode content = .error defect) :
        Flaw p (d.openingBytes ++ (content ++ d.closingBytes ++ left)) (.notUtf8 defect)
          (p.right 2) := by
      rw [← Position.afterBytes_openingBytes p d]
      refine .encoding rfl (fun text => not_isUtf8 bad ?_) (by simp [closingBytes_ne_nil])
      have whole : IsUtf8 (d.openingBytes ++ content ++ d.closingBytes ++ left) := by
        simpa using text
      exact whole.delimited.1
    cases d with
    | comment => cases h
    | output =>
        simp only [bind_eq_error_iff, decodeAt_eq_malformed_iff, decodeAt_eq_ok_iff,
          pure_ne_error, and_false, exists_false, or_false] at h
        rcases h with ⟨defect, bad, rfl, rfl⟩ | ⟨chars, decoded, failed⟩
        · exact undecoded bad
        · exact flaw_of_blames (blames_readOutput p _) decoded failed
    | statement =>
        simp only [bind_eq_error_iff, decodeAt_eq_malformed_iff, decodeAt_eq_ok_iff] at h
        rcases h with ⟨defect, bad, rfl, rfl⟩ | ⟨chars, decoded, failed | ⟨c, read, failed⟩⟩
        · exact undecoded bad
        · exact flaw_of_blames (blames_readStatement p _) decoded failed
        · rw [readStatement_eq_ok_iff] at read
          split at failed
          · next place params =>
            obtain rfl : place = p := by
              cases read
              rfl
            have flaw := flaw_of_readRawBlock decoded read
              (afterBytes_delimited place .statement content).symm failed
            simpa using flaw
          · cases failed
  · simp only [bind_eq_error_iff, decodeAt_eq_malformed_iff, pure_ne_error, and_false,
      exists_false, or_false] at h
    obtain ⟨defect, bad, rfl, rfl⟩ := h
    have some_ : data ≠ [] := by
      rintro rfl
      cases bad
    refine .encoding (List.nil_append data).symm (fun text => not_isUtf8 bad ?_) some_
    rw [← spanText_append data] at text
    exact (isUtf8_of_ends (opens_after_spanText data) text).1

def position : Construct → Position
  | .text p _ | .inline p _ _ | .opening p _ _ | .otherwise p | .closing p _ | .rawBlock p _ _ => p

theorem Piece.position_eq {p : Position} {bytes rest : List UInt8} {c : Construct}
    (h : Piece p bytes rest (some c)) : c.position = p := by
  cases h with
  | text => rfl
  | output _ _ output => cases output; rfl
  | statement _ _ statement => cases statement <;> rfl
  | rawBlock => rfl

/-- The sequence of pieces can be parted in front of any construct. -/
theorem Reads.exists_of_append {p q : Position} {data left : List UInt8}
    {first others : List Construct} {c : Construct}
    (h : Reads p data (first ++ c :: others) q left) :
    ∃ before bytes rest, data = before ++ (bytes ++ rest) ∧
      Reads p data first (p.afterBytes before) (bytes ++ rest) ∧
      Piece (p.afterBytes before) bytes rest (some c) ∧
      Reads ((p.afterBytes before).afterBytes bytes) rest others q left := by
  generalize whole : first ++ c :: others = constructs at h
  induction h generalizing first with
  | refl => simp at whole
  | @step p q bytes rest left own constructs piece reads ih =>
      have place (more : List UInt8) := Position.afterBytes_append p bytes more
      cases own with
      | none =>
          obtain ⟨before, bytes', rest', rfl, front, found, back⟩ := ih whole
          rw [← place before] at front found back
          exact ⟨bytes ++ before, bytes', rest', by simp, .step piece front, found, back⟩
      | some own =>
          cases first with
          | nil =>
              cases whole
              exact ⟨[], bytes, rest, rfl, .refl _ _, piece, reads⟩
          | cons d first =>
              obtain ⟨rfl, tail⟩ := List.cons.inj whole
              obtain ⟨before, bytes', rest', rfl, front, found, back⟩ := ih tail
              rw [← place before] at front found back
              exact ⟨bytes ++ before, bytes', rest', by simp, .step piece front, found, back⟩

section FromStart

variable {q : Position} {data left : List UInt8} {constructs first others : List Construct}
  {c : Construct}

theorem Reads.exists_following (h : Reads .start data constructs q left) :
    ∃ before, data = before ++ left ∧ q = .following before := by
  obtain ⟨before, rfl, rfl⟩ := h.exists_read
  exact ⟨before, rfl, Position.afterBytes_start before⟩

theorem Reads.exists_construct (h : Reads .start data (first ++ c :: others) q left) :
    ∃ before bytes rest, data = before ++ (bytes ++ rest) ∧ c.position = .following before ∧
      Reads .start data first (.following before) (bytes ++ rest) ∧
      Piece (.following before) bytes rest (some c) ∧
      Reads ((Position.following before).afterBytes bytes) rest others q left := by
  obtain ⟨before, bytes, rest, whole, front, piece, back⟩ := h.exists_of_append
  rw [Position.afterBytes_start] at front piece back
  exact ⟨before, bytes, rest, whole, piece.position_eq, front, piece, back⟩

end FromStart

end Construct

/-! ## Blocks -/

/-- Behind an opening stands its body and perhaps an else with a body of its own, whole blocks and
nothing that ends it. -/
def StaysOpen (constructs : List Construct) : Prop :=
  ∃ body, WellNested body ∧ (constructs.map Construct.mark = body ∨
    ∃ orelse, WellNested orelse ∧
      constructs.map Construct.mark = body ++ .otherwise :: orelse)

namespace Growth

theorem exists_of_step_eq_malformed {growth : Growth} {c : Construct} {problem : SyntaxProblem}
    {p : Position} (h : growth.step c = .error (.malformed problem p)) :
    problem.code = .unexpectedToken ∧ p = c.position := by
  cases c with
  | text | inline | opening | rawBlock => cases h
  | otherwise q =>
      simp only [step, turn] at h
      split at h
      · cases h
        exact ⟨rfl, rfl⟩
      · split at h
        · cases h
          exact ⟨rfl, rfl⟩
        · cases h
  | closing q name =>
      simp only [step, close] at h
      split at h
      · cases h
        exact ⟨rfl, rfl⟩
      · split at h
        · cases h
        · cases h
          exact ⟨rfl, rfl⟩

theorem exists_of_run_eq_malformed {growth : Growth} {constructs : List Construct}
    {problem : SyntaxProblem} {p : Position}
    (h : growth.run constructs = .error (.malformed problem p)) :
    problem.code = .unexpectedToken ∧ ∃ c ∈ constructs, p = c.position := by
  induction constructs generalizing growth with
  | nil => cases h
  | cons c rest ih =>
      rcases bind_eq_error_iff.1 h with own | ⟨later, -, others⟩
      · obtain ⟨code, place⟩ := exists_of_step_eq_malformed own
        exact ⟨code, c, List.mem_cons_self, place⟩
      · obtain ⟨code, d, member, place⟩ := ih others
        exact ⟨code, d, List.mem_cons_of_mem c member, place⟩

theorem exists_opening_of_run {growth : Growth} {constructs : List Construct} {block : OpenBlock}
    {outer : List OpenBlock} (readable : ∀ c ∈ constructs, c.Sound)
    (run : Growth.empty.run constructs = .ok growth) (blocks : growth.blocks = block :: outer) :
    ∃ first others,
      constructs = first ++ .opening block.position block.name block.params :: others ∧
        StaysOpen others := by
  -- The marks of all that was read are those of the outer blocks and then those of the innermost.
  obtain ⟨sound, walked⟩ := run_sound sound_empty readable run
  have nothing : empty.walk = [] := rfl
  rw [nothing, List.nil_append, walk, blocks, List.reverse_cons, List.flatMap_append,
    ← List.append_assoc, List.flatMap_singleton] at walked
  obtain ⟨first, later, rfl, -, inner⟩ := List.map_eq_append_iff.1 walked.symm
  obtain ⟨c, others, rfl, opens, marks⟩ := List.map_eq_cons_iff.1 inner
  obtain ⟨-, -, body, orelse⟩ := sound.blocks block (by rw [blocks]; exact List.mem_cons_self)
  have nested {nodes : List Node} (document : ∀ node ∈ nodes, node.InDocument) :
      WellNested (Templating.walk nodes.reverse) :=
    wellNested_walk fun node member => document node (List.mem_reverse.1 member)
  have found : c = .opening block.position block.name block.params := by
    cases c <;> simp_all [Construct.mark]
  subst found
  refine ⟨first, others, rfl, _, nested body, ?_⟩
  cases branch : block.orelse with
  | none =>
      refine .inl ?_
      simpa [branch, walkElse] using marks
  | some nodes =>
      refine .inr ⟨_, nested (orelse nodes branch), ?_⟩
      simpa [branch, walkElse] using marks

end Growth

/-! ## Sources that are refused -/

namespace Template

open Construct (Reads Flaw)

/-- What is wrong with a source, and where. -/
inductive Diagnosis (data : List UInt8) : SyntaxProblem → Position → Prop
  /-- An else or a closing has nothing to turn or to end. -/
  | misplaced {constructs : List Construct} {q : Position} {left : List UInt8} {c : Construct}
      {problem : SyntaxProblem} :
      Reads .start data constructs q left → c ∈ constructs → problem.code = .unexpectedToken →
      Diagnosis data problem c.position
  | unreadable {constructs : List Construct} {q p : Position} {left : List UInt8}
      {problem : SyntaxProblem} :
      Reads .start data constructs q left → Flaw q left problem p → Diagnosis data problem p
  | open {first others : List Construct} {p q : Position} {name : String} {params : List Node} :
      Reads .start data (first ++ .opening p name params :: others) q [] → StaysOpen others →
      Diagnosis data (.unclosedBlock name) p

theorem diagnosis_of_read {data : List UInt8} {problem : SyntaxProblem} {p : Position}
    (h : read data = .error (.malformed problem p)) : Diagnosis data problem p := by
  obtain ⟨q, left, reads, outcome⟩ := Construct.reads_survey data
  rcases bind_eq_error_iff.1 h with run | ⟨growth, run, h⟩
  · obtain ⟨code, c, member, rfl⟩ := Growth.exists_of_run_eq_malformed run
    exact .misplaced reads member code
  · cases failure : (Construct.survey data).failure with
    | some stop =>
        rw [failure] at h outcome
        cases h
        exact .unreadable reads (Construct.flaw_of_readNext outcome.2)
    | none =>
        simp only [failure, Growth.finish] at h
        have complete := Construct.reads_of_failure_eq_none failure
        split at h
        · cases h
        · next block outer blocks =>
          cases h
          obtain ⟨first, others, whole, stays⟩ :=
            Growth.exists_opening_of_run complete.sound run blocks
          rw [whole] at complete
          exact .open complete stays

/-- Where the source has a block that is never closed. -/
inductive NeverClosed (data before : List UInt8) : Prop
  /-- A raw block, with no closing tag of it in what follows. -/
  | raw {content rest : List UInt8} {chars : List Char} {params : List Node} :
      data = before ++ (Delimiter.statement.openingBytes ++ content ++
        Delimiter.statement.closingBytes ++ rest) →
      Text.Utf8.decode content = .ok chars →
      Construct.Statement (.following before) ⟨chars, (Position.following before).right 2⟩
        (.opening (.following before) "raw" params) →
      Construct.NoRawClose rest → NeverClosed data before
  /-- A block that is the innermost open one where the source ends. -/
  | block {first others : List Construct} {bytes rest : List UInt8} {q : Position} {name : String}
      {params : List Node} :
      data = before ++ (bytes ++ rest) →
      Reads .start data first (.following before) (bytes ++ rest) →
      Construct.Piece (.following before) bytes rest
        (some (.opening (.following before) name params)) →
      Reads ((Position.following before).afterBytes bytes) rest others q [] → StaysOpen others →
      NeverClosed data before

namespace Diagnosis

variable {data : List UInt8} {problem : SyntaxProblem} {p : Position}

theorem points (h : Diagnosis data problem p) : Points data p := by
  cases h with
  | misplaced reads member =>
      obtain ⟨first, others, rfl⟩ := List.append_of_mem member
      obtain ⟨before, bytes, rest, rfl, place, -, piece, -⟩ := reads.exists_construct
      rw [place]
      exact points_following _ (by simp [piece.ne_nil])
  | unreadable reads flaw =>
      obtain ⟨read, rfl, rfl⟩ := reads.exists_following
      cases flaw with
      | @unclosed d rest whole =>
          obtain ⟨mark, opening, -⟩ := exists_openingBytes d
          exact points_following _ (by simp [whole, opening])
      | openRaw whole => exact points_following _ (by simp [whole, Construct.closingBytes_ne_nil])
      | @expression d passed rest problem whole code ahead =>
          rw [whole, ← Position.afterBytes_openingBytes _ d, ← Position.following_append]
          simpa using points_afterChars (read ++ d.openingBytes) passed ahead
      | @encoding before after defect whole bad ahead =>
          rw [whole, ← Position.following_append, ← List.append_assoc]
          exact points_following _ ahead
  | «open» reads stays =>
      obtain ⟨before, bytes, rest, rfl, rfl, -, piece, -⟩ := reads.exists_construct
      exact points_following _ (by simp [piece.ne_nil])

theorem category (h : Diagnosis data problem p) : problem.code.category = .parser := by
  cases h with
  | misplaced _ _ code => rw [code]; rfl
  | unreadable _ flaw =>
      cases flaw with
      | expression _ code => rw [code]; rfl
      | unclosed | openRaw | encoding => rfl
  | «open» => rfl

theorem exists_unclosed (h : Diagnosis data problem p) (code : problem.code = .unclosedTag) :
    ∃ (d : Delimiter) (before rest : List UInt8), data = before ++ (d.openingBytes ++ rest) ∧
      p = .following before ∧ ¬ d.closingBytes <:+: rest := by
  cases h with
  | misplaced _ _ other => cases code.symm.trans other
  | unreadable reads flaw =>
      obtain ⟨read, rfl, rfl⟩ := reads.exists_following
      cases flaw with
      | unclosed whole absent =>
          subst whole
          exact ⟨_, read, _, rfl, rfl, absent⟩
      | expression _ other => cases code.symm.trans other
      | openRaw | encoding => cases code
  | «open» => cases code

theorem exists_neverClosed (h : Diagnosis data problem p) (code : problem.code = .unclosedBlock) :
    ∃ before, p = .following before ∧ NeverClosed data before := by
  cases h with
  | misplaced _ _ other => cases code.symm.trans other
  | unreadable reads flaw =>
      obtain ⟨read, rfl, rfl⟩ := reads.exists_following
      cases flaw with
      | openRaw whole decoded statement closed =>
          subst whole
          exact ⟨read, rfl, .raw rfl decoded statement closed⟩
      | expression _ other => cases code.symm.trans other
      | unclosed | encoding => cases code
  | «open» reads stays =>
      obtain ⟨before, bytes, rest, whole, rfl, front, piece, back⟩ := reads.exists_construct
      exact ⟨before, rfl, .block whole front piece back stays⟩

theorem not_isUtf8 (h : Diagnosis data problem p) (code : problem.code = .invalidEncoding) :
    ¬ IsUtf8 data := by
  cases h with
  | misplaced _ _ other => cases code.symm.trans other
  | unreadable reads flaw =>
      cases flaw with
      | encoding _ bad => exact fun text => bad (reads.isUtf8_left text)
      | expression _ other => cases code.symm.trans other
      | unclosed | openRaw => cases code
  | «open» => cases code

end Diagnosis

/-- A syntax error of a source names the source and stands on one of its lines, and its code says
what is true there. -/
theorem syntaxError_tells {file : String} {data : List UInt8} {e : SyntaxError}
    (h : parse file data = .error (.malformed e)) :
    e.file = some file ∧ e.problem.code.category = .parser ∧
    ∃ p : Position, e.line = some p.line ∧ e.column = some p.column ∧
      1 ≤ p.line ∧ p.line ≤ 1 + data.count 10 ∧
      (∃ row, IsLine data p.line row ∧ 0 ≤ p.column ∧ p.column ≤ row.length) ∧
      (e.problem.code = .unclosedTag →
        ∃ (d : Delimiter) (before rest : List UInt8),
          data = before ++ (d.openingBytes ++ rest) ∧
          p = .following before ∧ ¬ d.closingBytes <:+: rest) ∧
      (e.problem.code = .unclosedBlock →
        ∃ before, p = .following before ∧ NeverClosed data before) ∧
      (e.problem.code = .invalidEncoding → ∀ chars, Text.Utf8.decode data ≠ .ok chars) := by
  obtain ⟨failure, failed, explained⟩ := mapError_eq_error_iff.1 h
  cases failure with
  | fault f => cases explained
  | malformed problem p =>
      cases explained
      have diagnosis := diagnosis_of_read failed
      obtain ⟨first, last, row⟩ := diagnosis.points.bounds
      refine ⟨rfl, diagnosis.category, p, rfl, rfl, first, last, row, diagnosis.exists_unclosed,
        diagnosis.exists_neverClosed, fun code chars decoded => ?_⟩
      exact diagnosis.not_isUtf8 code ⟨chars, decoded⟩

/-- A block on the second line, open to the end. -/
def openSource : List UInt8 := Text.Utf8.encode "a\n\x7b% #if x %\x7db"

theorem syntaxError_openSource :
    ∃ e, parse "page" openSource = .error (.malformed e) ∧ e.file = some "page" ∧
      e.problem.code = .unclosedBlock ∧
      ∃ before, e.line = some (Position.following before).line ∧ NeverClosed openSource before := by
  have refused : (match parse "page" openSource with
      | .error (.malformed e) => e.problem.code == .unclosedBlock
      | _ => false) = true := by decide +kernel
  split at refused
  · next e parsed =>
    have code : e.problem.code = .unclosedBlock := by simpa using refused
    obtain ⟨label, -, p, line, -, -, -, -, -, never, -⟩ := syntaxError_tells parsed
    obtain ⟨before, rfl, open'⟩ := never code
    exact ⟨e, parsed, label, code, before, line, open'⟩
  · cases refused

end Template

end Templating
