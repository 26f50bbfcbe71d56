import Templating.Proofs.Template.Cut
import Templating.Proofs.Template.Grammar

/-!
# The source as a sequence of constructs

`Piece` says which bytes make one construct at a position, and `Reads` that a stretch of the source
is a sequence of such pieces.  Reading a source passes over all of it piece by piece, or stops in
front of a piece that cannot be read.
-/

namespace Templating.Construct

open Expression (readName Parameters readParameters_eq_ok_iff read_eq_ok_iff)
open Remaining (expectEnd_eq_ok_iff)

/-- The content of an output is one expression, the parameter of the tag `get`. -/
inductive Output (p : Position) (r : Remaining) : Construct → Prop
  | expression {after : Remaining} {node : Node} :
      Expression.Reads r (.expression node) after → after.AtEnd →
      Output p r (.inline p "get" [node])

/-- The content of a statement is a name with what stands before and after it. -/
inductive Statement (p : Position) (r : Remaining) : Construct → Prop
  | closing {inside after : Remaining} {name : String} :
      r.skipBlanks.take? '/' = some inside → readName inside = .ok (name, after) → after.AtEnd →
      Statement p r (.closing p name)
  | opening {inside after : Remaining} {name : String} {params : List Node} :
      r.skipBlanks.take? '/' = none → r.skipBlanks.take? '#' = some inside →
      readName inside = .ok (name, after) → Parameters after params →
      Statement p r (.opening p name params)
  | otherwise {after : Remaining} :
      r.skipBlanks.take? '/' = none → r.skipBlanks.take? '#' = none →
      readName r.skipBlanks = .ok ("else", after) → after.AtEnd → Statement p r (.otherwise p)
  | inline {after : Remaining} {name : String} {params : List Node} :
      r.skipBlanks.take? '/' = none → r.skipBlanks.take? '#' = none →
      readName r.skipBlanks = .ok (name, after) → name ≠ "else" → Parameters after params →
      Statement p r (.inline p name params)

/-- The bytes at `p`, which `rest` follows, are one construct, or a comment. -/
inductive Piece : Position → List UInt8 → List UInt8 → Option Construct → Prop
  | text {p : Position} {bytes rest : List UInt8} {chars : List Char} :
      bytes ≠ [] → IsText bytes rest → rest = [] ∨ Opens rest →
      Text.Utf8.decode bytes = .ok chars →
      Piece p bytes rest (some (.text p (String.ofList chars)))
  | comment {p : Position} {content rest : List UInt8} :
      splitContent? .comment (content ++ Delimiter.comment.closingBytes ++ rest) =
        some (content, rest) →
      Piece p (Delimiter.comment.openingBytes ++ content ++ Delimiter.comment.closingBytes) rest
        none
  | output {p : Position} {content rest : List UInt8} {chars : List Char} {c : Construct} :
      splitContent? .output (content ++ Delimiter.output.closingBytes ++ rest) =
        some (content, rest) →
      Text.Utf8.decode content = .ok chars → Output p ⟨chars, p.right 2⟩ c →
      Piece p (Delimiter.output.openingBytes ++ content ++ Delimiter.output.closingBytes) rest
        (some c)
  | statement {p : Position} {content rest : List UInt8} {chars : List Char} {c : Construct} :
      splitContent? .statement (content ++ Delimiter.statement.closingBytes ++ rest) =
        some (content, rest) →
      Text.Utf8.decode content = .ok chars → Statement p ⟨chars, p.right 2⟩ c →
      (∀ q params, c ≠ .opening q "raw" params) →
      Piece p (Delimiter.statement.openingBytes ++ content ++ Delimiter.statement.closingBytes)
        rest (some c)
  | rawBlock {p q : Position} {content body tag rest : List UInt8} {chars text : List Char}
      {params : List Node} :
      splitContent? .statement
          (content ++ Delimiter.statement.closingBytes ++ (body ++ tag ++ rest)) =
        some (content, body ++ tag ++ rest) →
      Text.Utf8.decode content = .ok chars →
      Statement p ⟨chars, p.right 2⟩ (.opening p "raw" params) →
      q = p.afterBytes
        (Delimiter.statement.openingBytes ++ content ++ Delimiter.statement.closingBytes) →
      splitRawBody? (body ++ tag ++ rest) = some (body, tag, rest) →
      Text.Utf8.decode body = .ok text →
      Piece p (Delimiter.statement.openingBytes ++ content ++ Delimiter.statement.closingBytes ++
          body ++ tag) rest
        (some (.rawBlock p params (if body.isEmpty then none else some (q, String.ofList text))))

/-- From `p` on, `data` begins with pieces that make `constructs`; then `left` stands at `q`. -/
inductive Reads : Position → List UInt8 → List Construct → Position → List UInt8 → Prop
  | refl (p : Position) (data : List UInt8) : Reads p data [] p data
  | step {p q : Position} {bytes rest left : List UInt8} {c : Option Construct}
      {constructs : List Construct} :
      Piece p bytes rest c → Reads (p.afterBytes bytes) rest constructs q left →
      Reads p (bytes ++ rest) (c.toList ++ constructs) q left

theorem Piece.ne_nil {p : Position} {bytes rest : List UInt8} {c : Option Construct}
    (h : Piece p bytes rest c) : bytes ≠ [] := by
  cases h with
  | text nonempty => exact nonempty
  | comment => simp [Delimiter.openingBytes_comment]
  | output => simp [Delimiter.openingBytes_output]
  | statement => simp [Delimiter.openingBytes_statement]
  | rawBlock => simp [Delimiter.openingBytes_statement]

/-- What was read and what is left make up the source, and the position follows the bytes read. -/
theorem Reads.exists_read {p q : Position} {data left : List UInt8} {constructs : List Construct}
    (h : Reads p data constructs q left) :
    ∃ read, data = read ++ left ∧ q = p.afterBytes read := by
  induction h with
  | refl p data => exact ⟨[], rfl, rfl⟩
  | @step p q bytes rest left c constructs piece _ ih =>
      obtain ⟨read, rfl, rfl⟩ := ih
      exact ⟨bytes ++ read, by simp, by rw [Position.afterBytes_append]⟩

theorem Reads.single {p : Position} {bytes rest : List UInt8} {c : Construct}
    (h : Piece p bytes rest (some c)) : Reads p (bytes ++ rest) [c] (p.afterBytes bytes) rest :=
  .step h (.refl _ rest)

theorem Reads.trans {p q s : Position} {data mid left : List UInt8}
    {first others : List Construct} (h : Reads p data first q mid)
    (h' : Reads q mid others s left) : Reads p data (first ++ others) s left := by
  induction h with
  | refl => exact h'
  | step piece _ ih =>
      rw [List.append_assoc]
      exact .step piece (ih h')

/-! ## One step -/

theorem decodeAt_eq_ok_iff {p : Position} {bytes : List UInt8} {chars : List Char} :
    decodeAt p bytes = .ok chars ↔ Text.Utf8.decode bytes = .ok chars := by
  unfold decodeAt
  cases Text.Utf8.decode bytes <;> simp

theorem afterBytes_delimited (p : Position) (d : Delimiter) (content : List UInt8) :
    p.afterBytes (d.openingBytes ++ content ++ d.closingBytes) =
      ((p.right 2).afterBytes content).right 2 := by
  rw [Position.afterBytes_append, Position.afterBytes_append, Position.afterBytes_openingBytes,
    Position.afterBytes_closingBytes]

theorem readOutput_eq_ok_iff {p : Position} {r : Remaining} {c : Construct} :
    readOutput p r = .ok c ↔ Output p r c := by
  simp only [readOutput, bind_eq_ok_iff, pure_eq_ok_iff, Prod.exists, read_eq_ok_iff,
    expectEnd_eq_ok_iff]
  constructor
  · rintro ⟨node, after, reads, -, blank, rfl⟩
    exact .expression reads blank
  · rintro ⟨reads, blank⟩
    exact ⟨_, _, reads, (), blank, rfl⟩

theorem readStatement_eq_ok_iff {p : Position} {r : Remaining} {c : Construct} :
    readStatement p r = .ok c ↔ Statement p r c := by
  unfold readStatement
  simp only
  cases slash : r.skipBlanks.take? '/' with
  | some inside =>
      simp only [bind_eq_ok_iff, pure_eq_ok_iff, Prod.exists, expectEnd_eq_ok_iff]
      constructor
      · rintro ⟨name, after, named, -, blank, rfl⟩
        exact .closing slash named blank
      · rintro (⟨slash', named, blank⟩ | ⟨slash'⟩ | ⟨slash'⟩ | ⟨slash'⟩)
        · cases slash.symm.trans slash'
          exact ⟨_, _, named, (), blank, rfl⟩
        all_goals simp [slash'] at slash
  | none =>
  simp only
  cases hash : r.skipBlanks.take? '#' with
  | some inside =>
      simp only [bind_eq_ok_iff, pure_eq_ok_iff, Prod.exists, readParameters_eq_ok_iff]
      constructor
      · rintro ⟨name, after, named, params, parameters, rfl⟩
        exact .opening slash hash named parameters
      · rintro (⟨slash'⟩ | ⟨_, hash', named, parameters⟩ | ⟨_, hash'⟩ | ⟨_, hash'⟩)
        · simp [slash'] at slash
        · cases hash.symm.trans hash'
          exact ⟨_, _, named, _, parameters, rfl⟩
        all_goals simp [hash'] at hash
  | none =>
      simp only [bind_eq_ok_iff, Prod.exists]
      constructor
      · rintro ⟨name, after, named, h⟩
        split at h
        · next other =>
          subst other
          simp only [bind_eq_ok_iff, pure_eq_ok_iff, expectEnd_eq_ok_iff] at h
          obtain ⟨-, blank, rfl⟩ := h
          exact .otherwise slash hash named blank
        · next other =>
          simp only [bind_eq_ok_iff, pure_eq_ok_iff, readParameters_eq_ok_iff] at h
          obtain ⟨params, parameters, rfl⟩ := h
          exact .inline slash hash named other parameters
      · rintro (⟨slash', _, _⟩ | ⟨_, hash', _, _⟩ | ⟨_, _, named, blank⟩ |
          ⟨_, _, named, other, parameters⟩)
        · simp [slash'] at slash
        · simp [hash'] at hash
        · refine ⟨_, _, named, ?_⟩
          rw [if_pos rfl]
          simp only [bind_eq_ok_iff, pure_eq_ok_iff, expectEnd_eq_ok_iff]
          exact ⟨(), blank, trivial⟩
        · refine ⟨_, _, named, ?_⟩
          rw [if_neg other]
          simp only [bind_eq_ok_iff, pure_eq_ok_iff, readParameters_eq_ok_iff]
          exact ⟨_, parameters, rfl⟩

theorem piece_of_readRawBlock {p q : Position} {params : List Node} {data : List UInt8}
    {found : Found} (h : readRawBlock p q params data = .ok found) :
    ∃ body tag text, data = body ++ tag ++ found.rest ∧
      found.position = q.afterBytes (body ++ tag) ∧
      splitRawBody? data = some (body, tag, found.rest) ∧ Text.Utf8.decode body = .ok text ∧
      found.construct =
        some (.rawBlock p params
          (if body.isEmpty then none else some (q, String.ofList text))) := by
  unfold readRawBlock at h
  split at h
  · cases h
  · next body tag rest split =>
    simp only [bind_eq_ok_iff, decodeAt_eq_ok_iff, pure_eq_ok_iff] at h
    obtain ⟨text, decoded, rfl⟩ := h
    exact ⟨body, tag, text, append_of_splitRawBody? split, by rw [Position.afterBytes_append],
      split, decoded, rfl⟩

theorem piece_of_readDelimited {p : Position} {d : Delimiter} {data : List UInt8} {found : Found}
    (h : readDelimited p d data = .ok found) :
    ∃ bytes, d.openingBytes ++ data = bytes ++ found.rest ∧ found.position = p.afterBytes bytes ∧
      Piece p bytes found.rest found.construct := by
  unfold readDelimited at h
  split at h
  · cases h
  next content rest split =>
  have whole := append_of_splitContent? split
  subst whole
  have after := afterBytes_delimited p d content
  cases d with
  | comment =>
      simp only [pure_eq_ok_iff] at h
      subst h
      exact ⟨_, by simp, after.symm, .comment split⟩
  | output =>
      simp only [bind_eq_ok_iff, decodeAt_eq_ok_iff, pure_eq_ok_iff] at h
      obtain ⟨chars, decoded, c, read, rfl⟩ := h
      exact ⟨_, by simp, after.symm, .output split decoded (readOutput_eq_ok_iff.1 read)⟩
  | statement =>
      simp only [bind_eq_ok_iff, decodeAt_eq_ok_iff] at h
      obtain ⟨chars, decoded, c, read, h⟩ := h
      rw [readStatement_eq_ok_iff] at read
      split at h
      · next q params =>
        have place : q = p := by
          cases read
          rfl
        subst place
        obtain ⟨body, tag, text, rfl, position, cut, decodedBody, construct⟩ :=
          piece_of_readRawBlock h
        rw [construct, position, ← after, ← Position.afterBytes_append]
        exact ⟨_, by simp, by simp, .rawBlock split decoded read rfl cut decodedBody⟩
      · next ordinary =>
        simp only [pure_eq_ok_iff] at h
        subst h
        exact ⟨_, by simp, after.symm, .statement split decoded read ordinary⟩

theorem piece_of_readNext {p : Position} {data : List UInt8} {found : Found}
    (nonempty : data ≠ []) (h : readNext p data = .ok found) :
    ∃ bytes, data = bytes ++ found.rest ∧ found.position = p.afterBytes bytes ∧
      Piece p bytes found.rest found.construct := by
  unfold readNext at h
  split at h
  · next d rest opener =>
    rw [splitOpener?_eq_some_iff.1 opener]
    exact piece_of_readDelimited h
  · next closed =>
    simp only [bind_eq_ok_iff, decodeAt_eq_ok_iff, pure_eq_ok_iff] at h
    obtain ⟨chars, decoded, rfl⟩ := h
    obtain ⟨b, rest, rfl⟩ := List.exists_cons_of_ne_nil nonempty
    exact ⟨_, (spanText_append _).symm, rfl,
      .text (spanText_ne_nil closed) (isText_spanText _) (opens_after_spanText _) decoded⟩

theorem readNext_openingBytes (p : Position) (d : Delimiter) (data : List UInt8) :
    readNext p (d.openingBytes ++ data) = readDelimited p d data := by
  simp only [readNext, splitOpener?_eq_some_iff.2 rfl]

theorem readNext_of_piece {p : Position} {bytes rest : List UInt8} {c : Option Construct}
    (h : Piece p bytes rest c) :
    readNext p (bytes ++ rest) = .ok ⟨c, p.afterBytes bytes, rest⟩ := by
  have opener := readNext_openingBytes p
  cases h with
  | text nonempty isText ends decoded =>
      have closed : splitOpener? (bytes ++ rest) = none :=
        splitOpener?_eq_none_iff.2 (isText [] bytes rfl nonempty)
      simp only [readNext, closed, spanText_of_isText isText ends]
      rw [decodeAt_eq_ok_iff.2 decoded]
      rfl
  | @comment content _ split =>
      rw [List.append_assoc, List.append_assoc, opener, ← List.append_assoc, readDelimited, split,
        afterBytes_delimited]
      rfl
  | @output content _ chars c split decoded output =>
      rw [List.append_assoc, List.append_assoc, opener, ← List.append_assoc, readDelimited, split,
        afterBytes_delimited]
      simp only [decodeAt_eq_ok_iff.2 decoded, bind, Except.bind, readOutput_eq_ok_iff.2 output]
      rfl
  | @statement content _ chars c split decoded statement ordinary =>
      rw [List.append_assoc, List.append_assoc, opener, ← List.append_assoc, readDelimited, split,
        afterBytes_delimited]
      simp only [decodeAt_eq_ok_iff.2 decoded, bind, Except.bind,
        readStatement_eq_ok_iff.2 statement]
      rfl
  | @rawBlock q content body tag _ chars text params split decoded statement place cut
      decodedBody =>
      have whole : Delimiter.statement.openingBytes ++ content ++
          Delimiter.statement.closingBytes ++ body ++ tag ++ rest =
          Delimiter.statement.openingBytes ++
            (content ++ Delimiter.statement.closingBytes ++ (body ++ tag ++ rest)) := by simp
      rw [whole, opener, readDelimited, split]
      simp only [decodeAt_eq_ok_iff.2 decoded, bind, Except.bind,
        readStatement_eq_ok_iff.2 statement]
      rw [← afterBytes_delimited, ← place, readRawBlock, cut]
      simp only [decodeAt_eq_ok_iff.2 decodedBody, bind, Except.bind]
      rw [Position.afterBytes_append, Position.afterBytes_append, ← place]
      rfl

/-! ## The whole source -/

/-- Reading passes over all of the source, or stops in front of what cannot be read. -/
theorem reads_surveyFrom {fuel : Nat} {p : Position} {data : List UInt8}
    (enough : data.length ≤ fuel) :
    ∃ q left, Reads p data (surveyFrom fuel p data).constructs q left ∧
      match (surveyFrom fuel p data).failure with
      | none => left = []
      | some failure => left ≠ [] ∧ readNext q left = .error failure := by
  induction fuel generalizing p data with
  | zero =>
      have empty := List.eq_nil_of_length_eq_zero (Nat.le_zero.1 enough)
      subst empty
      exact ⟨p, [], .refl p [], rfl⟩
  | succ fuel ih =>
      cases data with
      | nil => exact ⟨p, [], .refl p [], rfl⟩
      | cons b rest =>
          simp only [surveyFrom]
          cases next : readNext p (b :: rest) with
          | error failure => exact ⟨p, b :: rest, .refl p _, List.cons_ne_nil b rest, next⟩
          | ok found =>
              obtain ⟨bytes, whole, position, piece⟩ :=
                piece_of_readNext (List.cons_ne_nil b rest) next
              -- A piece is never empty, so that the fuel suffices for what follows it.
              have shorter : found.rest.length ≤ fuel := by
                have total := congrArg List.length whole
                have progress := List.length_pos_iff.2 piece.ne_nil
                simp only [List.length_append, List.length_cons] at total enough
                omega
              obtain ⟨q, left, reads, outcome⟩ := ih (p := p.afterBytes bytes) shorter
              simp only [position]
              rw [whole]
              exact ⟨q, left, .step piece reads, outcome⟩

theorem reads_survey (data : List UInt8) :
    ∃ q left, Reads .start data (survey data).constructs q left ∧
      match (survey data).failure with
      | none => left = []
      | some failure => left ≠ [] ∧ readNext q left = .error failure :=
  reads_surveyFrom (Nat.le_refl _)

theorem reads_of_failure_eq_none {data : List UInt8} (h : (survey data).failure = none) :
    Reads .start data (survey data).constructs (Position.start.afterBytes data) [] := by
  obtain ⟨q, left, reads, outcome⟩ := reads_survey data
  rw [h] at outcome
  simp only at outcome
  subst outcome
  obtain ⟨read, whole, rfl⟩ := reads.exists_read
  rw [List.append_nil] at whole
  subst whole
  exact reads

/-- After the pieces that were read the survey goes on where they end. -/
private theorem surveyFrom_of_reads {p q : Position} {data left : List UInt8}
    {constructs : List Construct} (h : Reads p data constructs q left) {fuel : Nat}
    (enough : data.length ≤ fuel) :
    ∃ less, left.length ≤ less ∧ surveyFrom fuel p data =
      ⟨constructs ++ (surveyFrom less q left).constructs, (surveyFrom less q left).failure⟩ := by
  induction h generalizing fuel with
  | refl p data => exact ⟨fuel, enough, rfl⟩
  | @step p q bytes rest left c constructs piece reads ih =>
      have progress := List.length_pos_iff.2 piece.ne_nil
      rw [List.length_append] at enough
      obtain ⟨b, tail, hbytes⟩ := List.exists_cons_of_ne_nil piece.ne_nil
      cases fuel with
      | zero => omega
      | succ fuel =>
          obtain ⟨less, bound, later⟩ := ih (Nat.le_of_lt_succ (by omega : rest.length < fuel + 1))
          have next := readNext_of_piece piece
          refine ⟨less, bound, ?_⟩
          rw [hbytes, List.cons_append] at next ⊢
          rw [surveyFrom]
          simp only [next]
          rw [← hbytes, later, List.append_assoc]

/-- A source can be read as a sequence of constructs in one way only. -/
theorem survey_of_reads {data : List UInt8} {constructs : List Construct} {q : Position}
    (h : Reads .start data constructs q []) : survey data = ⟨constructs, none⟩ := by
  obtain ⟨less, -, whole⟩ := surveyFrom_of_reads h (Nat.le_refl _)
  have nothing : surveyFrom less q [] = ⟨[], none⟩ := by cases less <;> rfl
  rw [survey, whole, nothing, List.append_nil]

/-- What cannot be read after some constructs is what stops the reading. -/
theorem survey_of_failure {data left : List UInt8} {constructs : List Construct} {q : Position}
    {failure : ReadFailure} (h : Reads .start data constructs q left) (more : left ≠ [])
    (next : readNext q left = .error failure) : survey data = ⟨constructs, some failure⟩ := by
  obtain ⟨less, bound, whole⟩ := surveyFrom_of_reads h (Nat.le_refl _)
  obtain ⟨b, rest, rfl⟩ := List.exists_cons_of_ne_nil more
  cases less with
  | zero => simp at bound
  | succ less =>
      rw [survey, whole, surveyFrom]
      simp only [next, List.append_nil]

end Templating.Construct
