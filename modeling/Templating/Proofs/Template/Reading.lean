import Templating.Proofs.Printing.Delimited
import Templating.Proofs.Template.Nesting
import Templating.Proofs.Template.Overlong

/-!
# What reading a source gives

A source that is read to its end gives a tree.  Of any other the reading says where it stopped and
why, which is a syntax error unless the source comes to an integer of too many digits.
-/

namespace Templating

/-! ## Constructs -/

namespace Construct

open Expression (readName Overlong OverlongParameters readParameters_eq_fault_iff
  read_eq_fault_iff expectEnd_ne_fault)

/-- The content of a statement comes to an integer of too many digits. -/
inductive OverlongStatement (r : Remaining) (count : Nat) : Prop
  | opening {inside after : Remaining} {name : String} :
      r.skipBlanks.take? '/' = none → r.skipBlanks.take? '#' = some inside →
      readName inside = .ok (name, after) → OverlongParameters after count →
      OverlongStatement r count
  | inline {after : Remaining} {name : String} :
      r.skipBlanks.take? '/' = none → r.skipBlanks.take? '#' = none →
      readName r.skipBlanks = .ok (name, after) → name ≠ "else" →
      OverlongParameters after count → OverlongStatement r count

/-- The construct that begins the bytes at `p` comes to an integer of too many digits. -/
inductive OverlongPiece (p : Position) : List UInt8 → Nat → Prop
  | output {content rest : List UInt8} {chars : List Char} {count : Nat} :
      splitContent? .output (content ++ Delimiter.output.closingBytes ++ rest) =
        some (content, rest) →
      Text.Utf8.decode content = .ok chars → Overlong ⟨chars, p.right 2⟩ .expression count →
      OverlongPiece p (Delimiter.output.openingBytes ++
        (content ++ Delimiter.output.closingBytes ++ rest)) count
  | statement {content rest : List UInt8} {chars : List Char} {count : Nat} :
      splitContent? .statement (content ++ Delimiter.statement.closingBytes ++ rest) =
        some (content, rest) →
      Text.Utf8.decode content = .ok chars → OverlongStatement ⟨chars, p.right 2⟩ count →
      OverlongPiece p (Delimiter.statement.openingBytes ++
        (content ++ Delimiter.statement.closingBytes ++ rest)) count

theorem OverlongPiece.limit {p : Position} {data : List UInt8} {count : Nat}
    (h : OverlongPiece p data count) : Number.digitLimit < count := by
  cases h with
  | output _ _ overlong => exact overlong.limit
  | statement _ _ overlong =>
      cases overlong with
      | opening _ _ _ parameters | inline _ _ _ _ parameters => exact parameters.limit

theorem OverlongPiece.ne_nil {p : Position} {data : List UInt8} {count : Nat}
    (h : OverlongPiece p data count) : data ≠ [] := by
  cases h with
  | output => simp [Delimiter.openingBytes_output]
  | statement => simp [Delimiter.openingBytes_statement]

theorem readName_ne_fault {r : Remaining} {f : Fault} : readName r ≠ .error (.fault f) := by
  unfold readName
  simp only
  split <;> simp [Remaining.fail]

theorem decodeAt_ne_fault {p : Position} {bytes : List UInt8} {f : Fault} :
    decodeAt p bytes ≠ .error (.fault f) := by
  unfold decodeAt
  cases Text.Utf8.decode bytes <;> simp

theorem readOutput_eq_fault_iff {p : Position} {r : Remaining} {f : Fault} :
    readOutput p r = .error (.fault f) ↔
      ∃ count, f = .integerTextTooLong count ∧ Overlong r .expression count := by
  simp only [readOutput, bind_eq_error_iff, read_eq_fault_iff, expectEnd_ne_fault, pure_ne_error,
    and_false, exists_false, or_false]

theorem readStatement_eq_fault_iff {p : Position} {r : Remaining} {f : Fault} :
    readStatement p r = .error (.fault f) ↔
      ∃ count, f = .integerTextTooLong count ∧ OverlongStatement r count := by
  unfold readStatement
  simp only
  cases slash : r.skipBlanks.take? '/' with
  | some inside =>
      simp only [bind_eq_error_iff, readName_ne_fault, expectEnd_ne_fault, pure_ne_error, and_false,
        exists_false, or_false, false_iff]
      rintro ⟨count, -, overlong⟩
      cases overlong with
      | opening slash' | inline slash' => simp [slash] at slash'
  | none =>
  simp only
  cases hash : r.skipBlanks.take? '#' with
  | some inside =>
      simp only [bind_eq_error_iff, readName_ne_fault, readParameters_eq_fault_iff, Prod.exists,
        pure_ne_error, and_false, exists_false, or_false, false_or]
      constructor
      · rintro ⟨name, after, named, count, rfl, overlong⟩
        exact ⟨count, rfl, .opening slash hash named overlong⟩
      · rintro ⟨count, rfl, overlong⟩
        cases overlong with
        | opening _ hash' named overlong =>
            cases hash.symm.trans hash'
            exact ⟨_, _, named, count, rfl, overlong⟩
        | inline _ hash' => simp [hash] at hash'
  | none =>
      simp only [bind_eq_error_iff, readName_ne_fault, Prod.exists, false_or]
      constructor
      · rintro ⟨name, after, named, h⟩
        split at h
        · simp only [bind_eq_error_iff, expectEnd_ne_fault, pure_ne_error, and_false, exists_false,
            or_false] at h
        · next other =>
          simp only [bind_eq_error_iff, readParameters_eq_fault_iff, pure_ne_error, and_false,
            exists_false, or_false] at h
          obtain ⟨count, rfl, overlong⟩ := h
          exact ⟨count, rfl, .inline slash hash named other overlong⟩
      · rintro ⟨count, rfl, overlong⟩
        cases overlong with
        | opening _ hash' => simp [hash] at hash'
        | inline _ _ named other overlong =>
            refine ⟨_, _, named, ?_⟩
            rw [if_neg other]
            simp only [bind_eq_error_iff, readParameters_eq_fault_iff]
            exact .inl ⟨count, rfl, overlong⟩

theorem readNext_eq_fault_iff {p : Position} {data : List UInt8} {f : Fault} :
    readNext p data = .error (.fault f) ↔
      ∃ count, f = .integerTextTooLong count ∧ OverlongPiece p data count := by
  constructor
  · intro h
    unfold readNext at h
    split at h
    · next d rest opener =>
      rw [splitOpener?_eq_some_iff.1 opener]
      unfold readDelimited at h
      split at h
      · cases h
      next content left split =>
      have whole := append_of_splitContent? split
      subst whole
      cases d with
      | comment => cases h
      | output =>
          simp only [bind_eq_error_iff, decodeAt_ne_fault, decodeAt_eq_ok_iff,
            readOutput_eq_fault_iff, pure_ne_error, and_false, exists_false, or_false,
            false_or] at h
          obtain ⟨chars, decoded, count, rfl, overlong⟩ := h
          exact ⟨count, rfl, .output split decoded overlong⟩
      | statement =>
          simp only [bind_eq_error_iff, decodeAt_ne_fault, decodeAt_eq_ok_iff,
            readStatement_eq_fault_iff, false_or] at h
          obtain ⟨chars, decoded, ⟨count, rfl, overlong⟩ | ⟨c, -, h⟩⟩ := h
          · exact ⟨count, rfl, .statement split decoded overlong⟩
          · split at h
            · unfold readRawBlock at h
              split at h
              · cases h
              · simp only [bind_eq_error_iff, decodeAt_ne_fault, pure_ne_error, and_false,
                  exists_false, or_false] at h
            · cases h
    · simp only [bind_eq_error_iff, decodeAt_ne_fault, pure_ne_error, and_false, exists_false,
        or_false] at h
  · rintro ⟨count, rfl, overlong⟩
    unfold readNext
    cases overlong with
    | output split decoded overlong =>
        have read := (readOutput_eq_fault_iff (p := p)).2 ⟨count, rfl, overlong⟩
        simp only [splitOpener?_eq_some_iff.2 rfl, readDelimited, split,
          decodeAt_eq_ok_iff.2 decoded, bind, Except.bind, read]
    | statement split decoded overlong =>
        have read := (readStatement_eq_fault_iff (p := p)).2 ⟨count, rfl, overlong⟩
        simp only [splitOpener?_eq_some_iff.2 rfl, readDelimited, split,
          decodeAt_eq_ok_iff.2 decoded, bind, Except.bind, read]

end Construct

/-! ## Sources -/

namespace Growth

theorem step_ne_fault {growth : Growth} {c : Construct} {f : Fault} :
    growth.step c ≠ .error (.fault f) := by
  cases c with
  | text | inline | opening | rawBlock => simp [step]
  | otherwise p =>
      simp only [step, turn]
      split
      · simp
      · split <;> simp
  | closing p name =>
      simp only [step, close]
      split
      · simp
      · split <;> simp

theorem run_ne_fault {growth : Growth} {constructs : List Construct} {f : Fault} :
    growth.run constructs ≠ .error (.fault f) := by
  induction constructs generalizing growth with
  | nil => simp [run]
  | cons c rest ih => simp [run, bind_eq_error_iff, step_ne_fault, ih]

theorem finish_ne_fault {growth : Growth} {f : Fault} : growth.finish ≠ .error (.fault f) := by
  unfold finish
  split <;> simp

end Growth

namespace Template

/-- The source is read and put together up to a construct that comes to an integer of too many
digits. -/
def ComesToOverlong (data : List UInt8) (count : Nat) : Prop :=
  ∃ constructs q left growth, Construct.Reads .start data constructs q left ∧
    Growth.empty.run constructs = .ok growth ∧ Construct.OverlongPiece q left count

theorem read_eq_fault_iff {data : List UInt8} {f : Fault} :
    read data = .error (.fault f) ↔
      ∃ count, f = .integerTextTooLong count ∧ ComesToOverlong data count := by
  constructor
  · intro h
    simp only [read, bind_eq_error_iff, Growth.run_ne_fault, false_or] at h
    obtain ⟨growth, run, h⟩ := h
    obtain ⟨q, left, reads, outcome⟩ := Construct.reads_survey data
    cases failure : (Construct.survey data).failure with
    | none =>
        rw [failure] at h
        exact absurd h Growth.finish_ne_fault
    | some stop =>
        simp only [failure] at h outcome
        cases h
        obtain ⟨count, rfl, overlong⟩ := Construct.readNext_eq_fault_iff.1 outcome.2
        exact ⟨count, rfl, _, q, left, growth, reads, run, overlong⟩
  · rintro ⟨count, rfl, constructs, q, left, growth, reads, run, overlong⟩
    have next := Construct.readNext_eq_fault_iff.2 ⟨count, rfl, overlong⟩
    have whole := Construct.survey_of_failure reads overlong.ne_nil next
    simp only [read, whole, run, bind, Except.bind]

theorem parse_eq_fault_iff {file : String} {data : List UInt8} {count : Nat} :
    parse file data = .error (.fault (.integerTextTooLong count)) ↔ ComesToOverlong data count := by
  have plain : parse file data = .error (.fault (.integerTextTooLong count)) ↔
      read data = .error (.fault (.integerTextTooLong count)) := by
    unfold parse
    rw [mapError_eq_error_iff]
    cases read data with
    | ok tree => simp
    | error failure => cases failure <;> simp [explain]
  simp [plain, read_eq_fault_iff]

/-- Reading a source gives a tree once all of it is read, or a syntax error that names the
template, or refuses an integer; the last just when the source comes to an integer of too many
digits. -/
theorem parse_outcome (file : String) (data : List UInt8) :
    ((∃ tree constructs, parse file data = .ok tree ∧
        Construct.Reads .start data constructs (Position.start.afterBytes data) []) ∨
      (∃ e, parse file data = .error (.malformed e) ∧ e.file = some file) ∨
      ∃ count, parse file data = .error (.fault (.integerTextTooLong count)) ∧
        Number.digitLimit < count) ∧
      ∀ count, parse file data = .error (.fault (.integerTextTooLong count)) ↔
        ComesToOverlong data count := by
  refine ⟨?_, fun count => parse_eq_fault_iff⟩
  cases outcome : read data with
  | ok tree =>
      obtain ⟨complete, -⟩ := read_eq_ok_iff.1 outcome
      exact .inl ⟨tree, _, parse_eq_ok_iff.2 outcome, Construct.reads_of_failure_eq_none complete⟩
  | error failure =>
      have failed : parse file data = .error (explain file data failure) := by
        rw [parse, outcome]
        rfl
      cases failure with
      | malformed problem p => exact .inr (.inl ⟨_, failed, rfl⟩)
      | fault f =>
          obtain ⟨count, rfl, overlong⟩ := read_eq_fault_iff.1 outcome
          refine .inr (.inr ⟨count, failed, ?_⟩)
          obtain ⟨_, _, _, _, -, -, piece⟩ := overlong
          exact piece.limit

def onesSource (count : Nat) : List UInt8 :=
  Delimiter.output.openingBytes ++ (encodeChars (' ' :: (List.replicate count '1' ++ [' '])) ++
    Delimiter.output.closingBytes ++ [])

theorem comesToOverlong_onesSource {count : Nat} (long : Number.digitLimit < count) :
    ComesToOverlong (onesSource count) count := by
  have one : ∀ c ∈ List.replicate count '1', c = '1' := fun c => List.eq_of_mem_replicate
  have closed : Closed (' ' :: (List.replicate count '1' ++ [' '])) := by
    refine closed_cons ' ' ((closed_of_plain ?_).append closed_blank) (by decide)
    intro c member
    rw [one c member]
    decide
  have decimal : ∀ c ∈ List.replicate count '1', c.isDigit = true := by
    intro c member
    rw [one c member]
    decide
  have stop : ∀ c, [' '].head? = some c → Text.digitValue? c = none := by
    rintro c ⟨⟩
    decide
  have span := Expression.spanDigits_append decimal stop
  obtain ⟨n, rfl⟩ : ∃ n, count = n + 1 := ⟨count - 1, by omega⟩
  have signed : Expression.splitSigned? (List.replicate (n + 1) '1' ++ [' ']) =
      some (false, (List.replicate (n + 1) '1').map (fun c => c.toNat - 48), n + 1, [' ']) := by
    rw [List.replicate_succ, List.cons_append] at span ⊢
    simp [Expression.splitSigned?, span]
  have begins : Remaining.skipBlanks
      ⟨' ' :: (List.replicate (n + 1) '1' ++ [' ']), Position.start.right 2⟩ =
      ⟨List.replicate (n + 1) '1' ++ [' '], (Position.start.right 2).right 1⟩ := by
    rw [Remaining.skipBlanks_blank (by decide), List.replicate_succ, List.cons_append]
    exact Remaining.skipBlanks_cons (by decide) _ _
  have number : Expression.OverlongNumber (Remaining.skipBlanks
      ⟨' ' :: (List.replicate (n + 1) '1' ++ [' ']), Position.start.right 2⟩) (n + 1) := by
    rw [begins]
    exact ⟨false, _, _, [' '], signed, rfl, rfl, by simp, long⟩
  exact ⟨[], .start, onesSource (n + 1), .empty, .refl _ _, rfl,
    .output (Construct.splitContent?_closed (by decide) closed []) (decode_encodeChars _)
      (.number number)⟩

/-- Not every source that is refused has a syntax error. -/
theorem exists_refused_without_syntaxError :
    ¬ ∀ file data, (∃ tree, parse file data = .ok tree) ∨
      ∃ e, parse file data = .error (.malformed e) := by
  intro claimed
  have refused : parse "long" (onesSource 4301) = .error (.fault (.integerTextTooLong 4301)) :=
    parse_eq_fault_iff.2 (comesToOverlong_onesSource (by decide))
  rcases claimed "long" (onesSource 4301) with ⟨tree, accepted⟩ | ⟨e, malformed⟩
  · cases accepted.symm.trans refused
  · cases malformed.symm.trans refused

end Template

end Templating
