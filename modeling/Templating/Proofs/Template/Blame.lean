import Templating.Proofs.Template.Overlong
import Templating.Template.Construct

/-!
# Where an expression goes wrong

A syntax error of an expression is put at a place that the reader has come to, between the start of
what is left and its end, and its code tells that an expression is wrong.  One rule for each way to
put readers together, and then one case for each reader.
-/

namespace Templating

namespace Remaining

/-- A syntax error, if the reading gives one, blames the expression at a place that is reached. -/
def Blames {α : Type} (r : Remaining) (result : Except ReadFailure α) : Prop :=
  ∀ problem p, result = .error (.malformed problem p) →
    problem.code = .invalidExpression ∧ ∃ after, r.Reaches after ∧ after.position = p

namespace Blames

variable {α β : Type} {r after : Remaining} {result : Except ReadFailure α}

theorem ok (a : α) : r.Blames (.ok a) := nofun

theorem fault (f : Fault) : r.Blames (.error (.fault f) : Except ReadFailure α) := nofun

theorem of_fail (reaches : r.Reaches after) {problem : SyntaxProblem}
    (code : problem.code = .invalidExpression) :
    r.Blames (after.fail problem : Except ReadFailure α) := by
  rintro _ _ ⟨⟩
  exact ⟨code, after, reaches, rfl⟩

theorem mono (reaches : r.Reaches after) (h : after.Blames result) : r.Blames result := by
  intro problem p failed
  obtain ⟨code, place, further, rfl⟩ := h problem p failed
  exact ⟨code, place, reaches.trans further, rfl⟩

theorem bind {next : α → Except ReadFailure β} (h : r.Blames result)
    (others : ∀ a, result = .ok a → r.Blames (next a)) : r.Blames (result >>= next) := by
  intro problem p failed
  rcases bind_eq_error_iff.1 failed with own | ⟨a, done, later⟩
  · exact h problem p own
  · exact others a done problem p later

theorem map (h : r.Blames result) (f : α → β) : r.Blames (result.map f) :=
  fun problem p failed => h problem p (map_eq_error_iff.1 failed)

end Blames

theorem blames_expectEnd (r : Remaining) : r.Blames r.expectEnd := by
  unfold expectEnd
  simp only
  split
  · exact .ok ()
  · exact .of_fail (reaches_skipBlanks r) rfl

end Remaining

namespace Expression

open Remaining

/-! ## Parts of paths -/

theorem blames_readName (r : Remaining) : r.Blames (readName r) := by
  unfold readName
  simp only
  split
  · exact .ok _
  · exact .of_fail (reaches_skipBlanks r) rfl

theorem blames_readString (r : Remaining) (quote : Char) (rest : List Char) :
    r.Blames (readString r quote rest) := by
  unfold readString
  split
  · exact .ok _
  · exact .of_fail (.refl r) rfl

theorem blames_readIntegerOf (r : Remaining) (negative : Bool) (digits : List Nat) :
    r.Blames (readIntegerOf negative digits) := by
  unfold readIntegerOf
  split
  · exact .ok _
  · exact .fault _
  · exact .ok _

theorem blames_readNumber? {r : Remaining} {reading : Except ReadFailure (Value × Remaining)}
    (h : readNumber? r = some reading) : r.Blames reading := by
  rintro problem p rfl
  obtain ⟨count, overlong, -⟩ := readNumber?_eq_error_iff.1 h
  cases overlong

theorem blames_readNamedStep (r : Remaining) : r.Blames (readNamedStep r) := by
  unfold readNamedStep
  split
  · exact .ok _
  · simp only
    split
    · exact .of_fail (.refl r) rfl
    · exact (blames_readIntegerOf r _ _).map _

theorem blames_readInside (r : Remaining) : r.Blames (readInside r) := by
  unfold readInside
  split
  · exact .of_fail (.refl r) rfl
  split
  · exact (blames_readString r _ _).map _
  · split
    · exact .of_fail (.refl r) rfl
    · exact (blames_readIntegerOf r _ _).map _

theorem blames_closeStep (inside : Step × Remaining) : inside.2.Blames (closeStep inside) := by
  unfold closeStep
  split
  · exact .ok _
  · exact .of_fail (reaches_skipBlanks inside.2) rfl

theorem blames_readBracketStep (r : Remaining) : r.Blames (readBracketStep r) := by
  rw [readBracketStep_eq]
  refine (blames_readInside r.skipBlanks).mono (reaches_skipBlanks r) |>.bind ?_
  rintro ⟨step, inside⟩ read
  have come := (reaches_skipBlanks r).trans (reaches_of_readInside read)
  exact (blames_closeStep (step, inside)).mono come

theorem blames_readSteps (fuel : Nat) (r : Remaining) : r.Blames (readSteps fuel r) := by
  induction fuel generalizing r with
  | zero => exact .ok _
  | succ fuel ih =>
      rw [readSteps]
      split
      · next rest hchars =>
        have point : r.Reaches (r.jump 1 rest) := .of_jump ['.'] hchars (by decide) rfl
        refine (blames_readNamedStep _).mono point |>.bind ?_
        rintro ⟨step, next⟩ read
        have come := point.trans (reaches_of_readNamedStep read).1
        exact (ih next).mono come |>.bind fun _ _ => .ok _
      · next rest hchars =>
        have bracket : r.Reaches (r.jump 1 rest) := .of_jump ['['] hchars (by decide) rfl
        refine (blames_readBracketStep _).mono bracket |>.bind ?_
        rintro ⟨step, next⟩ read
        have come := bracket.trans (reaches_of_readBracketStep read).1
        exact (ih next).mono come |>.bind fun _ _ => .ok _
      · exact .ok _

theorem blames_readPath (p : Position) (name : String) (r : Remaining) :
    r.Blames (readPath p name r) := by
  have follow : r.Blames (readPath.follow p name r) :=
    (blames_readSteps _ r).bind fun _ _ => .ok _
  unfold readPath
  split
  · exact .ok _
  · split
    · exact follow
    · exact .ok _
  · exact follow

/-! ## Expressions -/

theorem blames_of_fuel (fuel : Nat) :
    (∀ r : Remaining, r.Blames (readWithin fuel r)) ∧
      (∀ r : Remaining, r.Blames (readArguments fuel r)) ∧
      ∀ r : Remaining, r.Blames (readList fuel r) := by
  induction fuel with
  | zero =>
      exact ⟨fun r => .of_fail (.refl r) rfl, fun r => .of_fail (.refl r) rfl,
        fun r => .of_fail (.refl r) rfl⟩
  | succ fuel ih =>
      obtain ⟨expression, arguments, list⟩ := ih
      refine ⟨fun r => ?_, fun r => ?_, fun r => ?_⟩
      · -- Each way an expression can begin is tried at the same place.
        have begin := reaches_skipBlanks r
        rw [readWithin]
        simp only
        split
        · exact .of_fail begin rfl
        split
        · exact (blames_readString _ _ _).mono begin |>.bind fun _ _ => .ok _
        split
        · next reading number =>
          exact (blames_readNumber? number).mono begin |>.bind fun _ _ => .ok _
        split
        · exact .of_fail begin rfl
        next name rest split =>
        have named := begin.trans (reaches_of_splitName? split)
        split
        · next inside paren =>
          have opened := named.trans (reaches_of_take? (by decide) paren)
          exact (arguments inside).mono opened |>.bind fun _ _ => .ok _
        · exact (blames_readPath _ _ _).mono named
      · rw [readArguments]
        split
        · exact .ok _
        · exact (list _).mono (reaches_skipBlanks r)
      · rw [readList]
        refine (expression r).bind ?_
        rintro ⟨node, mid⟩ read
        have first := ((reads_of_fuel fuel).1 r node mid read).reaches.1
        have begin := first.trans (reaches_skipBlanks mid)
        simp only
        split
        · exact .ok _
        split
        · exact .of_fail begin rfl
        · next next comma =>
          have later := begin.trans (reaches_of_take? (by decide) comma)
          exact (list next).mono later |>.bind fun _ _ => .ok _

theorem blames_read (r : Remaining) : r.Blames (read r) := (blames_of_fuel (fuelFor r)).1 r

theorem blames_readToEnd (fuel : Nat) (r : Remaining) : r.Blames (readToEnd fuel r) := by
  induction fuel generalizing r with
  | zero => exact .ok _
  | succ fuel ih =>
      have begin := reaches_skipBlanks r
      rw [readToEnd]
      simp only
      split
      · exact .ok _
      split
      · exact .of_fail begin rfl
      · next next comma =>
        have later := begin.trans (reaches_of_take? (by decide) comma)
        refine (blames_read next).mono later |>.bind ?_
        rintro ⟨node, after⟩ read
        have come := later.trans (read_eq_ok_iff.1 read).reaches.1
        exact (ih after).mono come |>.bind fun _ _ => .ok _

theorem blames_readParameters (r : Remaining) : r.Blames (readParameters r) := by
  have begin := reaches_skipBlanks r
  unfold readParameters
  simp only
  split
  · next inside paren =>
    have opened := begin.trans (reaches_of_take? (by decide) paren)
    refine ((blames_of_fuel _).2.1 inside).mono opened |>.bind ?_
    rintro ⟨params, after⟩ read
    have come := opened.trans (readArguments_eq_ok_iff.1 read).reaches.1
    exact (blames_expectEnd after).mono come |>.bind fun _ _ => .ok _
  · split
    · exact .ok _
    · refine (blames_read _).mono begin |>.bind ?_
      rintro ⟨node, after⟩ read
      have come := begin.trans (read_eq_ok_iff.1 read).reaches.1
      exact (blames_readToEnd _ after).mono come |>.bind fun _ _ => .ok _

end Expression

/-! ## Contents of tags -/

namespace Construct

open Expression Remaining

theorem blames_readOutput (p : Position) (r : Remaining) : r.Blames (readOutput p r) := by
  refine (blames_read r).bind ?_
  rintro ⟨node, after⟩ read
  have come := (read_eq_ok_iff.1 read).reaches.1
  exact (blames_expectEnd after).mono come |>.bind fun _ _ => .ok _

theorem blames_readStatement (p : Position) (r : Remaining) : r.Blames (readStatement p r) := by
  have begin := reaches_skipBlanks r
  unfold readStatement
  simp only
  split
  · next inside slash =>
    have opened := begin.trans (reaches_of_take? (by decide) slash)
    refine (blames_readName inside).mono opened |>.bind ?_
    rintro ⟨name, after⟩ named
    have come := opened.trans (reaches_of_readName named)
    exact (blames_expectEnd after).mono come |>.bind fun _ _ => .ok _
  split
  · next inside hash =>
    have opened := begin.trans (reaches_of_take? (by decide) hash)
    refine (blames_readName inside).mono opened |>.bind ?_
    rintro ⟨name, after⟩ named
    have come := opened.trans (reaches_of_readName named)
    exact (blames_readParameters after).mono come |>.bind fun _ _ => .ok _
  · refine (blames_readName _).mono begin |>.bind ?_
    rintro ⟨name, after⟩ named
    have come := begin.trans (reaches_of_readName named)
    simp only
    split
    · exact (blames_expectEnd after).mono come |>.bind fun _ _ => .ok _
    · exact (blames_readParameters after).mono come |>.bind fun _ _ => .ok _

end Construct

end Templating
