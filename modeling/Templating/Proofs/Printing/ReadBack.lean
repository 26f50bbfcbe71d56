import Templating.Proofs.Printing.Term

/-!
# Terms are read back

Whatever may follow a term, reading what was written gives the expression that the term stands for
and leaves what follows.  Lists of terms are read back likewise, both in the parentheses of a call
and as the parameters of a tag.
-/

namespace Templating

namespace Expression

open Remaining

/-! ## Steps -/

def inside : PathStep → List Char
  | .key name => quoted name
  | .index n => n.print

theorem print_eq_inside (s : PathStep) : s.print = '[' :: (inside s ++ [']']) := by
  cases s <;> rfl

theorem isBlank_of_range {c : Char} (low : 33 ≤ c.toNat) (high : c.toNat < 128) :
    Text.isBlank c = false := by
  simp only [Text.isBlank, Bool.or_eq_false_iff, Bool.and_eq_false_imp, decide_eq_true_eq,
    decide_eq_false_iff_not, beq_eq_false_iff_ne]
  omega

/-- What a numeral begins with: a sign or a digit. -/
theorem exists_head_numeral (n : Numeral) :
    ∃ c cs, n.print = c :: cs ∧ (c = '-' ∨ c.isDigit = true) := by
  unfold Numeral.print
  split
  · exact ⟨'-', _, rfl, .inl rfl⟩
  · obtain ⟨c, cs, digits⟩ := List.exists_cons_of_ne_nil
      (Nat.toDigits_ne_nil (n := n.value.natAbs) (b := 10))
    refine ⟨c, cs, digits, .inr ?_⟩
    exact Nat.isDigit_of_mem_toDigits (b := 10) (n := n.value.natAbs) (by decide) (by decide)
      (by rw [digits]; exact List.mem_cons_self)

theorem readInside_print (s : PathStep) (rest : List Char) (p : Position) :
    ∃ q, readInside ⟨inside s ++ ']' :: rest, p⟩ = .ok (s.step, ⟨']' :: rest, q⟩) := by
  cases s with
  | key name =>
      obtain ⟨q, read⟩ := readString_quoted name (']' :: rest) p
      refine ⟨q, ?_⟩
      rw [inside, quoted_append] at *
      simp only [readInside, show isQuote '"' = true by decide, if_true, read]
      rfl
  | index n =>
      have stop : ∀ c, (']' :: rest).head? = some c → Text.digitValue? c = none := by
        rintro c ⟨⟩
        decide
      obtain ⟨negative, digits, signed, read⟩ := splitSigned?_print n stop
      refine ⟨p.right n.print.length, ?_⟩
      obtain ⟨c, cs, head, -⟩ := exists_head_numeral n
      have plain : isQuote c = false := by
        rw [head, List.cons_append] at signed
        exact isQuote_of_splitSigned? signed
      rw [inside]
      rw [head, List.cons_append] at signed ⊢
      simp only [readInside, plain, Bool.false_eq_true, if_false, signed, read]
      rfl

theorem skipBlanks_inside (s : PathStep) (rest : List Char) (p : Position) :
    skipBlanks ⟨inside s ++ rest, p⟩ = ⟨inside s ++ rest, p⟩ := by
  cases s with
  | key name => exact skipBlanks_cons (by decide) p _
  | index n =>
      obtain ⟨c, cs, head, first⟩ := exists_head_numeral n
      have plain : Text.isBlank c = false := by
        rcases first with rfl | digit
        · decide
        · have range := range_of_isDigit digit
          exact isBlank_of_range (by omega) (by omega)
      rw [inside, head, List.cons_append]
      exact skipBlanks_cons plain p _

theorem readBracketStep_print (s : PathStep) (rest : List Char) (p : Position) :
    ∃ q, readBracketStep ⟨inside s ++ ']' :: rest, p⟩ = .ok (s.step, ⟨rest, q⟩) := by
  obtain ⟨q, read⟩ := readInside_print s rest p
  refine ⟨q.right 1, ?_⟩
  rw [readBracketStep_eq, skipBlanks_inside, bind_eq_ok_iff]
  refine ⟨_, read, closeStep_eq_ok_iff.2 ⟨rfl, ?_⟩⟩
  rw [skipBlanks_cons (by decide)]
  exact take?_cons ']' rest q

theorem readSteps_print (steps : List PathStep) {rest : List Char} (follow : Follow rest)
    (p : Position) {fuel : Nat} (enough : steps.length ≤ fuel) :
    ∃ q, readSteps fuel ⟨steps.flatMap PathStep.print ++ rest, p⟩ =
      .ok (steps.map PathStep.step, ⟨rest, q⟩) := by
  induction steps generalizing p fuel with
  | nil =>
      refine ⟨p, ?_⟩
      cases fuel with
      | zero => rfl
      | succ fuel =>
          rw [List.flatMap_nil, List.nil_append, readSteps]
          split
          · next tail heq =>
            rcases follow '.' (by rw [show rest = '.' :: tail from heq]; rfl) with h | h | h <;>
              cases h
          · next tail heq =>
            rcases follow '[' (by rw [show rest = '[' :: tail from heq]; rfl) with h | h | h <;>
              cases h
          · rfl
  | cons s steps ih =>
      cases fuel with
      | zero => simp at enough
      | succ fuel =>
          obtain ⟨mid, first⟩ :=
            readBracketStep_print s (steps.flatMap PathStep.print ++ rest) (p.right 1)
          obtain ⟨q, others⟩ := ih mid (Nat.le_of_succ_le_succ enough)
          refine ⟨q, ?_⟩
          have whole : (s :: steps).flatMap PathStep.print ++ rest =
              '[' :: (inside s ++ ']' :: (steps.flatMap PathStep.print ++ rest)) := by
            simp [List.flatMap_cons, print_eq_inside]
          rw [whole, readSteps]
          simp only [jump, first, bind, Except.bind, others]
          rfl

/-! ## Terms -/

theorem head_name (name : Name) :
    ∃ c cs, name.text.toList = c :: cs ∧ 58 ≤ c.toNat ∧ c.toNat < 128 := by
  obtain ⟨c, cs, hname, start, -⟩ := name.isName
  exact ⟨c, cs, hname, range_of_isNameStart start⟩

/-- A term begins with no white space and no parenthesis. -/
theorem exists_head_term (t : Term) :
    ∃ c cs, t.print = c :: cs ∧ Text.isBlank c = false ∧ c ≠ '(' ∧ c ≠ ')' := by
  have named (name : Name) (rest : List Char) :
      ∃ c cs, name.text.toList ++ rest = c :: cs ∧ Text.isBlank c = false ∧ c ≠ '(' ∧
        c ≠ ')' := by
    obtain ⟨c, cs, hname, low, high⟩ := head_name name
    refine ⟨c, cs ++ rest, ?_, isBlank_of_range (by omega) high, ?_, ?_⟩
    · rw [hname, List.cons_append]
    · rintro rfl
      exact absurd low (by decide)
    · rintro rfl
      exact absurd low (by decide)
  cases t with
  | string content => exact ⟨'"', _, by rw [Term.print, quoted], by decide, by decide, by decide⟩
  | integer n =>
      obtain ⟨c, cs, head, first⟩ := exists_head_numeral n
      refine ⟨c, cs, by rw [Term.print, head], ?_⟩
      rcases first with rfl | digit
      · decide
      · have range := range_of_isDigit digit
        refine ⟨isBlank_of_range (by omega) (by omega), ?_, ?_⟩
        · rintro rfl
          exact absurd digit (by decide)
        · rintro rfl
          exact absurd digit (by decide)
  | keyword k =>
      cases k with
      | true => exact ⟨'t', _, rfl, by decide, by decide, by decide⟩
      | false => exact ⟨'f', _, rfl, by decide, by decide, by decide⟩
      | null => exact ⟨'n', _, rfl, by decide, by decide, by decide⟩
  | name head free =>
      rw [Term.print, ← List.append_nil head.text.toList]
      exact named head []
  | path head first others =>
      rw [Term.print]
      exact named head _
  | call name args =>
      rw [Term.print]
      exact named name _

theorem skipBlanks_term (t : Term) (rest : List Char) (p : Position) :
    skipBlanks ⟨t.print ++ rest, p⟩ = ⟨t.print ++ rest, p⟩ := by
  obtain ⟨c, cs, head, plain, -⟩ := exists_head_term t
  rw [head, List.cons_append]
  exact skipBlanks_cons plain p _

theorem length_le_print (steps : List PathStep) :
    steps.length ≤ (steps.flatMap PathStep.print).length := by
  induction steps with
  | nil => exact Nat.le_refl 0
  | cons s steps ih =>
      simp only [List.flatMap_cons, List.length_append, List.length_cons, print_eq_inside]
      omega

/-- A name with steps, or a name that is no keyword, is a path. -/
theorem readPath_steps (start : Position) {name : String} (steps : List PathStep)
    (path : keyword? name = none ∨ steps ≠ []) {rest : List Char} (follow : Follow rest)
    (p : Position) :
    ∃ q, readPath start name ⟨steps.flatMap PathStep.print ++ rest, p⟩ =
      .ok (.identifier start (.key name :: steps.map PathStep.step), ⟨rest, q⟩) := by
  have enough : steps.length ≤ (steps.flatMap PathStep.print ++ rest).length := by
    rw [List.length_append]
    exact Nat.le_trans (length_le_print steps) (Nat.le_add_right _ _)
  obtain ⟨q, read⟩ := readSteps_print steps follow p enough
  have goOn : readPath.follow start name ⟨steps.flatMap PathStep.print ++ rest, p⟩ =
      .ok (.identifier start (.key name :: steps.map PathStep.step), ⟨rest, q⟩) := by
    simp only [readPath.follow, read, bind, Except.bind]
    rfl
  refine ⟨q, ?_⟩
  unfold readPath
  cases keyword : keyword? name with
  | none => exact goOn
  | some value =>
      obtain ⟨s, others, rfl⟩ : ∃ s others, steps = s :: others := by
        rcases path with free | nonempty
        · rw [keyword] at free
          cases free
        · exact List.exists_cons_of_ne_nil nonempty
      have bracket : (s :: others).flatMap PathStep.print ++ rest =
          '[' :: (inside s ++ ']' :: (others.flatMap PathStep.print ++ rest)) := by
        simp [List.flatMap_cons, print_eq_inside]
      rw [bracket] at goOn ⊢
      simp only [or_true, if_true]
      exact goOn

/-- A keyword alone is its constant. -/
theorem readPath_keyword (start : Position) (k : Keyword) {rest : List Char}
    (follow : Follow rest) (p : Position) :
    readPath start k.text ⟨rest, p⟩ = .ok (.constant start k.value, ⟨rest, p⟩) := by
  unfold readPath
  rw [keyword?_eq_some_iff.2 ⟨k, rfl, rfl⟩]
  cases rest with
  | nil => rfl
  | cons c tail =>
      have neither : ¬ (c = '.' ∨ c = '[') := by
        rcases follow c rfl with rfl | rfl | rfl <;> decide
      simp only [if_neg neither]

/-- No call begins where a term ends or a step begins. -/
theorem take?_paren (steps : List PathStep) {rest : List Char} (follow : Follow rest)
    (p : Position) : take? ⟨steps.flatMap PathStep.print ++ rest, p⟩ '(' = none := by
  cases steps with
  | nil =>
      cases rest with
      | nil => rfl
      | cons c tail =>
          have other : c ≠ '(' := by rcases follow c rfl with rfl | rfl | rfl <;> decide
          exact take?_of_ne other tail p
  | cons s steps =>
      rw [List.flatMap_cons, print_eq_inside]
      exact take?_of_ne (by decide) _ p

theorem isNamePart_of_steps (steps : List PathStep) {rest : List Char} (follow : Follow rest) :
    ∀ c, (steps.flatMap PathStep.print ++ rest).head? = some c → isNamePart c = false := by
  intro c hc
  cases steps with
  | nil => exact follow.isNamePart c hc
  | cons s steps =>
      rw [List.flatMap_cons, print_eq_inside] at hc
      cases hc
      decide

theorem split_name {name : String} (isName : IsName name) {rest : List Char}
    (stop : ∀ c, rest.head? = some c → isNamePart c = false) (p : Position) :
    (skipBlanks ⟨name.toList ++ rest, p⟩).position = p ∧
      splitName? (skipBlanks ⟨name.toList ++ rest, p⟩).chars = some (name, rest) ∧
      (skipBlanks ⟨name.toList ++ rest, p⟩).jump name.length rest =
        ⟨rest, p.right name.length⟩ := by
  have split := splitName?_append isName stop
  obtain ⟨c, cs, hname, start, -⟩ := isName
  have range := range_of_isNameStart start
  have still : skipBlanks ⟨name.toList ++ rest, p⟩ = ⟨name.toList ++ rest, p⟩ := by
    rw [hname, List.cons_append]
    exact skipBlanks_cons (isBlank_of_range (by omega) range.2) p _
  rw [still]
  exact ⟨rfl, split, rfl⟩

theorem reads_path (name : Name) (steps : List PathStep)
    (path : keyword? name.text = none ∨ steps ≠ []) {rest : List Char} (follow : Follow rest)
    (p : Position) :
    ∃ node q, Reads ⟨name.text.toList ++ (steps.flatMap PathStep.print ++ rest), p⟩
      (.expression node) ⟨rest, q⟩ ∧
      node.erase = .identifier .start (.key name.text :: steps.map PathStep.step) := by
  obtain ⟨place, split, after⟩ := split_name name.isName (isNamePart_of_steps steps follow) p
  obtain ⟨q, read⟩ := readPath_steps p steps path follow (p.right name.text.length)
  refine ⟨.identifier p _, q, .path split ?_ ?_, rfl⟩
  · rw [after]
    exact take?_paren steps follow _
  · rw [place, after]
    exact read

theorem reads_keyword (k : Keyword) {rest : List Char} (follow : Follow rest) (p : Position) :
    ∃ node q, Reads ⟨k.text.toList ++ rest, p⟩ (.expression node) ⟨rest, q⟩ ∧
      node.erase = .constant .start k.value := by
  obtain ⟨place, split, after⟩ := split_name k.isName follow.isNamePart p
  refine ⟨.constant p k.value, p.right k.text.length, .path split ?_ ?_, rfl⟩
  · rw [after]
    exact take?_paren [] follow _
  · rw [place, after]
    exact readPath_keyword p k follow _

theorem reads_integer (n : Numeral) {rest : List Char} (follow : Follow rest) (p : Position) :
    ∃ node q, Reads ⟨n.print ++ rest, p⟩ (.expression node) ⟨rest, q⟩ ∧
      node.erase = .constant .start (.int n.value) := by
  have still : skipBlanks ⟨n.print ++ rest, p⟩ = ⟨n.print ++ rest, p⟩ :=
    skipBlanks_inside (.index n) rest p
  have read := readNumber?_print n follow p
  rw [← still] at read
  exact ⟨_, _, .number read, rfl⟩

theorem reads_string (content : String) (rest : List Char) (p : Position) :
    ∃ node q, Reads ⟨quoted content ++ rest, p⟩ (.expression node) ⟨rest, q⟩ ∧
      node.erase = .constant .start (.string content) := by
  have still : skipBlanks ⟨quoted content ++ rest, p⟩ = ⟨quoted content ++ rest, p⟩ :=
    skipBlanks_cons (by decide) p _
  obtain ⟨q, read⟩ := readString_quoted content rest p
  rw [← still] at read
  refine ⟨_, q, .string ?_ (by decide) read, rfl⟩
  rw [still]
  exact quoted_append content rest

theorem reads_arguments {args : List Term} {rest : List Char} {p : Position}
    (list : args ≠ [] → ∃ params q,
      Reads ⟨printList args ++ ')' :: rest, p⟩ (.list params) ⟨rest, q⟩ ∧
        eraseAll params = termNodes args) :
    ∃ params q, Reads ⟨printList args ++ ')' :: rest, p⟩ (.arguments params) ⟨rest, q⟩ ∧
      eraseAll params = termNodes args := by
  cases args with
  | nil =>
      refine ⟨[], p.right 1, .noArguments ?_, rfl⟩
      rw [printList, List.nil_append, skipBlanks_cons (by decide)]
      exact take?_cons ')' rest p
  | cons t args =>
      obtain ⟨params, q, read, same⟩ := list (List.cons_ne_nil t args)
      obtain ⟨c, cs, head, -, -, other⟩ := exists_head_term t
      have still : skipBlanks ⟨printList (t :: args) ++ ')' :: rest, p⟩ =
          ⟨printList (t :: args) ++ ')' :: rest, p⟩ := by
        rw [printList, List.append_assoc]
        exact skipBlanks_term t _ p
      refine ⟨params, q, .someArguments ?_ ?_, same⟩
      · rw [still, printList, List.append_assoc, head]
        exact take?_of_ne other _ p
      · rw [still]
        exact read

mutual

/-- A term is read back in front of all that does not prolong it. -/
theorem reads_term (t : Term) {rest : List Char} (follow : Follow rest) (p : Position) :
    ∃ node q, Reads ⟨t.print ++ rest, p⟩ (.expression node) ⟨rest, q⟩ ∧ node.erase = t.node := by
  cases t with
  | string content =>
      exact reads_string content rest p
  | integer n =>
      exact reads_integer n follow p
  | keyword k =>
      exact reads_keyword k follow p
  | name head free =>
      exact reads_path head [] (.inl free) follow p
  | path head first others =>
      rw [Term.print, Term.node, List.append_assoc]
      exact reads_path head (first :: others) (.inr (List.cons_ne_nil first others)) follow p
  | call name args =>
      have stop : ∀ c, ('(' :: (printList args ++ ')' :: rest)).head? = some c →
          isNamePart c = false := by
        rintro c ⟨⟩
        decide
      obtain ⟨place, split, after⟩ := split_name name.isName stop p
      obtain ⟨params, q, read, same⟩ := reads_arguments
        (reads_list args rest ((p.right name.text.length).right 1))
      rw [Term.print, Term.node, List.append_assoc, List.cons_append, List.append_assoc,
        List.singleton_append]
      refine ⟨_, q, .call split ?_ read, ?_⟩
      · rw [after]
        exact take?_cons '(' _ _
      · rw [place, Node.erase, same, eraseBranch]

theorem reads_list (terms : List Term) (rest : List Char) (p : Position) (nonempty : terms ≠ []) :
    ∃ params q, Reads ⟨printList terms ++ ')' :: rest, p⟩ (.list params) ⟨rest, q⟩ ∧
      eraseAll params = termNodes terms := by
  cases terms with
  | nil => exact absurd rfl nonempty
  | cons t others =>
      cases others with
      | nil =>
          obtain ⟨node, mid, read, same⟩ := reads_term t (follow_cons (.inr (.inr rfl)) rest) p
          rw [printList, printOthers, List.append_nil]
          refine ⟨[node], mid.right 1, .last read ?_, by simp [eraseAll, termNodes, same]⟩
          rw [skipBlanks_cons (by decide)]
          exact take?_cons ')' rest mid
      | cons u others =>
          obtain ⟨node, mid, read, same⟩ := reads_term t
            (follow_cons (.inr (.inl rfl)) (' ' :: (printList (u :: others) ++ ')' :: rest))) p
          obtain ⟨nodes, q, reads, sames⟩ :=
            reads_list (u :: others) rest ((mid.right 1).right 1) (List.cons_ne_nil u others)
          have whole : printList (t :: u :: others) ++ ')' :: rest =
              t.print ++ ',' :: ' ' :: (printList (u :: others) ++ ')' :: rest) := by
            simp [printList, printOthers]
          have further := reads.of_skipBlanks
            (skipBlanks_blank (by decide : Text.isBlank ' ' = true) (mid.right 1)
              (printList (u :: others) ++ ')' :: rest))
          rw [whole]
          refine ⟨node :: nodes, q, .more read ?_ ?_ further, ?_⟩
          · rw [skipBlanks_cons (by decide)]
            exact take?_of_ne (by decide) _ mid
          · rw [skipBlanks_cons (by decide)]
            exact take?_cons ',' _ mid
          · simp only [eraseAll, same, sames, termNodes]

end

/-! ## Parameters of a tag -/

/-- What stands between the name of a tag and its end. -/
def parameterText : List Term → List Char
  | [] => [' ']
  | terms => ' ' :: (printList terms ++ [' '])

theorem atEnd_blank (p : Position) : AtEnd ⟨[' '], p⟩ := rfl

theorem follow_printOthers (others : List Term) : Follow (printOthers others ++ [' ']) := by
  cases others with
  | nil => exact follow_cons (.inl rfl) []
  | cons u others => exact follow_cons (.inr (.inl rfl)) _

theorem readsToEnd_printOthers (terms : List Term) (p : Position) :
    ∃ params, ReadsToEnd ⟨printOthers terms ++ [' '], p⟩ params ∧
      eraseAll params = termNodes terms := by
  induction terms generalizing p with
  | nil => exact ⟨[], .nil (atEnd_blank p), rfl⟩
  | cons t others ih =>
      obtain ⟨node, mid, read, same⟩ :=
        reads_term t (follow_printOthers others) ((p.right 1).right 1)
      obtain ⟨nodes, reads, sames⟩ := ih mid
      have further := read.of_skipBlanks (skipBlanks_blank (by decide : Text.isBlank ' ' = true)
        (p.right 1) (t.print ++ (printOthers others ++ [' '])))
      rw [printOthers, List.cons_append, List.cons_append, List.append_assoc]
      have erased : eraseAll (node :: nodes) = termNodes (t :: others) := by
        simp only [eraseAll, same, sames, termNodes]
      refine ⟨node :: nodes, .cons ?_ further reads, erased⟩
      rw [skipBlanks_cons (by decide)]
      exact take?_cons ',' _ p

theorem parameters_parameterText (terms : List Term) (p : Position) :
    ∃ params, Parameters ⟨parameterText terms, p⟩ params ∧ eraseAll params = termNodes terms := by
  cases terms with
  | nil => exact ⟨[], .none (atEnd_blank p), rfl⟩
  | cons t others =>
      obtain ⟨node, mid, read, same⟩ := reads_term t (follow_printOthers others) (p.right 1)
      obtain ⟨nodes, reads, sames⟩ := readsToEnd_printOthers others mid
      obtain ⟨c, cs, head, -, other, -⟩ := exists_head_term t
      have still : skipBlanks ⟨parameterText (t :: others), p⟩ =
          ⟨t.print ++ (printOthers others ++ [' ']), p.right 1⟩ := by
        show skipBlanks ⟨' ' :: (printList (t :: others) ++ [' ']), p⟩ = _
        rw [skipBlanks_blank (by decide), printList, List.append_assoc]
        exact skipBlanks_term t _ _
      refine ⟨node :: nodes, .listed ?_ ?_ reads, by simp only [eraseAll, same, sames, termNodes]⟩
      · rw [still, head]
        exact take?_of_ne other _ _
      · rw [still]
        exact read

end Expression

end Templating
