import Templating.Proofs.Template.Grammar

/-!
# Terms in writing

A term is an expression as one would write it: a string in double quotes, an integer in decimal, a
constant, a path with its steps in brackets, or a call.  Reading what was written gives the term
back, whatever follows that does not prolong it.
-/

namespace Templating

/-! ## Trees without their positions -/

mutual

def Node.erase : Node → Node
  | .raw _ text => .raw .start text
  | .constant _ v => .constant .start v
  | .identifier _ path => .identifier .start path
  | .tag _ name params body orelse =>
    .tag .start name (eraseAll params) (eraseBranch body) (eraseBranch orelse)
  | .bare _ => .bare .start

def eraseAll : List Node → List Node
  | [] => []
  | node :: rest => node.erase :: eraseAll rest

def eraseBranch : Option (List Node) → Option (List Node)
  | none => none
  | some nodes => some (eraseAll nodes)

end

theorem Node.erase_tag (p : Position) (name : String) (params : List Node)
    (body orelse : Option (List Node)) :
    (Node.tag p name params body orelse).erase =
      .tag .start name (eraseAll params) (eraseBranch body) (eraseBranch orelse) := rfl

theorem eraseAll_append (xs ys : List Node) : eraseAll (xs ++ ys) = eraseAll xs ++ eraseAll ys := by
  induction xs with
  | nil => rfl
  | cons node xs ih => exact congrArg (node.erase :: ·) ih

/-! ## Terms -/

/-- A letter or an underscore, and then letters, digits and underscores. -/
def IsName (text : String) : Prop :=
  ∃ c cs, text.toList = c :: cs ∧ Expression.isNameStart c = true ∧
    cs.all Expression.isNamePart = true

structure Name where
  text : String
  isName : IsName text

/-- An integer of no more digits than are read. -/
structure Numeral where
  value : Int
  short : (Nat.toDigits 10 value.natAbs).length ≤ Number.digitLimit

inductive Keyword
  | true
  | false
  | null

def Keyword.text : Keyword → String
  | .true => "true"
  | .false => "false"
  | .null => "null"

def Keyword.value : Keyword → Value
  | .true => .bool Bool.true
  | .false => .bool Bool.false
  | .null => .null

inductive PathStep
  | key (name : String)
  | index (n : Numeral)

def PathStep.step : PathStep → Step
  | .key name => .key name
  | .index n => .index n.value

inductive Term
  | string (content : String)
  | integer (n : Numeral)
  | keyword (k : Keyword)
  | name (head : Name) (free : Expression.keyword? head.text = none)
  | path (head : Name) (first : PathStep) (others : List PathStep)
  | call (name : Name) (args : List Term)

mutual

def Term.node : Term → Node
  | .string content => .constant .start (.string content)
  | .integer n => .constant .start (.int n.value)
  | .keyword k => .constant .start k.value
  | .name head _ => .identifier .start [.key head.text]
  | .path head first others =>
    .identifier .start (.key head.text :: first.step :: others.map PathStep.step)
  | .call name args => .tag .start name.text (termNodes args) none none

def termNodes : List Term → List Node
  | [] => []
  | term :: rest => term.node :: termNodes rest

end

/-! ## Writing -/

/-- A quote and a backslash are written after a backslash. -/
def escape (c : Char) : List Char := if c = '"' ∨ c = '\\' then ['\\', c] else [c]

def quoted (content : String) : List Char := '"' :: (content.toList.flatMap escape ++ ['"'])

def Numeral.print (n : Numeral) : List Char :=
  if n.value < 0 then '-' :: Nat.toDigits 10 n.value.natAbs else Nat.toDigits 10 n.value.natAbs

def PathStep.print : PathStep → List Char
  | .key name => '[' :: (quoted name ++ [']'])
  | .index n => '[' :: (n.print ++ [']'])

mutual

def Term.print : Term → List Char
  | .string content => quoted content
  | .integer n => n.print
  | .keyword k => k.text.toList
  | .name head _ => head.text.toList
  | .path head first others => head.text.toList ++ (first.print ++ others.flatMap PathStep.print)
  | .call name args => name.text.toList ++ '(' :: (printList args ++ [')'])

def printList : List Term → List Char
  | [] => []
  | term :: rest => term.print ++ printOthers rest

def printOthers : List Term → List Char
  | [] => []
  | term :: rest => ',' :: ' ' :: (term.print ++ printOthers rest)

end

/-! ## Names -/

theorem Keyword.isName (k : Keyword) : IsName k.text := by
  cases k with
  | true => exact ⟨'t', ['r', 'u', 'e'], by decide, by decide, by decide⟩
  | false => exact ⟨'f', ['a', 'l', 's', 'e'], by decide, by decide, by decide⟩
  | null => exact ⟨'n', ['u', 'l', 'l'], by decide, by decide, by decide⟩

namespace Expression

open Remaining

theorem splitName?_append {name : String} (h : IsName name) {rest : List Char}
    (stop : ∀ c, rest.head? = some c → isNamePart c = false) :
    splitName? (name.toList ++ rest) = some (name, rest) := by
  obtain ⟨c, cs, hname, start, parts⟩ := h
  have whole : String.ofList (c :: cs) = name := by rw [← hname, String.ofList_toList]
  have taken : (cs ++ rest).takeWhile isNamePart = cs := by
    rw [List.takeWhile_append_of_pos (List.all_eq_true.1 parts)]
    cases rest with
    | nil => simp
    | cons d rest => simp [stop d rfl]
  have dropped : (cs ++ rest).dropWhile isNamePart = rest := by
    rw [List.dropWhile_append_of_pos (List.all_eq_true.1 parts)]
    cases rest with
    | nil => rfl
    | cons d rest => simp [stop d rfl]
  simp only [hname, List.cons_append, splitName?, start, if_true,
    List.span_eq_takeWhile_dropWhile, taken, dropped, whole]

theorem keyword?_eq_some_iff {name : String} {value : Value} :
    keyword? name = some value ↔ ∃ k : Keyword, k.text = name ∧ k.value = value := by
  constructor
  · intro h
    unfold keyword? at h
    split at h
    · cases h
      exact ⟨.true, rfl, rfl⟩
    · cases h
      exact ⟨.false, rfl, rfl⟩
    · cases h
      exact ⟨.null, rfl, rfl⟩
    · cases h
  · rintro ⟨k, rfl, rfl⟩
    cases k <;> rfl

/-! ## Numerals -/

theorem range_of_isDigit {c : Char} (h : c.isDigit = true) : 48 ≤ c.toNat ∧ c.toNat < 58 := by
  simp only [Char.isDigit, Bool.and_eq_true, decide_eq_true_eq, ge_iff_le,
    UInt32.le_iff_toNat_le] at h
  have code : c.toNat = c.val.toNat := rfl
  simp at h
  omega

theorem digitValue?_of_isDigit {c : Char} (h : c.isDigit = true) :
    Text.digitValue? c = some (c.toNat - 48) := by
  have range := range_of_isDigit h
  have first : (48 ≤ c.toNat && c.toNat < 48 + 10) = true := by
    simp only [Bool.and_eq_true, decide_eq_true_eq]
    omega
  have found : (Text.digitZeros.find? fun start => start ≤ c.toNat && c.toNat < start + 10) =
      some 48 := List.find?_cons_of_pos first
  rw [Text.digitValue?, found]
  rfl

theorem spanDigits_append {digits rest : List Char} (all : ∀ c ∈ digits, c.isDigit = true)
    (stop : ∀ c, rest.head? = some c → Text.digitValue? c = none) :
    Number.spanDigits (digits ++ rest) = (digits.map fun c => c.toNat - 48, rest) := by
  induction digits with
  | nil =>
      cases rest with
      | nil => rfl
      | cons c rest => simp [Number.spanDigits, stop c rfl]
  | cons d digits ih =>
      have digit := digitValue?_of_isDigit (all d List.mem_cons_self)
      have others := ih fun c member => all c (List.mem_cons_of_mem d member)
      simp [Number.spanDigits, digit, others]

theorem ofDigits_toDigits (n : Nat) :
    Number.ofDigits ((Nat.toDigits 10 n).map fun c => c.toNat - 48) = n := by
  have same := Nat.ofDigitChars_ten_toDigits (n := n)
  rw [Nat.ofDigitChars_eq_foldl] at same
  rw [Number.ofDigits, List.foldl_map]
  exact same

theorem splitSigned?_print (n : Numeral) {rest : List Char}
    (stop : ∀ c, rest.head? = some c → Text.digitValue? c = none) :
    ∃ negative digits, splitSigned? (n.print ++ rest) =
        some (negative, digits, n.print.length, rest) ∧
      readIntegerOf negative digits = .ok n.value := by
  have decimal : ∀ c ∈ Nat.toDigits 10 n.value.natAbs, c.isDigit = true :=
    fun c member => Nat.isDigit_of_mem_toDigits (by decide) (by decide) member
  have span := spanDigits_append decimal stop
  have nonempty : ((Nat.toDigits 10 n.value.natAbs).map fun c => c.toNat - 48).isEmpty = false := by
    simp [List.isEmpty_eq_false_iff]
  have short : ¬ Number.digitLimit <
      ((Nat.toDigits 10 n.value.natAbs).map fun c => c.toNat - 48).length := by
    have bound := n.short
    rw [List.length_map]
    omega
  have read (negative : Bool) (same : Binary64.signed negative n.value.natAbs = n.value) :
      readIntegerOf negative ((Nat.toDigits 10 n.value.natAbs).map fun c => c.toNat - 48) =
        .ok n.value := by
    simp only [readIntegerOf, Number.integerOf, if_neg short, ofDigits_toDigits, same]
  unfold Numeral.print
  by_cases negative : n.value < 0
  · refine ⟨true, _, ?_, read true ?_⟩
    · rw [if_pos negative, List.cons_append]
      simp only [splitSigned?, span, nonempty, Bool.false_eq_true, if_false, List.length_map,
        List.length_cons]
    · simp only [Binary64.signed, if_true]
      omega
  · refine ⟨false, _, ?_, read false ?_⟩
    · rw [if_neg negative]
      unfold splitSigned?
      split
      · next tail heq =>
        have sign : '-' ∈ Nat.toDigits 10 n.value.natAbs := by
          obtain ⟨c, cs, hdigits⟩ := List.exists_cons_of_ne_nil
            (Nat.toDigits_ne_nil (n := n.value.natAbs) (b := 10))
          rw [hdigits, List.cons_append] at heq
          cases heq
          rw [hdigits]
          exact List.mem_cons_self
        exact absurd (decimal '-' sign) (by decide)
      · simp only [span, nonempty, Bool.false_eq_true, if_false, List.length_map]
    · simp only [Binary64.signed, Bool.false_eq_true, if_false]
      omega

/-- What may follow a term so that it does not go on. -/
def Follow (rest : List Char) : Prop :=
  ∀ c, rest.head? = some c → c = ' ' ∨ c = ',' ∨ c = ')'

theorem follow_cons {c : Char} (h : c = ' ' ∨ c = ',' ∨ c = ')') (rest : List Char) :
    Follow (c :: rest) := by
  intro d hd
  cases hd
  exact h

theorem Follow.isNamePart {rest : List Char} (h : Follow rest) :
    ∀ c, rest.head? = some c → isNamePart c = false := by
  intro c hc
  rcases h c hc with rfl | rfl | rfl <;> decide

theorem Follow.digitValue? {rest : List Char} (h : Follow rest) :
    ∀ c, rest.head? = some c → Text.digitValue? c = none := by
  intro c hc
  rcases h c hc with rfl | rfl | rfl <;> decide

theorem readNumber?_print (n : Numeral) {rest : List Char} (follow : Follow rest) (p : Position) :
    readNumber? ⟨n.print ++ rest, p⟩ =
      some (.ok (.int n.value, ⟨rest, p.right n.print.length⟩)) := by
  obtain ⟨negative, digits, signed, read⟩ := splitSigned?_print n follow.digitValue?
  have fraction : splitFraction rest = ([], rest) := by
    unfold splitFraction
    split
    · next tail =>
      rcases follow '.' rfl with h | h | h <;> cases h
    · rfl
  have exponent : splitExponent? rest = none := by
    cases rest with
    | nil => rfl
    | cons c tail =>
        have other : ¬ (c = 'e' ∨ c = 'E') := by
          rcases follow c rfl with rfl | rfl | rfl <;> decide
        simp only [splitExponent?, if_neg other]
  simp only [readNumber?, signed, Option.map_some, fraction, exponent, List.isEmpty_nil, if_true,
    read]
  rfl

/-! ## Strings -/

theorem splitQuoted?_escape (content rest : List Char) (p : Position) :
    ∃ q, splitQuoted? '"' p (content.flatMap escape ++ '"' :: rest) =
      some (content, ⟨rest, q⟩) := by
  induction content generalizing p with
  | nil => exact ⟨p.right 1, by simp [splitQuoted?]⟩
  | cons c content ih =>
      by_cases special : c = '"' ∨ c = '\\'
      · obtain ⟨q, read⟩ := ih ((p.right 1).afterChar c)
        refine ⟨q, ?_⟩
        have same : unescape c = [c] := by rcases special with rfl | rfl <;> rfl
        simp [escape, special, splitQuoted?, read, same]
      · obtain ⟨q, read⟩ := ih (p.afterChar c)
        refine ⟨q, ?_⟩
        have plain : c ≠ '"' ∧ c ≠ '\\' := not_or.1 special
        simp [escape, plain, splitQuoted?, read]

theorem readString_quoted (content : String) (rest : List Char) (p : Position) :
    ∃ q, readString ⟨quoted content ++ rest, p⟩ '"' (content.toList.flatMap escape ++ '"' :: rest) =
      .ok (content, ⟨rest, q⟩) := by
  obtain ⟨q, split⟩ := splitQuoted?_escape content.toList rest (p.right 1)
  refine ⟨q, ?_⟩
  simp only [readString, split, String.ofList_toList]

theorem quoted_append (content : String) (rest : List Char) :
    quoted content ++ rest = '"' :: (content.toList.flatMap escape ++ '"' :: rest) := by
  simp [quoted]

end Expression

end Templating
