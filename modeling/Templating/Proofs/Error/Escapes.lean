import Templating.Proofs.Error.Colour
import Templating.Proofs.Text.Lines

/-!
# Messages without escapes

The message of an error holds the texts that the error is made of, and otherwise words, numbers and
quoted texts, none of which has an escape in it.
-/

namespace Templating

/-! ## Texts without an escape -/

theorem escape_not_mem_toDigits (n : Nat) : '\x1b' ∉ Nat.toDigits 10 n := fun escape => by
  cases Nat.isDigit_of_mem_toDigits (by decide) (by decide) escape

theorem escapeFree_natural (n : Nat) : EscapeFree (toString n) := by
  change '\x1b' ∉ n.repr.toList
  simp [Nat.repr, escape_not_mem_toDigits]

theorem escapeFree_number (number : Int) : EscapeFree (toString number) := by
  change '\x1b' ∉ number.repr.toList
  rw [Int.repr_eq_if]
  split <;> simp [escape_not_mem_toDigits]

namespace Text

theorem escapeFree_padLeft {text : String} (h : EscapeFree text) (width : Nat) :
    EscapeFree (padLeft width text) := by
  rw [padLeft, escapeFree_append]
  exact ⟨by simp [EscapeFree], h⟩

theorem mem_of_mem_linesFrom {line text found : List Char} (h : found ∈ linesFrom line text)
    {c : Char} (inside : c ∈ found) : c ∈ line ∨ c ∈ text := by
  fun_induction linesFrom line text with
  | case1 => cases h
  | case2 line =>
      rw [List.mem_singleton.1 h, List.mem_reverse] at inside
      exact .inl inside
  | case3 line rest ih | case4 line _ rest _ _ ih =>
      rcases List.mem_cons.1 h with rfl | later
      · exact .inl (List.mem_reverse.1 inside)
      · have := ih later
        simp_all
  | case5 line c rest _ _ ih =>
      simpa [or_assoc, or_left_comm] using ih h

theorem escapeFree_of_mem_lines {text line : String} (h : EscapeFree text)
    (inside : line ∈ lines text) : EscapeFree line := by
  obtain ⟨found, member, rfl⟩ := List.mem_map.1 inside
  intro escape
  rw [String.toList_ofList] at escape
  rcases mem_of_mem_linesFrom member escape with none_ | own
  · cases none_
  · exact h own

theorem escape_not_mem_hexText (width n : Nat) : '\x1b' ∉ hexText width n := by
  have digit : ∀ d < 16, hexDigit d ≠ '\x1b' := by decide
  induction width generalizing n with
  | zero => exact List.not_mem_nil
  | succ width ih =>
      rw [hexText, List.mem_append, List.mem_singleton, not_or]
      exact ⟨ih _, Ne.symm (digit _ (Nat.mod_lt _ (by decide)))⟩

/-- Whatever is quoted, the quoted text has no escape in it. -/
theorem escapeFree_literal (text : String) : EscapeFree (literal text) := by
  have hex := escape_not_mem_hexText
  have quote : '\x1b' ≠ literalQuote text.toList := by
    unfold literalQuote
    split <;> decide
  have inside (c : Char) : '\x1b' ∉ literalChar (literalQuote text.toList) c := by
    unfold literalChar
    split
    · next special =>
      rcases special with rfl | rfl <;> simp [quote]
    split
    · decide
    split
    · decide
    split
    · decide
    split
    · next printable =>
      rw [List.mem_singleton]
      rintro rfl
      cases printable
    split
    · simp [hex]
    split <;> simp [hex]
  simp [EscapeFree, literal, quote, inside]

end Text

namespace Snippet

theorem escapeFree_caret (column : Int) : EscapeFree (caret column) := by
  simp [EscapeFree, caret]

theorem mem_of_mem_numbered {first : Int} {lines : List String} {entry : Int × String}
    (h : entry ∈ numbered first lines) : entry.2 ∈ lines := by
  induction lines generalizing first with
  | nil => cases h
  | cons line lines ih =>
      rcases List.mem_cons.1 h with rfl | later
      · exact List.mem_cons_self
      · exact List.mem_cons_of_mem _ (ih later)

end Snippet

/-! ## The texts that an error is made of -/

def SyntaxProblem.texts : SyntaxProblem → List String
  | .unclosedBlock name | .secondElse name | .closeWithoutOpen name => [name]
  | .closeOfOther name openName _ => [name, openName]
  | .leftover text => [text]
  | .nameExpected found | .listEndExpected found => found.toList.map Char.toString
  | .commaExpected found | .expressionUnexpected found => [found.toString]
  | .other message _ => [message]
  | _ => []

def ContractProblem.texts : ContractProblem → List String
  | .parameterCount tag .. | .bodyRequired tag | .bodyRefused tag => [tag]
  | .other message => [message]

def RuntimeProblem.texts : RuntimeProblem → List String
  | .depthExceeded _ label => [label]
  | .other message => [message]

def EncodingProblem.texts : EncodingProblem → List String
  | .circular | .tooDeep => []
  | .keyNotText shown => [shown]
  | .unsupported found => [found]
  | .other message => [message]

def Fault.texts : Fault → List String
  | .keyNotText found | .tagNameInvalid found | .notHashable found => [found]
  | .tagInvalid name found => [name, found]
  | .tagMissing name => [name]
  | .raised _ message => [message]
  | _ => []

def SyntaxError.texts (error : SyntaxError) : List String :=
  error.problem.texts ++ error.file.toList ++ error.source.toList

def Site.texts (site : Site) : List String :=
  site.template.toList ++ site.suggestion.toList ++ site.chain.map Prod.fst

/-- All texts that an error and its causes are made of. -/
def Error.texts : Error → List String
  | .fault f => f.texts
  | .plain message _ => [message]
  | .notFound path => [path]
  | .malformed error => error.texts
  | .encoding problem path => problem.texts ++ [path]
  | .encodingFailed cause path => cause.texts ++ [path]
  | .runtime problem site => problem.texts ++ site.texts
  | .contract problem site => problem.texts ++ site.texts
  | .unknownTag name available site => name :: available ++ site.texts
  | .tagFailed name cause site => name :: cause.texts ++ site.texts

/-! ## Messages -/

theorem Kind.escapeFree_name (kind : Kind) : EscapeFree kind.name := by
  cases kind <;> exact .literal rfl

theorem Delimiter.escapeFree_opener (d : Delimiter) : EscapeFree d.opener := by
  cases d <;> exact .literal rfl

theorem Delimiter.escapeFree_closer (d : Delimiter) : EscapeFree d.closer := by
  cases d <;> exact .literal rfl

theorem Code.escapeFree_text (code : Code) : EscapeFree code.text := by
  cases code <;> exact .literal rfl

theorem Error.escapeFree_className (e : Error) : EscapeFree e.className := by
  cases e with
  | fault f =>
      have names (kind : FaultClass) : EscapeFree kind.name := by cases kind <;> exact .literal rfl
      exact names f.kind
  | _ => exact .literal rfl

theorem Fault.escapeFree_message (f : Fault) (h : ∀ text ∈ f.texts, EscapeFree text) :
    EscapeFree f.message := by
  delta message
  cases f with
  | integerTextTooLong digits =>
      exact .append (.append₃ (.literal rfl) (escapeFree_natural _) (.literal rfl))
        (.append₃ (.literal rfl) (escapeFree_natural digits) (.literal rfl))
  | integerTooLong =>
      exact .append (.append₃ (.literal rfl) (escapeFree_natural _) (.literal rfl)) (.literal rfl)
  | keyNotText found | tagNameInvalid found =>
      exact .append (.literal rfl) (h found List.mem_cons_self)
  | notHashable found => exact .append₃ (.literal rfl) (h found List.mem_cons_self) (.literal rfl)
  | notIterable kind | notCountable kind | notJoinable kind =>
      exact .append₃ (.literal rfl) kind.escapeFree_name (.literal rfl)
  | notTimestamp kind => exact .append (.literal rfl) kind.escapeFree_name
  | yearBeyondCalendar year => exact .append₃ (.literal rfl) (escapeFree_number year) (.literal rfl)
  | cacheLimit limit => exact .append (.literal rfl) (escapeFree_number limit)
  | tagInvalid name found =>
      have named : EscapeFree name := h name List.mem_cons_self
      have found := h found (List.mem_cons_of_mem name List.mem_cons_self)
      exact .append (.append₃ (.literal rfl) named (.literal rfl)) found
  | tagMissing name => exact Text.escapeFree_literal name
  | raised kind message => exact h message List.mem_cons_self
  | _ => exact .literal rfl

theorem SyntaxProblem.escapeFree_shown {found : Option Char}
    (h : ∀ text ∈ found.toList.map Char.toString, EscapeFree text) :
    EscapeFree (message.shown found) := by
  cases found with
  | none => exact .literal rfl
  | some c => exact h c.toString (by simp)

theorem SyntaxProblem.escapeFree_message (problem : SyntaxProblem)
    (h : ∀ text ∈ problem.texts, EscapeFree text) : EscapeFree problem.message := by
  delta message
  cases problem with
  | notUtf8 defect =>
      have reason : EscapeFree defect.reason := by cases defect <;> exact .literal rfl
      exact .append₃ (.literal rfl) reason (.literal rfl)
  | unclosed d =>
      have opened : EscapeFree d.opener := d.escapeFree_opener
      exact .append₃ (.append₃ (.literal rfl) opened (.literal rfl)) d.escapeFree_closer
        (.literal rfl)
  | unclosedBlock name =>
      have named : EscapeFree name := h name List.mem_cons_self
      exact .append₃ (.append₃ (.literal rfl) named (.literal rfl)) named (.literal rfl)
  | secondElse name | closeWithoutOpen name =>
      exact .append₃ (.literal rfl) (h name List.mem_cons_self) (.literal rfl)
  | closeOfOther name openName openLine =>
      have named : EscapeFree name := h name List.mem_cons_self
      have opened : EscapeFree openName :=
        h openName (List.mem_cons_of_mem name List.mem_cons_self)
      exact .append₃ (.append₃ (.append₃ (.literal rfl) named (.literal rfl)) opened (.literal rfl))
        (escapeFree_number openLine) (.literal rfl)
  | leftover text => exact .append₃ (.literal rfl) (h text List.mem_cons_self) (.literal rfl)
  | nameExpected found | listEndExpected found =>
      exact .append₃ (.literal rfl) (escapeFree_shown h) (.literal rfl)
  | commaExpected found | expressionUnexpected found =>
      exact .append₃ (.literal rfl) (h found.toString List.mem_cons_self) (.literal rfl)
  | other message code => exact h message List.mem_cons_self
  | _ => exact .literal rfl

theorem ContractProblem.escapeFree_message (problem : ContractProblem)
    (h : ∀ text ∈ problem.texts, EscapeFree text) : EscapeFree problem.message := by
  delta message
  cases problem with
  | parameterCount tag minimum maximum count =>
      have expected : EscapeFree
          (if maximum = minimum then toString minimum else s!"{minimum} to {maximum}") := by
        split
        · exact escapeFree_number minimum
        · exact .append₃ (escapeFree_number minimum) (.literal rfl) (escapeFree_number maximum)
      have named : EscapeFree tag := h tag List.mem_cons_self
      have counted := escapeFree_natural count
      exact .append
        (.append₃ (.append₃ (.literal rfl) named (.literal rfl)) expected (.literal rfl)) counted
  | bodyRequired tag =>
      have named : EscapeFree tag := h tag List.mem_cons_self
      exact .append₃ (.append₃ (.literal rfl) named (.literal rfl)) named (.literal rfl)
  | bodyRefused tag => exact .append₃ (.literal rfl) (h tag List.mem_cons_self) (.literal rfl)
  | other message => exact h message List.mem_cons_self

theorem RuntimeProblem.escapeFree_message (problem : RuntimeProblem)
    (h : ∀ text ∈ problem.texts, EscapeFree text) : EscapeFree problem.message := by
  delta message
  cases problem with
  | depthExceeded limit label =>
      have limited : EscapeFree (toString limit) := escapeFree_number limit
      exact .append₃ (.append₃ (.literal rfl) limited (.literal rfl)) (h label List.mem_cons_self)
        (.literal rfl)
  | other message => exact h message List.mem_cons_self

theorem EncodingProblem.escapeFree_message (problem : EncodingProblem)
    (h : ∀ text ∈ problem.texts, EscapeFree text) : EscapeFree problem.message := by
  delta message
  cases problem with
  | circular | tooDeep => exact .literal rfl
  | keyNotText shown => exact .append₃ (.literal rfl) (h shown List.mem_cons_self) (.literal rfl)
  | unsupported found => exact .append (.literal rfl) (h found List.mem_cons_self)
  | other message => exact h message List.mem_cons_self

theorem escapeFree_locationText {name : Option String} (h : ∀ text ∈ name, EscapeFree text)
    (line column : Option Int) : EscapeFree (locationText name line column) := by
  -- Without a line only the name is written.
  have named : EscapeFree (locationText name none none) := by
    delta locationText
    dsimp only
    split
    · exact .literal rfl
    · exact .literal rfl
    · exact h _ rfl
  delta locationText
  dsimp only
  split
  · exact named
  · exact named
  · exact .append₃ named (.literal rfl) (escapeFree_number _)
  · exact .append₃ (.append₃ named (.literal rfl) (escapeFree_number _)) (.literal rfl)
      (escapeFree_number _)

end Templating
