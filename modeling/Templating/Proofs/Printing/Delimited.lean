import Templating.Proofs.Printing.Term
import Templating.Proofs.Template.Cut
import Templating.Proofs.Text.Utf8

/-!
# Where what was written is cut

Written terms hold no closing delimiter outside of their strings and leave no quote open, so that
the content of a tag ends where it was ended.  Texts hold no opening delimiter, and the body of a
raw block no closing tag.
-/

namespace Templating

def encodeChars (cs : List Char) : List UInt8 := cs.flatMap String.utf8EncodeChar

theorem encodeChars_append (a b : List Char) :
    encodeChars (a ++ b) = encodeChars a ++ encodeChars b := List.flatMap_append

theorem encodeChars_cons (c : Char) (cs : List Char) :
    encodeChars (c :: cs) = String.utf8EncodeChar c ++ encodeChars cs := List.flatMap_cons

theorem decode_encodeChars (cs : List Char) : Text.Utf8.decode (encodeChars cs) = .ok cs :=
  Text.Utf8.decode_flatMap_utf8EncodeChar cs

theorem encodeChars_eq_nil_iff (content : String) :
    encodeChars content.toList = [] ↔ content = "" := by
  rw [← String.toList_eq_nil_iff]
  cases content.toList with
  | nil => simp [encodeChars]
  | cons c cs => simp [encodeChars_cons, String.utf8EncodeChar_ne_nil]

/-! ## Closed text -/

/-- No quote is open at the end, and outside of quotes there is nothing that a closing delimiter
begins with. -/
inductive Closed : List Char → Prop
  | nil : Closed []
  | plain {c : Char} {cs : List Char} :
      c ≠ '"' → c ≠ '\'' → c ≠ '}' → c ≠ '%' → Closed cs → Closed (c :: cs)
  | quoted (content : String) {cs : List Char} : Closed cs → Closed (quoted content ++ cs)

theorem Closed.append {a b : List Char} (ha : Closed a) (hb : Closed b) : Closed (a ++ b) := by
  induction ha with
  | nil => exact hb
  | plain quote quote' brace percent _ ih => exact .plain quote quote' brace percent ih
  | quoted content _ ih =>
      rw [List.append_assoc]
      exact .quoted content ih

/-! ## Terms are closed -/

theorem closed_of_plain {cs : List Char}
    (h : ∀ c ∈ cs, c ≠ '"' ∧ c ≠ '\'' ∧ c ≠ '\x7d' ∧ c ≠ '%') : Closed cs := by
  induction cs with
  | nil => exact .nil
  | cons c cs ih =>
      obtain ⟨quote, quote', brace, percent⟩ := h c List.mem_cons_self
      exact .plain quote quote' brace percent
        (ih fun d member => h d (List.mem_cons_of_mem c member))

theorem closed_name {name : String} (h : IsName name) : Closed name.toList := by
  obtain ⟨c, cs, hname, start, parts⟩ := h
  refine closed_of_plain fun d member => ?_
  have part : Expression.isNamePart d = true := by
    rw [hname] at member
    rcases List.mem_cons.1 member with rfl | member
    · exact Expression.isNamePart_of_isNameStart start
    · exact List.all_eq_true.1 parts d member
  refine ⟨?_, ?_, ?_, ?_⟩ <;> rintro rfl <;> exact absurd part (by decide)

theorem closed_numeral (n : Numeral) : Closed n.print := by
  have decimal : Closed (Nat.toDigits 10 n.value.natAbs) := by
    refine closed_of_plain fun d member => ?_
    have digit := Nat.isDigit_of_mem_toDigits (by decide) (by decide) member
    refine ⟨?_, ?_, ?_, ?_⟩ <;> rintro rfl <;> exact absurd digit (by decide)
  unfold Numeral.print
  split
  · exact .plain (by decide) (by decide) (by decide) (by decide) decimal
  · exact decimal

theorem closed_quoted (content : String) : Closed (quoted content) := by
  have whole := Closed.quoted content .nil
  rwa [List.append_nil] at whole

/-- A character that neither quotes nor closes, in front of what is closed. -/
theorem closed_cons (c : Char) {cs : List Char} (h : Closed cs)
    (plain : c ≠ '"' ∧ c ≠ '\'' ∧ c ≠ '\x7d' ∧ c ≠ '%') : Closed (c :: cs) :=
  .plain plain.1 plain.2.1 plain.2.2.1 plain.2.2.2 h

theorem closed_step (s : PathStep) : Closed s.print := by
  have bracket : Closed [']'] := closed_cons ']' .nil (by decide)
  cases s with
  | key name => exact closed_cons '[' ((closed_quoted name).append bracket) (by decide)
  | index n => exact closed_cons '[' ((closed_numeral n).append bracket) (by decide)

theorem closed_steps (steps : List PathStep) : Closed (steps.flatMap PathStep.print) := by
  induction steps with
  | nil => exact .nil
  | cons s steps ih =>
      rw [List.flatMap_cons]
      exact (closed_step s).append ih

mutual

theorem closed_term (t : Term) : Closed t.print := by
  cases t with
  | string content =>
      rw [Term.print]
      exact closed_quoted content
  | integer n =>
      rw [Term.print]
      exact closed_numeral n
  | keyword k =>
      rw [Term.print]
      exact closed_name k.isName
  | name head =>
      rw [Term.print]
      exact closed_name head.isName
  | path head first others =>
      rw [Term.print]
      exact (closed_name head.isName).append ((closed_step first).append (closed_steps others))
  | call name args =>
      rw [Term.print]
      have paren : Closed [')'] := closed_cons ')' .nil (by decide)
      exact (closed_name name.isName).append
        (closed_cons '(' ((closed_printList args).append paren) (by decide))

theorem closed_printList (terms : List Term) : Closed (printList terms) := by
  cases terms with
  | nil =>
      rw [printList]
      exact .nil
  | cons t others =>
      rw [printList]
      exact (closed_term t).append (closed_printOthers others)

theorem closed_printOthers (terms : List Term) : Closed (printOthers terms) := by
  cases terms with
  | nil =>
      rw [printOthers]
      exact .nil
  | cons t others =>
      rw [printOthers]
      exact closed_cons ',' (closed_cons ' ' ((closed_term t).append (closed_printOthers others))
        (by decide)) (by decide)

end

theorem closed_blank : Closed [' '] := closed_cons ' ' .nil (by decide)

/-! ## Content of tags -/

namespace Construct

def prepend (bytes : List UInt8) (found : Option (List UInt8 × List UInt8)) :
    Option (List UInt8 × List UInt8) :=
  found.map fun f => (bytes ++ f.1, f.2)

theorem prepend_prepend (a b : List UInt8) (found : Option (List UInt8 × List UInt8)) :
    prepend a (prepend b found) = prepend (a ++ b) found := by
  cases found <;> simp [prepend]

variable {first : UInt8} {more : List UInt8}

theorem splitUnquoted?_append_plain {bytes : List UInt8}
    (h : ∀ b ∈ bytes, b ≠ 34 ∧ b ≠ 39 ∧ b ≠ first) (rest : List UInt8) :
    splitUnquoted? (first :: more) none (bytes ++ rest) =
      prepend bytes (splitUnquoted? (first :: more) none rest) := by
  induction bytes with
  | nil => simp [prepend]
  | cons b bytes ih =>
      obtain ⟨double, single, other⟩ := h b List.mem_cons_self
      have others := ih fun c member => h c (List.mem_cons_of_mem b member)
      have quote : ¬ (b = 34 ∨ b = 39) := by simp [double, single]
      have stays : (first :: more).isPrefixOf? (b :: (bytes ++ rest)) = none := by
        simp [cons_isPrefixOf?_cons, Ne.symm other]
      rw [List.cons_append, splitUnquoted?_of_plain quote stays, others]
      simp only [prepend, Option.map_map]
      rfl

theorem splitUnquoted?_append_quoted {closer : List UInt8} {quote : UInt8} {bytes : List UInt8}
    (h : ∀ b ∈ bytes, b ≠ quote ∧ b ≠ 92) (rest : List UInt8) :
    splitUnquoted? closer (some quote) (bytes ++ rest) =
      prepend bytes (splitUnquoted? closer (some quote) rest) := by
  induction bytes with
  | nil => simp [prepend]
  | cons b bytes ih =>
      obtain ⟨other, plain⟩ := h b List.mem_cons_self
      have others := ih fun c member => h c (List.mem_cons_of_mem b member)
      rw [List.cons_append, splitUnquoted?]
      · simp only [if_neg other, others, prepend, Option.map_map]
        rfl
      · rintro rfl
        exact absurd rfl plain
      · rintro c tail rfl
        exact absurd rfl plain

theorem splitUnquoted?_escape {closer : List UInt8} (content : List Char) (rest : List UInt8) :
    splitUnquoted? closer (some 34) (encodeChars (content.flatMap escape) ++ rest) =
      prepend (encodeChars (content.flatMap escape)) (splitUnquoted? closer (some 34) rest) := by
  induction content with
  | nil => simp [prepend, encodeChars]
  | cons c content ih =>
      rw [List.flatMap_cons, encodeChars_append, List.append_assoc, ← prepend_prepend, ← ih]
      by_cases special : c = '"' ∨ c = '\\'
      · obtain ⟨b, pair⟩ : ∃ b, encodeChars (escape c) = [92, b] := by
          rcases special with rfl | rfl
          · exact ⟨34, by decide⟩
          · exact ⟨92, by decide⟩
        rw [pair]
        simp only [List.cons_append, List.nil_append, splitUnquoted?, prepend]
      · have plain : c ≠ '"' ∧ c ≠ '\\' := not_or.1 special
        have single : encodeChars (escape c) = String.utf8EncodeChar c := by
          simp [escape, plain, encodeChars]
        rw [single]
        refine splitUnquoted?_append_quoted ?_ _
        intro b member
        exact ⟨Text.Utf8.ne_of_mem_utf8EncodeChar (by decide) plain.1 member,
          Text.Utf8.ne_of_mem_utf8EncodeChar (by decide) plain.2 member⟩

theorem splitUnquoted?_quoted (content : String) (rest : List UInt8) :
    splitUnquoted? (first :: more) none (encodeChars (quoted content) ++ rest) =
      prepend (encodeChars (quoted content)) (splitUnquoted? (first :: more) none rest) := by
  have whole : encodeChars (quoted content) =
      34 :: (encodeChars (content.toList.flatMap escape) ++ [34]) := by
    rw [quoted, encodeChars_cons, encodeChars_append]
    rfl
  have closing : splitUnquoted? (first :: more) (some 34) (34 :: rest) =
      prepend [34] (splitUnquoted? (first :: more) none rest) := by
    simp [splitUnquoted?, prepend]
  rw [whole, List.cons_append, List.append_assoc, splitUnquoted?, if_pos (.inl rfl),
    splitUnquoted?_escape, List.singleton_append, closing, prepend_prepend]
  simp only [prepend, Option.map_map]
  rfl

theorem splitUnquoted?_closed (delimiter : first = 125 ∨ first = 37) {cs : List Char}
    (h : Closed cs) (rest : List UInt8) :
    splitUnquoted? (first :: more) none (encodeChars cs ++ rest) =
      prepend (encodeChars cs) (splitUnquoted? (first :: more) none rest) := by
  induction h with
  | nil => simp [prepend, encodeChars]
  | @plain c cs quote quote' brace percent _ ih =>
      rw [encodeChars_cons, List.append_assoc, ← prepend_prepend, ← ih]
      refine splitUnquoted?_append_plain ?_ _
      intro b member
      refine ⟨Text.Utf8.ne_of_mem_utf8EncodeChar (by decide) quote member,
        Text.Utf8.ne_of_mem_utf8EncodeChar (by decide) quote' member, ?_⟩
      rcases delimiter with rfl | rfl
      · exact Text.Utf8.ne_of_mem_utf8EncodeChar (d := '}') (by decide) brace member
      · exact Text.Utf8.ne_of_mem_utf8EncodeChar (d := '%') (by decide) percent member
  | quoted content _ ih =>
      rw [encodeChars_append, List.append_assoc, splitUnquoted?_quoted, ih, prepend_prepend]

theorem splitContent?_closed {d : Delimiter} (quoting : d ≠ .comment) {cs : List Char}
    (h : Closed cs) (rest : List UInt8) :
    splitContent? d (encodeChars cs ++ d.closingBytes ++ rest) = some (encodeChars cs, rest) := by
  have found : splitUnquoted? d.closingBytes none (encodeChars cs ++ d.closingBytes ++ rest) =
      some (encodeChars cs, rest) := by
    rw [List.append_assoc]
    cases d with
    | comment => exact absurd rfl quoting
    | output =>
        rw [Delimiter.closingBytes_output, splitUnquoted?_closed (.inl rfl) h]
        simp [splitUnquoted?, cons_isPrefixOf?_cons, nil_isPrefixOf?, prepend]
    | statement =>
        rw [Delimiter.closingBytes_statement, splitUnquoted?_closed (.inr rfl) h]
        simp [splitUnquoted?, cons_isPrefixOf?_cons, nil_isPrefixOf?, prepend]
  cases d with
  | comment => exact absurd rfl quoting
  | output =>
      show (splitUnquoted? Delimiter.output.closingBytes none _).or _ = _
      rw [found]
      rfl
  | statement =>
      show (splitUnquoted? Delimiter.statement.closingBytes none _).or _ = _
      rw [found]
      rfl

/-! ## Texts -/

def NoOpener (cs : List Char) : Prop := ∀ d : Delimiter, ¬ d.opener.toList <:+: cs

theorem NoOpener.tail {c : Char} {cs : List Char} (h : NoOpener (c :: cs)) : NoOpener cs :=
  fun d occurs => h d (occurs.trans (List.suffix_cons c cs).isInfix)

/-- The bytes of a character that begin with that of a one-byte character are that character. -/
theorem eq_of_head_utf8EncodeChar {c d : Char} (small : d.toNat < 128) {rest : List UInt8}
    (h : String.utf8EncodeChar c = UInt8.ofNat d.toNat :: rest) : c = d := by
  by_cases same : c = d
  · exact same
  · have member : UInt8.ofNat d.toNat ∈ String.utf8EncodeChar c := by
      rw [h]
      exact List.mem_cons_self
    exact absurd rfl (Text.Utf8.ne_of_mem_utf8EncodeChar small same member)

theorem isText_append {a b rest : List UInt8} (ha : IsText a (b ++ rest)) (hb : IsText b rest) :
    IsText (a ++ b) rest := by
  intro before after split nonempty
  rcases List.append_eq_append_iff.1 split with ⟨mid, rfl, rfl⟩ | ⟨mid, rfl, rfl⟩
  · exact hb mid after rfl nonempty
  · cases mid with
    | nil =>
        rw [List.nil_append] at nonempty ⊢
        exact hb [] b rfl nonempty
    | cons c mid =>
        rw [List.append_assoc]
        exact ha before (c :: mid) rfl (List.cons_ne_nil c mid)

theorem openingBytes_eq (d : Delimiter) :
    d.openingBytes = [123, UInt8.ofNat d.mark.toNat] := by
  cases d <;> decide

theorem opener_eq (d : Delimiter) : d.opener.toList = ['\x7b', d.mark] := by
  cases d <;> decide

theorem isText_char {c : Char} {rest : List UInt8}
    (h : c = '\x7b' → ¬ Opens (123 :: rest)) : IsText (String.utf8EncodeChar c) rest := by
  intro before after split nonempty opens
  obtain ⟨b, tail, rfl⟩ := List.exists_cons_of_ne_nil nonempty
  obtain ⟨d, others, whole⟩ := opens
  rw [openingBytes_eq, List.cons_append, List.cons_append] at whole
  have first : b = 123 := (List.cons.inj whole).1.symm
  have member : b ∈ String.utf8EncodeChar c := by
    rw [split]
    exact List.mem_append_right before List.mem_cons_self
  have same : c = '\x7b' := by
    by_cases same : c = '\x7b'
    · exact same
    · exact absurd first (Text.Utf8.ne_of_mem_utf8EncodeChar (by decide) same member)
  have single : [123] = before ++ b :: tail := by
    rw [← split, same]
    decide
  have short := congrArg List.length single
  simp only [List.length_append, List.length_cons, List.length_nil] at short
  have nothing : tail = [] := List.eq_nil_of_length_eq_zero (by omega)
  subst nothing first
  refine h same ⟨d, others, ?_⟩
  rw [openingBytes_eq, List.cons_append, List.cons_append]
  exact whole

/-- A text in which no delimiter opens is text up to what follows it. -/
theorem isText_encodeChars {cs : List Char} (closed : NoOpener cs) {rest : List UInt8}
    (ends : rest = [] ∨ cs.getLast? ≠ some '\x7b') : IsText (encodeChars cs) rest := by
  induction cs with
  | nil => exact isText_nil rest
  | cons c cs ih =>
      rw [encodeChars_cons]
      have later : rest = [] ∨ cs.getLast? ≠ some '\x7b' := by
        rcases ends with empty | last
        · exact .inl empty
        · cases cs with
          | nil => exact .inr (by simp)
          | cons e cs => exact .inr (by simpa using last)
      refine isText_append (isText_char ?_) (ih closed.tail later)
      rintro rfl ⟨d, tail, whole⟩
      rw [openingBytes_eq, List.cons_append, List.cons_append] at whole
      have next := (List.cons.inj whole).2
      cases cs with
      | nil =>
          rcases ends with rfl | last
          · cases next
          · exact last rfl
      | cons e cs =>
          rw [encodeChars_cons, List.append_assoc] at next
          obtain ⟨b, bytes, hbytes⟩ := List.exists_cons_of_ne_nil
            (show String.utf8EncodeChar e ≠ [] from String.utf8EncodeChar_ne_nil)
          have small : d.mark.toNat < 128 := by cases d <;> decide
          rw [hbytes, List.cons_append] at next
          rw [← (List.cons.inj next).1] at hbytes
          have mark := eq_of_head_utf8EncodeChar small hbytes
          refine closed d ⟨[], cs, ?_⟩
          rw [opener_eq, mark]
          rfl

/-! ## Raw blocks -/

def NoRawClose (bytes : List UInt8) : Prop := ∀ tag, IsRawClose tag → ¬ tag <:+: bytes

/-- A closing tag has no second brace to open with. -/
theorem IsRawClose.tail {tag before after : List UInt8} (h : IsRawClose tag)
    (split : tag = before ++ brace :: after) : before = [] := by
  obtain ⟨blanks, blanks', space, space', rfl⟩ := h
  cases before with
  | nil => rfl
  | cons b before =>
      simp only [List.cons_append, List.nil_append, List.append_assoc, List.cons.injEq] at split
      have member : brace ∈ percent :: (blanks ++ (Text.Utf8.encode "/raw" ++
          (blanks' ++ [percent, 125]))) := by
        rw [split.2]
        exact List.mem_append_right before List.mem_cons_self
      have slash : Text.Utf8.encode "/raw" = [47, 114, 97, 119] := by decide
      have notBlank : isSpace brace = false := by decide
      simp only [List.mem_cons, List.mem_append, slash, List.not_mem_nil, or_false] at member
      rcases member with h | h | h | h | h
      · exact absurd h (by decide)
      · rw [space _ h] at notBlank
        cases notBlank
      · exact absurd h (by decide)
      · rw [space' _ h] at notBlank
        cases notBlank
      · exact absurd h (by decide)

theorem IsRawClose.head {tag : List UInt8} (h : IsRawClose tag) :
    ∃ others, tag = brace :: others := by
  obtain ⟨before, after, -, -, rfl⟩ := h
  exact ⟨_, rfl⟩

/-- A body without a closing tag in it is read up to the closing tag after it. -/
theorem splitRawBody?_append {body tag : List UInt8} (closed : NoRawClose body)
    (closes : IsRawClose tag) (rest : List UInt8) :
    splitRawBody? (body ++ tag ++ rest) = some (body, tag, rest) := by
  obtain ⟨others, head⟩ := closes.head
  induction body with
  | nil =>
      have found := splitRawClose?_eq_some_iff.2 ⟨closes, (rfl : tag ++ rest = tag ++ rest)⟩
      rw [List.nil_append]
      rw [head, List.cons_append] at found ⊢
      simp only [splitRawBody?, found]
  | cons b body ih =>
      have later : NoRawClose body :=
        fun t ht occurs => closed t ht (occurs.trans (List.suffix_cons b body).isInfix)
      have stays : splitRawClose? (b :: (body ++ tag ++ rest)) = none := by
        cases found : splitRawClose? (b :: (body ++ tag ++ rest)) with
        | none => rfl
        | some pair =>
            obtain ⟨t, after⟩ := pair
            obtain ⟨ht, whole⟩ := splitRawClose?_eq_some_iff.1 found
            rw [List.append_assoc, ← List.cons_append] at whole
            rcases List.append_eq_append_iff.1 whole with ⟨mid, split, left⟩ | ⟨mid, split, -⟩
            · cases mid with
              | nil =>
                  rw [List.append_nil] at split
                  exact absurd (List.infix_refl t) (split ▸ closed t ht)
              | cons m mid =>
                  rw [head] at left
                  rw [← (List.cons.inj left).1] at split
                  exact absurd (ht.tail split) (List.cons_ne_nil b body)
            · exact absurd ⟨[], mid, by rw [split, List.nil_append]⟩ (closed t ht)
      simp only [List.cons_append, splitRawBody?, stays, ih later, Option.map_some]

theorem noRawClose_of_splitRawBody? {bytes : List UInt8} (h : splitRawBody? bytes = none) :
    NoRawClose bytes := by
  intro tag closes occurs
  obtain ⟨others, head⟩ := closes.head
  induction bytes with
  | nil =>
      rw [head] at occurs
      exact absurd (List.infix_nil.1 occurs) (List.cons_ne_nil brace others)
  | cons b bytes ih =>
      rw [splitRawBody?] at h
      split at h
      · cases h
      next stays =>
      rcases List.infix_cons_iff.1 occurs with ⟨after, whole⟩ | later
      · rw [splitRawClose?_eq_some_iff.2 ⟨closes, whole.symm⟩] at stays
        cases stays
      · exact ih (Option.map_eq_none_iff.1 h) later

end Construct

end Templating
