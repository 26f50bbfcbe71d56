import Mathlib.Data.List.Infix
import Templating.Proofs.Printing.Delimited
import Templating.Proofs.Template.Source

/-!
# Constructs before further bytes

A construct ends where it ends, whatever bytes come to stand behind the source.  Each search for an
end stops at the first one it meets, and it meets one within the source: what was read of a tag
leaves no string open, so that the end of the tag is never sought inside a string.
-/

namespace Templating

/-! ## What was read leaves no string open -/

namespace Remaining

theorem Reaches.balanced {r after : Remaining} (h : r.Reaches after)
    (others : Expression.Balanced after.chars) : Expression.Balanced r.chars := by
  obtain ⟨passed, hchars, -, balanced⟩ := h
  rw [hchars]
  exact balanced.append others

theorem AtEnd.balanced {r : Remaining} (h : r.AtEnd) : Expression.Balanced r.chars := by
  refine (reaches_skipBlanks r).balanced ?_
  rw [h]
  exact .nil

end Remaining

namespace Expression

open Remaining

theorem ReadsToEnd.balanced {r : Remaining} {params : List Node} (h : ReadsToEnd r params) :
    Balanced r.chars := by
  induction h with
  | nil blank => exact blank.balanced
  | @cons r _ _ _ _ comma first _ ih =>
      have begins := (reaches_skipBlanks r).trans (reaches_of_take? (by decide) comma)
      exact (begins.trans first.reaches.1).balanced ih

theorem Parameters.balanced {r : Remaining} {params : List Node} (h : Parameters r params) :
    Balanced r.chars := by
  have begins := reaches_skipBlanks r
  cases h with
  | none blank => exact blank.balanced
  | inParentheses paren reads blank =>
      have opened := begins.trans (reaches_of_take? (by decide) paren)
      exact (opened.trans reads.reaches.1).balanced blank.balanced
  | listed _ first others => exact (begins.trans first.reaches.1).balanced others.balanced

end Expression

namespace Construct

open Expression (Balanced InString isQuote)

theorem Output.balanced {p : Position} {r : Remaining} {c : Construct} (h : Output p r c) :
    Balanced r.chars := by
  cases h with
  | expression reads blank => exact reads.reaches.1.balanced blank.balanced

theorem Statement.balanced {p : Position} {r : Remaining} {c : Construct} (h : Statement p r c) :
    Balanced r.chars := by
  have begins := Remaining.reaches_skipBlanks r
  cases h with
  | closing slash named blank =>
      have named := Expression.reaches_of_readName named
      exact (begins.trans ((Remaining.reaches_of_take? (by decide) slash).trans named)).balanced
        blank.balanced
  | opening _ hash named parameters =>
      have named := Expression.reaches_of_readName named
      exact (begins.trans ((Remaining.reaches_of_take? (by decide) hash).trans named)).balanced
        parameters.balanced
  | otherwise _ _ named blank =>
      exact (begins.trans (Expression.reaches_of_readName named)).balanced blank.balanced
  | inline _ _ named _ parameters =>
      exact (begins.trans (Expression.reaches_of_readName named)).balanced parameters.balanced

/-! ## Closing delimiters outside of strings -/

@[simp] theorem isSome_prepend (bytes : List UInt8) (found : Option (List UInt8 × List UInt8)) :
    (prepend bytes found).isSome = found.isSome := by
  cases found <;> rfl

/-- Outside of strings the search goes on past bytes that are no quote, or ends before. -/
theorem isSome_splitUnquoted?_append {closer bytes : List UInt8}
    (plain : ∀ b ∈ bytes, b ≠ 34 ∧ b ≠ 39) {rest : List UInt8}
    (h : (splitUnquoted? closer none rest).isSome = true) :
    (splitUnquoted? closer none (bytes ++ rest)).isSome = true := by
  induction bytes with
  | nil => exact h
  | cons b bytes ih =>
      obtain ⟨double, single⟩ := plain b List.mem_cons_self
      have later := ih fun c member => plain c (List.mem_cons_of_mem b member)
      have quote : ¬ (b = 34 ∨ b = 39) := by simp [double, single]
      rw [List.cons_append, splitUnquoted?, if_neg quote]
      split
      · rfl
      · rw [Option.isSome_map]
        exact later

/-- After the first byte of a character no byte of it is one of the markers. -/
theorem exists_utf8EncodeChar (c : Char) :
    ∃ b bytes, String.utf8EncodeChar c = b :: bytes ∧ ∀ d ∈ bytes, 128 ≤ d.toNat := by
  obtain ⟨b, bytes, whole⟩ := List.exists_cons_of_ne_nil
    (show String.utf8EncodeChar c ≠ [] from String.utf8EncodeChar_ne_nil)
  refine ⟨b, bytes, whole, ?_⟩
  by_cases ascii : c.toNat < 128
  · rw [Text.Utf8.utf8EncodeChar_of_lt ascii] at whole
    cases whole
    simp
  · intro d member
    refine Text.Utf8.le_of_mem_utf8EncodeChar (Nat.le_of_not_lt ascii) ?_
    rw [whole]
    exact List.mem_cons_of_mem b member

/-- Inside of a string the search passes over all of it. -/
theorem splitUnquoted?_inString {closer : List UInt8} {quote : Char} (small : quote.toNat < 128)
    {cs : List Char} (h : InString quote cs) (rest : List UInt8) :
    splitUnquoted? closer (some (UInt8.ofNat quote.toNat)) (encodeChars cs ++ rest) =
      prepend (encodeChars cs)
        (splitUnquoted? closer (some (UInt8.ofNat quote.toNat)) rest) := by
  have marker : (UInt8.ofNat quote.toNat).toNat < 128 := by
    rw [Text.Utf8.toNat_ofNat_of_lt (by omega)]
    exact small
  induction h with
  | nil => simp [prepend, encodeChars]
  | @escaped c cs _ ih =>
      obtain ⟨b, bytes, whole, high⟩ := exists_utf8EncodeChar c
      have others : ∀ d ∈ bytes, d ≠ UInt8.ofNat quote.toNat ∧ d ≠ 92 := by
        intro d member
        have large := high d member
        constructor <;> rintro rfl
        · omega
        · exact absurd large (by decide)
      have slash : String.utf8EncodeChar '\\' = [92] := by decide
      rw [encodeChars_cons, encodeChars_cons, slash, whole]
      simp only [List.cons_append, List.nil_append, List.append_assoc, splitUnquoted?]
      rw [splitUnquoted?_append_quoted others, ih, prepend_prepend]
      simp only [prepend, Option.map_map]
      rfl
  | @plain c cs other escape _ ih =>
      rw [encodeChars_cons, List.append_assoc, ← prepend_prepend, ← ih]
      refine splitUnquoted?_append_quoted ?_ _
      intro b member
      exact ⟨Text.Utf8.ne_of_mem_utf8EncodeChar small other member,
        Text.Utf8.ne_of_mem_utf8EncodeChar (by decide) escape member⟩

theorem encodeChars_quote {quote : Char} (quoted : isQuote quote = true) (cs : List Char) :
    encodeChars (quote :: cs) = UInt8.ofNat quote.toNat :: encodeChars cs := by
  rcases Expression.isQuote_iff.1 quoted with rfl | rfl <;> rfl

theorem quoteByte {quote : Char} (quoted : isQuote quote = true) :
    UInt8.ofNat quote.toNat = 34 ∨ UInt8.ofNat quote.toNat = 39 := by
  rcases Expression.isQuote_iff.1 quoted with rfl | rfl <;> decide

/-- Outside of strings the search passes over all of the next one. -/
theorem splitUnquoted?_string {closer : List UInt8} {quote : Char} (quoted : isQuote quote = true)
    {content : List Char} (inString : InString quote content) (cs : List Char)
    (rest : List UInt8) :
    splitUnquoted? closer none (encodeChars (quote :: (content ++ quote :: cs)) ++ rest) =
      prepend (encodeChars (quote :: (content ++ [quote])))
        (splitUnquoted? closer none (encodeChars cs ++ rest)) := by
  have small : quote.toNat < 128 := by
    rcases Expression.isQuote_iff.1 quoted with rfl | rfl <;> decide
  have escape : UInt8.ofNat quote.toNat ≠ 92 := by
    rcases quoteByte quoted with same | same <;> rw [same] <;> decide
  have closing : splitUnquoted? closer (some (UInt8.ofNat quote.toNat))
      (UInt8.ofNat quote.toNat :: (encodeChars cs ++ rest)) =
        prepend [UInt8.ofNat quote.toNat]
          (splitUnquoted? closer none (encodeChars cs ++ rest)) := by
    rw [splitUnquoted?, if_pos rfl]
    · rfl
    · exact fun same _ => escape same
    · exact fun _ _ same _ => escape same
  simp only [encodeChars_quote quoted, encodeChars_append, List.cons_append, List.append_assoc]
  rw [splitUnquoted?, if_pos (quoteByte quoted), splitUnquoted?_inString small inString, closing,
    prepend_prepend]
  simp only [prepend, Option.map_map]
  rfl

theorem isSome_splitUnquoted?_balanced {closer : List UInt8} {cs : List Char} (h : Balanced cs)
    {rest : List UInt8} (found : (splitUnquoted? closer none rest).isSome = true) :
    (splitUnquoted? closer none (encodeChars cs ++ rest)).isSome = true := by
  induction h with
  | nil => exact found
  | @plain c cs plain _ ih =>
      rw [encodeChars_cons, List.append_assoc]
      refine isSome_splitUnquoted?_append ?_ ih
      intro b member
      have neither := Expression.isQuote_eq_false_iff.1 plain
      exact ⟨Text.Utf8.ne_of_mem_utf8EncodeChar (d := '"') (by decide) neither.1 member,
        Text.Utf8.ne_of_mem_utf8EncodeChar (d := '\'') (by decide) neither.2 member⟩
  | string quoted inString _ ih =>
      rw [splitUnquoted?_string quoted inString, isSome_prepend]
      exact ih

/-! ## Ends of constructs -/

/-- Bytes behind a sequence do not change what a shorter one finds at its start. -/
theorem isPrefixOf_append {needle data : List UInt8} (short : needle.length ≤ data.length)
    (more : List UInt8) : needle.isPrefixOf (data ++ more) = needle.isPrefixOf data := by
  rw [Bool.eq_iff_iff, List.isPrefixOf_iff_prefix, List.isPrefixOf_iff_prefix]
  exact List.isPrefix_append_of_length short

theorem splitAtFirst?_append {needle data before after : List UInt8}
    (h : Text.splitAtFirst? needle data = some (before, after)) (nonempty : needle ≠ [])
    (more : List UInt8) :
    Text.splitAtFirst? needle (data ++ more) = some (before, after ++ more) := by
  induction data generalizing before with
  | nil => simp [Text.splitAtFirst?, nonempty] at h
  | cons b data ih =>
      have whole := Text.append_of_splitAtFirst? h
      have begins := isPrefix_of_splitAtFirst? h
      have short : needle.length ≤ (b :: data).length := by
        have fits := begins.length_le
        rw [← whole, List.length_append]
        omega
      simp only [List.cons_append, Text.splitAtFirst?]
      rw [← List.cons_append, isPrefixOf_append short]
      simp only [Text.splitAtFirst?] at h
      split at h
      · next first =>
        cases h
        simp [first]
      · next later =>
        obtain ⟨⟨others, rest⟩, found, hpair⟩ := Option.map_eq_some_iff.1 h
        cases hpair
        simp [later, ih found]

theorem splitAnywhere?_append {closer data content rest : List UInt8}
    (h : splitAnywhere? closer data = some (content, rest)) (nonempty : closer ≠ [])
    (more : List UInt8) :
    splitAnywhere? closer (data ++ more) = some (content, rest ++ more) := by
  obtain ⟨⟨before, after⟩, found, hpair⟩ := Option.map_eq_some_iff.1 h
  have begins := isPrefix_of_splitAtFirst? found
  cases hpair
  rw [splitAnywhere?, splitAtFirst?_append found nonempty, Option.map_some,
    List.drop_append_of_le_length begins.length_le]

theorem splitUnquoted?_append {closer data content rest : List UInt8} {quote : Option UInt8}
    (h : splitUnquoted? closer quote data = some (content, rest)) (more : List UInt8) :
    splitUnquoted? closer quote (data ++ more) = some (content, rest ++ more) := by
  fun_induction splitUnquoted? closer quote data generalizing content with
  | case1 => cases h
  | case2 => cases h
  | case3 quote b tail ih =>
      obtain ⟨found, hfound, hpair⟩ := Option.map_eq_some_iff.1 h
      cases hpair
      simp [splitUnquoted?, ih hfound]
  | case4 quote b tail short escape ih =>
      obtain ⟨found, hfound, hpair⟩ := Option.map_eq_some_iff.1 h
      cases hpair
      have plain : b ≠ 92 := by
        rintro rfl
        cases tail with
        | nil => exact short rfl rfl
        | cons c tail => exact escape c tail rfl rfl
      rw [List.cons_append, splitUnquoted?, ih hfound]
      · rfl
      · exact fun same _ => plain same
      · exact fun _ _ same _ => plain same
  | case5 b tail quote ih =>
      obtain ⟨found, hfound, hpair⟩ := Option.map_eq_some_iff.1 h
      cases hpair
      rw [List.cons_append, splitUnquoted?, if_pos quote, ih hfound]
      rfl
  | case6 b tail quote after begins =>
      cases h
      have whole := isPrefixOf?_eq_some_iff.1 begins
      have begins' : closer.isPrefixOf? (b :: (tail ++ more)) = some (rest ++ more) := by
        rw [isPrefixOf?_eq_some_iff, ← List.cons_append, whole, List.append_assoc]
      rw [List.cons_append, splitUnquoted?, if_neg quote, begins']
  | case7 b tail quote absent ih =>
      obtain ⟨found, hfound, hpair⟩ := Option.map_eq_some_iff.1 h
      cases hpair
      -- The closing delimiter stands further on, so that the bytes here suffice to tell it apart.
      have absent' : closer.isPrefixOf? (b :: (tail ++ more)) = none := by
        cases begins : closer.isPrefixOf? (b :: (tail ++ more)) with
        | none => rfl
        | some after =>
            have long : closer.length ≤ (b :: tail).length := by
              rw [append_of_splitUnquoted? hfound]
              simp
              omega
            have early : closer <+: b :: tail ++ more :=
              ⟨after, (isPrefixOf?_eq_some_iff.1 begins).symm⟩
            obtain ⟨left, whole⟩ := (List.isPrefix_append_of_length long).1 early
            rw [isPrefixOf?_eq_some_iff.2 whole.symm] at absent
            cases absent
      rw [List.cons_append, splitUnquoted?, if_neg quote, absent', ih hfound]
      rfl

theorem closingBytes_ne_nil (d : Delimiter) : d.closingBytes ≠ [] := by
  cases d <;> decide

/-- Content with whole strings ends outside of them. -/
theorem isSome_splitUnquoted?_content {d : Delimiter} (quoting : d ≠ .comment)
    {content : List UInt8} {chars : List Char} (decoded : Text.Utf8.decode content = .ok chars)
    (balanced : Balanced chars) (rest : List UInt8) :
    (splitUnquoted? d.closingBytes none (content ++ d.closingBytes ++ rest)).isSome = true := by
  have spelt : encodeChars chars = content := Text.Utf8.flatMap_of_decode decoded
  rw [← spelt, List.append_assoc]
  apply isSome_splitUnquoted?_balanced balanced
  cases d with
  | comment => exact absurd rfl quoting
  | output => simp [Delimiter.closingBytes_output, splitUnquoted?, cons_isPrefixOf?_cons,
      nil_isPrefixOf?]
  | statement => simp [Delimiter.closingBytes_statement, splitUnquoted?, cons_isPrefixOf?_cons,
      nil_isPrefixOf?]

theorem splitContent?_of_isSome {d : Delimiter} (quoting : d ≠ .comment) {data : List UInt8}
    (h : (splitUnquoted? d.closingBytes none data).isSome = true) :
    splitContent? d data = splitUnquoted? d.closingBytes none data := by
  obtain ⟨found, hfound⟩ := Option.isSome_iff_exists.1 h
  rw [hfound]
  cases d with
  | comment => exact absurd rfl quoting
  | output | statement =>
      apply Option.or_eq_some_iff.2
      exact .inl hfound

/-- Where strings are whole the content ends at the first closing delimiter outside of them. -/
theorem splitContent?_append {d : Delimiter} {content rest : List UInt8}
    (h : splitContent? d (content ++ d.closingBytes ++ rest) = some (content, rest))
    (whole : d ≠ .comment → ∃ chars, Text.Utf8.decode content = .ok chars ∧ Balanced chars)
    (more : List UInt8) :
    splitContent? d (content ++ d.closingBytes ++ (rest ++ more)) =
      some (content, rest ++ more) := by
  by_cases quoting : d = .comment
  · subst quoting
    rw [← List.append_assoc]
    exact splitAnywhere?_append h (closingBytes_ne_nil .comment) more
  · obtain ⟨chars, decoded, balanced⟩ := whole quoting
    have ends := isSome_splitUnquoted?_content quoting decoded balanced
    rw [splitContent?_of_isSome quoting (ends _)] at h ⊢
    rw [← List.append_assoc]
    exact splitUnquoted?_append h more

theorem isRawClose_of_splitRawBody? {data body tag rest : List UInt8}
    (h : splitRawBody? data = some (body, tag, rest)) : IsRawClose tag ∧ NoRawClose body := by
  induction data generalizing body with
  | nil => cases h
  | cons b data ih =>
      have whole := append_of_splitRawBody? h
      simp only [splitRawBody?] at h
      split at h
      · next found =>
        cases h
        have closes := (splitRawClose?_eq_some_iff.1 found).1
        refine ⟨closes, fun tag closes' occurs => ?_⟩
        obtain ⟨others, head⟩ := closes'.head
        rw [head] at occurs
        exact absurd (List.infix_nil.1 occurs) (List.cons_ne_nil brace others)
      · next absent =>
        obtain ⟨⟨before, others⟩, found, hpair⟩ := Option.map_eq_some_iff.1 h
        cases hpair
        obtain ⟨closes, closed⟩ := ih found
        refine ⟨closes, fun tag' closes' occurs => ?_⟩
        rcases List.infix_cons_iff.1 occurs with ⟨after, begins⟩ | later
        · have early : splitRawClose? (b :: data) = some (tag', after ++ tag ++ rest) := by
            rw [splitRawClose?_eq_some_iff, whole, ← begins]
            exact ⟨closes', by simp⟩
          rw [early] at absent
          cases absent
        · exact closed tag' closes' later

theorem splitRawBody?_more {body tag rest : List UInt8}
    (h : splitRawBody? (body ++ tag ++ rest) = some (body, tag, rest)) (more : List UInt8) :
    splitRawBody? (body ++ tag ++ (rest ++ more)) = some (body, tag, rest ++ more) := by
  obtain ⟨closes, closed⟩ := isRawClose_of_splitRawBody? h
  exact splitRawBody?_append closed closes (rest ++ more)

theorem Opens.append {data : List UInt8} (h : Opens data) (more : List UInt8) :
    Opens (data ++ more) := by
  obtain ⟨d, rest, rfl⟩ := h
  exact ⟨d, rest ++ more, by rw [List.append_assoc]⟩

theorem length_openingBytes (d : Delimiter) : d.openingBytes.length = 2 := by
  cases d <;> decide

theorem Opens.of_append {data more : List UInt8} (h : Opens (data ++ more))
    (long : 2 ≤ data.length) : Opens data := by
  obtain ⟨d, begins⟩ := h
  rw [← length_openingBytes d] at long
  exact ⟨d, (List.isPrefix_append_of_length long).1 begins⟩

theorem Opens.length_le {data : List UInt8} (h : Opens data) : 2 ≤ data.length := by
  obtain ⟨d, begins⟩ := h
  rw [← length_openingBytes d]
  exact begins.length_le

/-- A construct before further bytes; text at the very end may go on. -/
theorem Piece.append {p : Position} {bytes rest : List UInt8} {c : Option Construct}
    (h : Piece p bytes rest c) (ends : rest ≠ [] ∨ ∀ q content, c ≠ some (.text q content))
    (more : List UInt8) : Piece p bytes (rest ++ more) c := by
  cases h with
  | text nonempty isText follows decoded =>
      rcases ends with present | other
      · have opens := follows.resolve_left present
        refine .text nonempty ?_ (.inr (opens.append more)) decoded
        intro before after split left opens'
        rw [← List.append_assoc] at opens'
        have long := opens.length_le
        exact isText before after split left
          (opens'.of_append (by rw [List.length_append]; omega))
      · exact absurd rfl (other _ _)
  | comment split => exact .comment (splitContent?_append split (fun h => absurd rfl h) more)
  | output split decoded output =>
      exact .output (splitContent?_append split (fun _ => ⟨_, decoded, output.balanced⟩) more)
        decoded output
  | statement split decoded statement ordinary =>
      have longer := splitContent?_append split (fun _ => ⟨_, decoded, statement.balanced⟩) more
      exact .statement longer decoded statement ordinary
  | rawBlock split decoded statement place cut decodedBody =>
      refine .rawBlock ?_ decoded statement place (splitRawBody?_more cut more) decodedBody
      have longer := splitContent?_append split (fun _ => ⟨_, decoded, statement.balanced⟩) more
      simpa only [List.append_assoc] using longer

end Construct

end Templating
