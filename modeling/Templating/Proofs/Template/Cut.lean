import Templating.Template.Tree

/-!
# Where constructs are cut

Each search for the end of a construct returns a part of the bytes and what follows it, and loses
nothing between the two.
-/

namespace Templating

/-! ## Opening and closing delimiters -/

namespace Delimiter

def openingBytes (d : Delimiter) : List UInt8 := Text.Utf8.encode d.opener

def closingBytes (d : Delimiter) : List UInt8 := Text.Utf8.encode d.closer

theorem openingBytes_output : openingBytes .output = [123, 123] := by decide

theorem openingBytes_statement : openingBytes .statement = [123, 37] := by decide

theorem openingBytes_comment : openingBytes .comment = [123, 35] := by decide

theorem closingBytes_output : closingBytes .output = [125, 125] := by decide

theorem closingBytes_statement : closingBytes .statement = [37, 125] := by decide

theorem closingBytes_comment : closingBytes .comment = [35, 125] := by decide

end Delimiter

/-- An opening or a closing delimiter takes two places of its line. -/
theorem Position.afterBytes_openingBytes (p : Position) (d : Delimiter) :
    p.afterBytes d.openingBytes = p.right 2 := by
  cases d <;> simp [Delimiter.openingBytes_output, Delimiter.openingBytes_statement,
    Delimiter.openingBytes_comment, Position.afterByte, Position.right, Int.add_assoc]

theorem Position.afterBytes_closingBytes (p : Position) (d : Delimiter) :
    p.afterBytes d.closingBytes = p.right 2 := by
  cases d <;> simp [Delimiter.closingBytes_output, Delimiter.closingBytes_statement,
    Delimiter.closingBytes_comment, Position.afterByte, Position.right, Int.add_assoc]

namespace Construct

theorem delimiterOf?_eq_some_iff {b : UInt8} {d : Delimiter} :
    delimiterOf? b = some d ↔ d.openingBytes = [brace, b] := by
  unfold delimiterOf?
  by_cases output : b = brace
  · subst output
    cases d <;> decide
  by_cases statement : b = percent
  · subst statement
    cases d <;> decide
  by_cases comment : b = 35
  · subst comment
    cases d <;> decide
  · rw [if_neg output, if_neg statement, if_neg comment]
    cases d
    · simpa [Delimiter.openingBytes_output, brace] using Ne.symm output
    · simpa [Delimiter.openingBytes_statement, brace, percent] using Ne.symm statement
    · simpa [Delimiter.openingBytes_comment, brace] using Ne.symm comment

theorem splitOpener?_eq_some_iff {data rest : List UInt8} {d : Delimiter} :
    splitOpener? data = some (d, rest) ↔ data = d.openingBytes ++ rest := by
  constructor
  · intro h
    match data, h with
    | b :: mark :: tail, h =>
        by_cases hb : b = brace
        · rw [splitOpener?, if_pos hb] at h
          obtain ⟨found, hfound, hpair⟩ := Option.map_eq_some_iff.1 h
          cases hpair
          rw [delimiterOf?_eq_some_iff.1 hfound, hb]
          rfl
        · rw [splitOpener?, if_neg hb] at h
          cases h
  · rintro rfl
    cases d <;> rfl

/-! ## Text -/

def Opens (data : List UInt8) : Prop := ∃ d : Delimiter, d.openingBytes <+: data

theorem isSome_splitOpener? {data : List UInt8} :
    (splitOpener? data).isSome = true ↔ Opens data := by
  rw [Option.isSome_iff_exists]
  constructor
  · rintro ⟨⟨d, rest⟩, h⟩
    exact ⟨d, rest, (splitOpener?_eq_some_iff.1 h).symm⟩
  · rintro ⟨d, rest, h⟩
    exact ⟨(d, rest), splitOpener?_eq_some_iff.2 h.symm⟩

/-- No delimiter begins within `text`, which `rest` follows. -/
def IsText (text rest : List UInt8) : Prop :=
  ∀ before after, text = before ++ after → after ≠ [] → ¬ Opens (after ++ rest)

theorem spanText_append (data : List UInt8) : (spanText data).1 ++ (spanText data).2 = data := by
  induction data with
  | nil => rfl
  | cons b rest ih =>
      by_cases opens : (splitOpener? (b :: rest)).isSome = true
      · rw [spanText_of_isSome opens, List.nil_append]
      · rw [spanText_of_not_isSome opens, List.cons_append, ih]

theorem isText_nil (rest : List UInt8) : IsText [] rest := by
  intro before after split nonempty
  exact absurd (List.append_eq_nil_iff.1 split.symm).2 nonempty

theorem isText_spanText (data : List UInt8) : IsText (spanText data).1 (spanText data).2 := by
  induction data with
  | nil => exact isText_nil []
  | cons b rest ih =>
      by_cases opens : (splitOpener? (b :: rest)).isSome = true
      · rw [spanText_of_isSome opens]
        exact isText_nil _
      · rw [spanText_of_not_isSome opens]
        intro before after h nonempty
        cases before with
        | nil =>
            rw [List.nil_append] at h
            subst h
            rw [List.cons_append, spanText_append]
            exact fun occurs => opens (isSome_splitOpener?.2 occurs)
        | cons c before =>
            simp only [List.cons_append, List.cons.injEq] at h
            exact ih before after h.2 nonempty

/-- After a text the bytes end or a delimiter stands. -/
theorem opens_after_spanText (data : List UInt8) :
    (spanText data).2 = [] ∨ Opens (spanText data).2 := by
  induction data with
  | nil => exact .inl rfl
  | cons b rest ih =>
      by_cases opens : (splitOpener? (b :: rest)).isSome = true
      · rw [spanText_of_isSome opens]
        exact .inr (isSome_splitOpener?.1 opens)
      · rw [spanText_of_not_isSome opens]
        exact ih

theorem spanText_ne_nil {b : UInt8} {rest : List UInt8} (h : splitOpener? (b :: rest) = none) :
    (spanText (b :: rest)).1 ≠ [] := by
  rw [spanText_of_not_isSome (by rw [h]; exact Bool.false_ne_true)]
  exact List.cons_ne_nil _ _

theorem splitOpener?_eq_none_iff {data : List UInt8} : splitOpener? data = none ↔ ¬ Opens data := by
  rw [← isSome_splitOpener?]
  simp

/-- A text ends where a delimiter begins and no sooner. -/
theorem spanText_of_isText {text rest : List UInt8} (h : IsText text rest)
    (ends : rest = [] ∨ Opens rest) : spanText (text ++ rest) = (text, rest) := by
  induction text with
  | nil =>
      rcases ends with rfl | opens
      · rfl
      · cases rest with
        | nil => rfl
        | cons b rest => exact spanText_of_isSome (isSome_splitOpener?.2 opens)
  | cons b text ih =>
      have closed : ¬ (splitOpener? (b :: (text ++ rest))).isSome = true :=
        mt isSome_splitOpener?.1 (h [] (b :: text) rfl (List.cons_ne_nil b text))
      have others : IsText text rest := by
        intro before after split nonempty
        exact h (b :: before) after (by rw [split, List.cons_append]) nonempty
      rw [List.cons_append, spanText_of_not_isSome closed, ih others]

/-! ## Content -/

theorem nil_isPrefixOf? (data : List UInt8) : ([] : List UInt8).isPrefixOf? data = some data := rfl

theorem cons_isPrefixOf?_nil (b : UInt8) (needle : List UInt8) :
    (b :: needle).isPrefixOf? [] = none := rfl

theorem cons_isPrefixOf?_cons (b c : UInt8) (needle data : List UInt8) :
    (b :: needle).isPrefixOf? (c :: data) = if b == c then needle.isPrefixOf? data else none := rfl

theorem isPrefixOf?_eq_some_iff {needle data rest : List UInt8} :
    needle.isPrefixOf? data = some rest ↔ data = needle ++ rest := by
  induction needle generalizing data with
  | nil => simp [nil_isPrefixOf?, eq_comm]
  | cons b needle ih =>
      cases data with
      | nil => simp [cons_isPrefixOf?_nil]
      | cons c data =>
          by_cases h : b = c
          · subst h
            simp [cons_isPrefixOf?_cons, ih]
          · have different : (b == c) = false := by simpa using h
            simp [cons_isPrefixOf?_cons, different, Ne.symm h]

theorem isPrefix_of_splitAtFirst? {needle data before after : List UInt8}
    (h : Text.splitAtFirst? needle data = some (before, after)) : needle <+: after := by
  induction data generalizing before with
  | nil =>
      simp only [Text.splitAtFirst?] at h
      split at h
      · next empty =>
        rw [List.isEmpty_iff.1 empty]
        exact List.nil_prefix
      · cases h
  | cons b data ih =>
      simp only [Text.splitAtFirst?] at h
      split at h
      · next begins =>
        cases h
        exact List.isPrefixOf_iff_prefix.1 begins
      · obtain ⟨found, hfound, hpair⟩ := Option.map_eq_some_iff.1 h
        cases hpair
        exact ih hfound

theorem append_of_splitAnywhere? {closer data content rest : List UInt8}
    (h : splitAnywhere? closer data = some (content, rest)) :
    data = content ++ closer ++ rest := by
  obtain ⟨⟨before, after⟩, found, hpair⟩ := Option.map_eq_some_iff.1 h
  cases hpair
  have whole := Text.append_of_splitAtFirst? found
  obtain ⟨tail, rfl⟩ := isPrefix_of_splitAtFirst? found
  simp [← whole]

theorem append_of_splitUnquoted? {closer data content rest : List UInt8} {quote : Option UInt8}
    (h : splitUnquoted? closer quote data = some (content, rest)) :
    data = content ++ closer ++ rest := by
  fun_induction splitUnquoted? closer quote data generalizing content with
  | case1 => cases h
  | case2 => cases h
  | case3 quote b tail ih =>
      obtain ⟨found, hfound, hpair⟩ := Option.map_eq_some_iff.1 h
      cases hpair
      simp [ih hfound]
  | case4 quote b tail _ _ ih =>
      obtain ⟨found, hfound, hpair⟩ := Option.map_eq_some_iff.1 h
      cases hpair
      simp [ih hfound]
  | case5 b tail _ ih =>
      obtain ⟨found, hfound, hpair⟩ := Option.map_eq_some_iff.1 h
      cases hpair
      simp [ih hfound]
  | case6 b tail _ after begins =>
      cases h
      simpa using isPrefixOf?_eq_some_iff.1 begins
  | case7 b tail _ _ ih =>
      obtain ⟨found, hfound, hpair⟩ := Option.map_eq_some_iff.1 h
      cases hpair
      simp [ih hfound]

theorem append_of_splitContent? {d : Delimiter} {data content rest : List UInt8}
    (h : splitContent? d data = some (content, rest)) :
    data = content ++ d.closingBytes ++ rest := by
  have either : ∀ quoted : Option (List UInt8 × List UInt8),
      (splitUnquoted? d.closingBytes none data).or quoted = some (content, rest) →
        splitUnquoted? d.closingBytes none data = some (content, rest) ∨
          quoted = some (content, rest) := by
    intro quoted hor
    cases hsplit : splitUnquoted? d.closingBytes none data with
    | none => exact .inr (by simpa [hsplit] using hor)
    | some found => exact .inl (by simpa [hsplit] using hor)
  cases d with
  | comment => exact append_of_splitAnywhere? h
  | output => exact (either _ h).elim append_of_splitUnquoted? append_of_splitAnywhere?
  | statement => exact (either _ h).elim append_of_splitUnquoted? append_of_splitAnywhere?

/-! ## Raw blocks -/

def IsRawClose (tag : List UInt8) : Prop :=
  ∃ before after : List UInt8, (∀ b ∈ before, isSpace b = true) ∧ (∀ b ∈ after, isSpace b = true) ∧
    tag = [brace, percent] ++ before ++ Text.Utf8.encode "/raw" ++ after ++ [percent, 125]

theorem span_append_of_head {p : UInt8 → Bool} {taken : List UInt8}
    (all : ∀ b ∈ taken, p b = true) {c : UInt8} (stop : p c = false) (rest : List UInt8) :
    (taken ++ c :: rest).takeWhile p = taken ∧ (taken ++ c :: rest).dropWhile p = c :: rest := by
  constructor
  · rw [List.takeWhile_append_of_pos all, List.takeWhile_cons_of_neg (by simp [stop]),
      List.append_nil]
  · rw [List.dropWhile_append_of_pos all, List.dropWhile_cons_of_neg (by simp [stop])]

theorem splitRawClose?_eq_some_iff {data tag rest : List UInt8} :
    splitRawClose? data = some (tag, rest) ↔ IsRawClose tag ∧ data = tag ++ rest := by
  unfold splitRawClose?
  simp only [Option.bind_eq_bind, Option.bind_eq_some_iff, isPrefixOf?_eq_some_iff,
    Option.pure_def, Option.some.injEq, Prod.mk.injEq]
  constructor
  · rintro ⟨inside, hopen, named, hname, after, hclose, rfl, rfl⟩
    refine ⟨⟨_, _, List.all_eq_true.1 List.all_takeWhile, List.all_eq_true.1 List.all_takeWhile,
      rfl⟩, ?_⟩
    calc data = [brace, percent] ++ inside := hopen
      _ = [brace, percent] ++ (inside.takeWhile isSpace ++ inside.dropWhile isSpace) := by
          rw [List.takeWhile_append_dropWhile]
      _ = [brace, percent] ++ (inside.takeWhile isSpace ++ (Text.Utf8.encode "/raw" ++
            (named.takeWhile isSpace ++ named.dropWhile isSpace))) := by
          rw [hname, List.takeWhile_append_dropWhile]
      _ = _ := by simp [hclose]
  · rintro ⟨⟨before, after, hbefore, hafter, rfl⟩, rfl⟩
    have slash : Text.Utf8.encode "/raw" = 47 :: [114, 97, 119] := by decide
    obtain ⟨taken, dropped⟩ := span_append_of_head hbefore
      (show isSpace 47 = false by decide) ([114, 97, 119] ++ after ++ [percent, 125] ++ rest)
    obtain ⟨taken', dropped'⟩ := span_append_of_head hafter
      (show isSpace percent = false by decide) (125 :: rest)
    refine ⟨before ++ 47 :: ([114, 97, 119] ++ after ++ [percent, 125] ++ rest), ?_,
      after ++ percent :: 125 :: rest, ?_, rest, ?_, ?_, rfl⟩
    · simp [slash]
    · rw [dropped, slash]
      simp
    · simp [dropped']
    · rw [taken, taken']

theorem append_of_splitRawBody? {data body tag rest : List UInt8}
    (h : splitRawBody? data = some (body, tag, rest)) : data = body ++ tag ++ rest := by
  induction data generalizing body with
  | nil => cases h
  | cons b data ih =>
      simp only [splitRawBody?] at h
      split at h
      · next found =>
        cases h
        exact (splitRawClose?_eq_some_iff.1 found).2
      · obtain ⟨⟨before, others⟩, hfound, hpair⟩ := Option.map_eq_some_iff.1 h
        cases hpair
        simp [ih hfound]

end Construct

end Templating
