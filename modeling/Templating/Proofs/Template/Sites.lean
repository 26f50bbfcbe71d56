import Templating.Proofs.Template.Columns
import Templating.Proofs.Template.Nesting

/-!
# Where nodes stand

Each construct of a source has the line and the column of its first byte.  The nodes inside of a tag
have theirs but for the column, which counts characters from the start of the tag or of the line: it
is that of the node's first byte exactly if the characters before it there take a byte each.
-/

namespace Templating

/-! ## Expressions -/

namespace Expression

open Remaining

/-- The nodes are written one behind the other at the start of the text, and what comes after them
is left.  `At` holds of each node's position and the text from the node on. -/
inductive Written (At : List Char → Position → Prop) : List Char → List Node → List Char → Prop
  | nil (cs : List Char) : Written At cs [] cs
  | separator {c : Char} {cs left : List Char} {nodes : List Node} :
      Text.isBlank c = true ∨ c = ',' → Written At cs nodes left → Written At (c :: cs) nodes left
  | string {quote : Char} {rest left : List Char} {content : String} {p : Position}
      {after : Remaining} {nodes : List Node} :
      isQuote quote = true → At (quote :: rest) p →
      readString ⟨quote :: rest, p⟩ quote rest = .ok (content, after) →
      Written At after.chars nodes left →
      Written At (quote :: rest) (.constant p (.string content) :: nodes) left
  | number {cs left : List Char} {value : Value} {p : Position} {after : Remaining}
      {nodes : List Node} :
      At cs p → readNumber? ⟨cs, p⟩ = some (.ok (value, after)) →
      Written At after.chars nodes left → Written At cs (.constant p value :: nodes) left
  | path {cs rest left : List Char} {name : String} {p : Position} {node : Node}
      {after : Remaining} {nodes : List Node} :
      At cs p → splitName? cs = some (name, rest) → rest.head? ≠ some '(' →
      readPath p name ⟨rest, p.right name.length⟩ = .ok (node, after) →
      Written At after.chars nodes left → Written At cs (node :: nodes) left
  | call {cs rest mid left : List Char} {name : String} {p : Position} {params nodes : List Node} :
      At cs p → splitName? cs = some (name, '(' :: rest) → Written At rest params (')' :: mid) →
      Written At mid nodes left → Written At cs (.tag p name params none none :: nodes) left

/-- The parameters of a tag are written in parentheses or without, up to the end. -/
inductive WrittenToEnd (At : List Char → Position → Prop) (cs : List Char) (params : List Node) :
    Prop
  | plain : Written At cs params [] → WrittenToEnd At cs params
  | inParentheses {blanks inside blanks' : List Char} :
      cs = blanks ++ '(' :: inside → (∀ c ∈ blanks, Text.isBlank c = true) →
      Written At inside params (')' :: blanks') → (∀ c ∈ blanks', Text.isBlank c = true) →
      WrittenToEnd At cs params

/-- `At` holds of all places that can be reached. -/
def Tracks (At : List Char → Position → Prop) (r : Remaining) : Prop :=
  ∀ after, r.Reaches after → At after.chars after.position

theorem exists_blanks (r : Remaining) :
    ∃ blanks, r.chars = blanks ++ r.skipBlanks.chars ∧ ∀ c ∈ blanks, Text.isBlank c = true := by
  obtain ⟨cs, p⟩ := r
  induction cs generalizing p with
  | nil => exact ⟨[], rfl, by simp⟩
  | cons c cs ih =>
      by_cases blank : Text.isBlank c = true
      · obtain ⟨blanks, whole, all⟩ := ih (p.afterChar c)
        rw [← skipBlanks_blank blank] at whole
        exact ⟨c :: blanks, congrArg (c :: ·) whole, by simpa [blank] using all⟩
      · rw [skipBlanks_cons (by simpa using blank)]
        exact ⟨[], rfl, by simp⟩

variable {At : List Char → Position → Prop} {r after : Remaining}

theorem Tracks.reaches (h : Tracks At r) (reaches : r.Reaches after) : Tracks At after :=
  fun place further => h place (reaches.trans further)

theorem Tracks.skipBlanks (h : Tracks At r) : Tracks At r.skipBlanks :=
  h.reaches (reaches_skipBlanks r)

theorem Tracks.here (h : Tracks At r) : At r.chars r.position := h r (.refl r)

namespace Written

variable {cs left : List Char} {nodes : List Node}

theorem blanks {blanks : List Char} (all : ∀ c ∈ blanks, Text.isBlank c = true)
    (h : Written At cs nodes left) : Written At (blanks ++ cs) nodes left := by
  induction blanks with
  | nil => exact h
  | cons c blanks ih =>
      exact .separator (.inl (all c List.mem_cons_self))
        (ih fun d member => all d (List.mem_cons_of_mem c member))

theorem skipBlanks (h : Written At r.skipBlanks.chars nodes left) :
    Written At r.chars nodes left := by
  obtain ⟨blanks, whole, all⟩ := exists_blanks r
  rw [whole]
  exact h.blanks all

theorem of_atEnd (h : r.AtEnd) : Written At r.chars [] [] := by
  refine skipBlanks ?_
  rw [show r.skipBlanks.chars = [] from h]
  exact .nil []

end Written

theorem chars_of_take? {c : Char} (h : r.take? c = some after) : r.chars = c :: after.chars := by
  obtain ⟨rest, whole, rfl⟩ := take?_eq_some_iff.1 h
  exact whole

-- An expression is written in front of others, so that a list of them needs no case of its own.
theorem Reads.written {phrase : Phrase} (h : Reads r phrase after) (tracks : Tracks At r) :
    match phrase with
    | .expression node => ∀ nodes left, Written At after.chars nodes left →
        Written At r.chars (node :: nodes) left
    | .arguments params | .list params => Written At r.chars params (')' :: after.chars) := by
  induction h with
  | @string r after quote rest content hchars quoted read =>
      intro nodes left others
      have here := tracks.skipBlanks.here
      refine Written.skipBlanks ?_
      rw [hchars] at here ⊢
      have whole : r.skipBlanks = ⟨quote :: rest, r.skipBlanks.position⟩ := by rw [← hchars]
      rw [whole] at read
      exact .string quoted here read others
  | @number r after value read =>
      intro nodes left others
      exact Written.skipBlanks (.number tracks.skipBlanks.here read others)
  | @path r after name rest node split paren read =>
      intro nodes left others
      have noCall : rest.head? ≠ some '(' := by
        cases rest with
        | nil => simp
        | cons c rest =>
            rintro ⟨⟩
            simp [jump, take?] at paren
      exact Written.skipBlanks (.path tracks.skipBlanks.here split noCall read others)
  | @call r inside after name rest params split paren _ ih =>
      intro nodes left others
      have named := (reaches_skipBlanks r).trans (reaches_of_splitName? split)
      have opened := named.trans (reaches_of_take? (by decide) paren)
      have inner := ih (tracks.reaches opened)
      have whole : rest = '(' :: inside.chars := chars_of_take? paren
      rw [whole] at split
      exact Written.skipBlanks (.call tracks.skipBlanks.here split inner others)
  | @noArguments r after paren =>
      refine Written.skipBlanks ?_
      rw [chars_of_take? paren]
      exact .nil _
  | @someArguments r after params _ _ ih => exact Written.skipBlanks (ih tracks.skipBlanks)
  | @last r mid after node _ paren ih =>
      refine ih tracks [] _ (Written.skipBlanks ?_)
      rw [chars_of_take? paren]
      exact .nil _
  | @more r mid next after node params reads _ comma _ ih ih' =>
      have come := reads.reaches.1.trans
        ((reaches_skipBlanks mid).trans (reaches_of_take? (by decide) comma))
      refine ih tracks params _ (Written.skipBlanks ?_)
      rw [chars_of_take? comma]
      exact .separator (.inr rfl) (ih' (tracks.reaches come))

theorem ReadsToEnd.written {params : List Node} (h : ReadsToEnd r params) (tracks : Tracks At r) :
    Written At r.chars params [] := by
  induction h with
  | nil ends => exact .of_atEnd ends
  | @cons r next after node params comma first _ ih =>
      have come := (reaches_skipBlanks r).trans (reaches_of_take? (by decide) comma)
      refine Written.skipBlanks ?_
      rw [chars_of_take? comma]
      refine .separator (.inr rfl) (first.written (tracks.reaches come) params [] ?_)
      exact ih ((tracks.reaches come).reaches first.reaches.1)

theorem Parameters.written {params : List Node} (h : Parameters r params) (tracks : Tracks At r) :
    WrittenToEnd At r.chars params := by
  cases h with
  | none ends => exact .plain (.of_atEnd ends)
  | @inParentheses inside after _ paren reads ends =>
      have come := (reaches_skipBlanks r).trans (reaches_of_take? (by decide) paren)
      obtain ⟨blanks, whole, all⟩ := exists_blanks r
      obtain ⟨blanks', whole', all'⟩ := exists_blanks after
      rw [chars_of_take? paren] at whole
      rw [show after.skipBlanks.chars = [] from ends, List.append_nil] at whole'
      exact .inParentheses whole all (reads.written (tracks.reaches come)) (whole' ▸ all')
  | listed _ first others =>
      have later := tracks.skipBlanks.reaches first.reaches.1
      exact .plain (Written.skipBlanks
        (first.written tracks.skipBlanks _ [] (others.written later)))

end Expression

/-! ## Tags -/

/-- The text is the rest of the content of a tag that begins behind the bytes, and the position has
the line of the text and, but for the surplus of what is before it, the column. -/
def Placed (before : List UInt8) (content cs : List Char) (p : Position) : Prop :=
  ∃ passed, content = passed ++ cs ∧
    p.right (surplus passed) = .following (before ++ encodeChars passed) ∧
    (p = .following (before ++ encodeChars passed) ↔
      ∀ c ∈ passed.rtakeWhile (· != '\n'), c.toNat < 128)

theorem Position.eq_right_iff {p : Position} {n : Nat} : p = p.right n ↔ n = 0 := by
  obtain ⟨line, column⟩ := p
  simp only [right, mk.injEq, true_and]
  omega

theorem tracks_placed (before : List UInt8) (chars : List Char) :
    Expression.Tracks (Placed before chars) ⟨chars, .following before⟩ := by
  rintro after ⟨passed, whole, position, -⟩
  have exact' : Position.following (before ++ encodeChars passed) =
      after.position.right (surplus passed) := by
    rw [Position.following_append, Position.afterBytes_encodeChars, position]
  refine ⟨passed, whole, exact'.symm, ?_⟩
  rw [exact', Position.eq_right_iff, surplus_eq_zero_iff]

namespace Construct

open Expression

/-- The content of a tag is its name with what comes before and after it. -/
inductive Names (name : String) (tail : List Char) : Bool → List Char → Prop
  | inline {blanks : List Char} :
      (∀ c ∈ blanks, Text.isBlank c = true) →
      Names name tail false (blanks ++ (name.toList ++ tail))
  | opening {blanks blanks' : List Char} :
      (∀ c ∈ blanks, Text.isBlank c = true) → (∀ c ∈ blanks', Text.isBlank c = true) →
      Names name tail true (blanks ++ '#' :: (blanks' ++ (name.toList ++ tail)))

/-- The construct is written in the bytes that stand behind others, and it and the nodes in it have
their positions there. -/
inductive Sited (before : List UInt8) : List UInt8 → Construct → Prop
  | text {cs : List Char} :
      Sited before (encodeChars cs) (.text (.following before) (String.ofList cs))
  | output {chars : List Char} {node : Node} :
      Written (Placed (before ++ Delimiter.output.openingBytes) chars) chars [node] [] →
      Sited before
        (Delimiter.output.openingBytes ++ encodeChars chars ++ Delimiter.output.closingBytes)
        (.inline (.following before) "get" [node])
  | inline {chars tail : List Char} {name : String} {params : List Node} :
      Names name tail false chars →
      WrittenToEnd (Placed (before ++ Delimiter.statement.openingBytes) chars) tail params →
      Sited before
        (Delimiter.statement.openingBytes ++ encodeChars chars ++ Delimiter.statement.closingBytes)
        (.inline (.following before) name params)
  | opening {chars tail : List Char} {name : String} {params : List Node} :
      Names name tail true chars →
      WrittenToEnd (Placed (before ++ Delimiter.statement.openingBytes) chars) tail params →
      Sited before
        (Delimiter.statement.openingBytes ++ encodeChars chars ++ Delimiter.statement.closingBytes)
        (.opening (.following before) name params)
  | rawBlock {chars tail text : List Char} {params : List Node} {tag : List UInt8} :
      Names "raw" tail true chars →
      WrittenToEnd (Placed (before ++ Delimiter.statement.openingBytes) chars) tail params →
      Sited before
        (Delimiter.statement.openingBytes ++ encodeChars chars ++
          Delimiter.statement.closingBytes ++ encodeChars text ++ tag)
        (.rawBlock (.following before) params
          (if (encodeChars text).isEmpty then none
          else some (.following (before ++ (Delimiter.statement.openingBytes ++ encodeChars chars ++
            Delimiter.statement.closingBytes)), String.ofList text)))
  /-- No node stands for an else or a closing. -/
  | otherwise {bytes : List UInt8} : Sited before bytes (.otherwise (.following before))
  | closing {bytes : List UInt8} {name : String} :
      Sited before bytes (.closing (.following before) name)

theorem exists_of_readName {r after : Remaining} {name : String}
    (h : readName r = .ok (name, after)) :
    ∃ blanks, r.chars = blanks ++ (name.toList ++ after.chars) ∧
      ∀ c ∈ blanks, Text.isBlank c = true := by
  obtain ⟨blanks, whole, all⟩ := exists_blanks r
  unfold readName at h
  simp only at h
  split at h
  · next split =>
    cases h
    rw [(splitName?_eq_some split).1] at whole
    exact ⟨blanks, whole, all⟩
  · cases h

theorem encodeChars_of_decode {bytes : List UInt8} {chars : List Char}
    (h : Text.Utf8.decode bytes = .ok chars) : encodeChars chars = bytes :=
  Text.Utf8.flatMap_of_decode h

theorem following_opened (before : List UInt8) (d : Delimiter) :
    (Position.following before).right 2 = .following (before ++ d.openingBytes) := by
  rw [Position.following_append, Position.afterBytes_openingBytes]

section Contents

variable {before : List UInt8} {chars : List Char} {inside after : Remaining} {name : String}
  {params : List Node}

theorem opening_written
    (hash : (Remaining.skipBlanks ⟨chars, .following before⟩).take? '#' = some inside)
    (named : readName inside = .ok (name, after)) (parameters : Parameters after params) :
    Names name after.chars true chars ∧ WrittenToEnd (Placed before chars) after.chars params := by
  obtain ⟨blanks, whole, all⟩ := exists_blanks ⟨chars, .following before⟩
  obtain ⟨blanks', whole', all'⟩ := exists_of_readName named
  rw [chars_of_take? hash, whole'] at whole
  have come := ((Remaining.reaches_skipBlanks _).trans
    (Remaining.reaches_of_take? (by decide) hash)).trans (reaches_of_readName named)
  have written := parameters.written ((tracks_placed before chars).reaches come)
  obtain rfl : chars = _ := whole
  exact ⟨.opening all all', written⟩

theorem inline_written
    (named : readName (Remaining.skipBlanks ⟨chars, .following before⟩) = .ok (name, after))
    (parameters : Parameters after params) :
    Names name after.chars false chars ∧ WrittenToEnd (Placed before chars) after.chars params := by
  obtain ⟨blanks, whole, all⟩ := exists_blanks ⟨chars, .following before⟩
  obtain ⟨blanks', whole', all'⟩ := exists_of_readName named
  rw [whole', ← List.append_assoc] at whole
  have come := (Remaining.reaches_skipBlanks _).trans (reaches_of_readName named)
  have written := parameters.written ((tracks_placed before chars).reaches come)
  obtain rfl : chars = _ := whole
  refine ⟨.inline fun c member => ?_, written⟩
  exact (List.mem_append.1 member).elim (all c) (all' c)

end Contents

theorem Piece.sited {before bytes rest : List UInt8} {c : Construct}
    (h : Piece (.following before) bytes rest (some c)) : c.Sited before bytes := by
  cases h with
  | text _ _ _ decoded =>
      rw [← encodeChars_of_decode decoded]
      exact .text
  | output _ decoded output =>
      rw [following_opened before .output] at output
      cases output with
      | expression reads ends =>
          rw [← encodeChars_of_decode decoded]
          exact .output (reads.written (tracks_placed _ _) [] [] (.of_atEnd ends))
  | statement _ decoded statement =>
      rw [← encodeChars_of_decode decoded]
      rw [following_opened before .statement] at statement
      cases statement with
      | closing => exact .closing
      | otherwise => exact .otherwise
      | opening _ hash named parameters =>
          obtain ⟨names, written⟩ := opening_written hash named parameters
          exact .opening names written
      | inline _ _ named _ parameters =>
          obtain ⟨names, written⟩ := inline_written named parameters
          exact .inline names written
  | rawBlock _ decoded statement place _ decodedBody =>
      rw [← Position.following_append] at place
      rw [place, ← encodeChars_of_decode decoded, ← encodeChars_of_decode decodedBody]
      rw [following_opened before .statement] at statement
      cases statement with
      | opening _ hash named parameters =>
          obtain ⟨names, written⟩ := opening_written hash named parameters
          exact .rawBlock names written

/-- The source behind some bytes is cut into constructs, each where its positions say. -/
inductive Sites : List UInt8 → List UInt8 → List Construct → Prop
  | nil (before : List UInt8) : Sites before [] []
  | step {before bytes rest : List UInt8} {c : Option Construct} {constructs : List Construct} :
      Piece (.following before) bytes rest c → (∀ own, c = some own → own.Sited before bytes) →
      Sites (before ++ bytes) rest constructs →
      Sites before (bytes ++ rest) (c.toList ++ constructs)

theorem Reads.sites {p q : Position} {data left : List UInt8} {constructs : List Construct}
    (h : Reads p data constructs q left) (complete : left = []) {before : List UInt8}
    (place : p = .following before) : Sites before data constructs := by
  induction h generalizing before with
  | refl =>
      subst complete
      exact .nil before
  | step piece _ ih =>
      subst place
      refine .step piece ?_ (ih complete (Position.following_append before _).symm)
      rintro own rfl
      exact piece.sited

end Construct

/-! ## Templates -/

namespace Template

/-- A template that is accepted is cut into the constructs that its tree comes from, and every node
of the tree stands where its position says, but that inside of a tag columns count characters: there
the column is that of the node's first byte exactly if the characters before it, from the start of
the tag or of the line, take a byte each. -/
theorem sites_of_parse {file : String} {data : List UInt8} {tree : List Node}
    (h : parse file data = .ok tree) :
    ∃ constructs, Construct.Sites [] data constructs ∧
      walk tree = constructs.map Construct.mark := by
  obtain ⟨constructs, reads, -, walked, -⟩ := walk_of_parse h
  exact ⟨constructs, reads.sites rfl rfl, walked⟩

/-- A comment, a block over two lines, and a call behind an accent in it. -/
def scatteredSource : List UInt8 :=
  Text.Utf8.encode ("\x7b# é #\x7d\n\x7b% #if\n 'é' %\x7d\x7b\x7b f(a.b, 1) \x7d\x7d" ++
    "\x7b% /if %\x7d")

theorem sites_scatteredSource :
    ∃ tree, parse "page" scatteredSource = .ok tree ∧ ∃ constructs,
      Construct.Sites [] scatteredSource constructs ∧
        walk tree = constructs.map Construct.mark := by
  have accepted : (parse "page" scatteredSource).isOk = true := by decide +kernel
  obtain ⟨tree, parsed⟩ := exists_of_isOk accepted
  exact ⟨tree, parsed, sites_of_parse parsed⟩

/-- A call whose second parameter stands behind an accent. -/
def accentedSource : List UInt8 := Text.Utf8.encode "\x7b\x7b f(\"é\", x) \x7d\x7d"

/-- Where the tree of a single call has the `x` that is its second parameter. -/
def secondParameter? : List Node → Option Position
  | [.tag _ "get" [.tag _ _ [_, .identifier p [.key "x"]] none none] none none] => some p
  | _ => none

/-- The only `x` of the source is its twelfth byte and, in the tree, its eleventh. -/
theorem column_behind_accent :
    (parse "page" accentedSource).toOption.bind secondParameter? = some ⟨1, 10⟩ ∧
    ∃ before after, accentedSource = before ++ 120 :: after ∧ 120 ∉ before ∧ 120 ∉ after ∧
      Position.following before = ⟨1, 11⟩ :=
  ⟨by decide +kernel, accentedSource.take 11, accentedSource.drop 12, by decide, by decide,
    by decide, by decide⟩

end Template

end Templating
