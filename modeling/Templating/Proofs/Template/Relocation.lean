import Templating.Proofs.Template.Nesting

/-!
# Sources that begin elsewhere

Reading looks at no position: it counts columns and begins new lines.  A map of positions that keeps
this count takes what is read at one place to what is read at another.
-/

namespace Templating

/-! ## Positions -/

namespace Position

/-- Moves to the right and to the next line are kept. -/
structure Carries (f : Position → Position) : Prop where
  right : ∀ p n, f (p.right n) = (f p).right n
  nextLine : ∀ p : Position, 1 ≤ p.line → f p.nextLine = (f p).nextLine

theorem line_le_afterByte (p : Position) (b : UInt8) : p.line ≤ (p.afterByte b).line := by
  unfold afterByte
  split
  · simp only [nextLine]
    omega
  · exact Int.le_refl _

theorem line_le_afterChar (p : Position) (c : Char) : p.line ≤ (p.afterChar c).line := by
  unfold afterChar
  split
  · simp only [nextLine]
    omega
  · exact Int.le_refl _

theorem line_le_afterBytes (p : Position) (bytes : List UInt8) :
    p.line ≤ (p.afterBytes bytes).line := by
  rw [line_afterBytes]
  omega

theorem line_le_afterChars (p : Position) (cs : List Char) : p.line ≤ (p.afterChars cs).line := by
  induction cs generalizing p with
  | nil => exact Int.le_refl _
  | cons c cs ih => exact Int.le_trans (line_le_afterChar p c) (ih (p.afterChar c))

namespace Carries

variable {f : Position → Position} (carries : Carries f) {p : Position} (positive : 1 ≤ p.line)

include carries positive

theorem afterByte (b : UInt8) : f (p.afterByte b) = (f p).afterByte b := by
  unfold Position.afterByte
  split
  · exact carries.nextLine p positive
  · exact carries.right p 1

theorem afterChar (c : Char) : f (p.afterChar c) = (f p).afterChar c := by
  unfold Position.afterChar
  split
  · exact carries.nextLine p positive
  · exact carries.right p 1

theorem afterBytes (bytes : List UInt8) : f (p.afterBytes bytes) = (f p).afterBytes bytes := by
  induction bytes generalizing p with
  | nil => rfl
  | cons b bytes ih =>
      rw [afterBytes_cons, afterBytes_cons, ← carries.afterByte positive]
      exact ih (Int.le_trans positive (line_le_afterByte p b))

end Carries

end Position

/-! ## What has positions -/

mutual

def Node.relocate (f : Position → Position) : Node → Node
  | .raw p text => .raw (f p) text
  | .constant p v => .constant (f p) v
  | .identifier p path => .identifier (f p) path
  | .tag p name params body orelse =>
    .tag (f p) name (relocateAll f params) (relocateBranch f body) (relocateBranch f orelse)
  | .bare p => .bare (f p)

def relocateAll (f : Position → Position) : List Node → List Node
  | [] => []
  | node :: rest => node.relocate f :: relocateAll f rest

def relocateBranch (f : Position → Position) : Option (List Node) → Option (List Node)
  | none => none
  | some nodes => some (relocateAll f nodes)

end

theorem relocateAll_eq_map (f : Position → Position) (nodes : List Node) :
    relocateAll f nodes = nodes.map (Node.relocate f) := by
  induction nodes with
  | nil => rfl
  | cons node nodes ih => rw [relocateAll, List.map_cons, ih]

mutual

theorem Node.relocate_id : (node : Node) → node.relocate id = node
  | .raw .. | .constant .. | .identifier .. | .bare _ => rfl
  | .tag p name params body orelse => by
      rw [Node.relocate, relocateAll_id params, relocateBranch_id body, relocateBranch_id orelse,
        id_eq]

theorem relocateAll_id : (nodes : List Node) → relocateAll id nodes = nodes
  | [] => rfl
  | node :: rest => by rw [relocateAll, node.relocate_id, relocateAll_id rest]

theorem relocateBranch_id : (branch : Option (List Node)) → relocateBranch id branch = branch
  | none => rfl
  | some nodes => by rw [relocateBranch, relocateAll_id nodes]

end

def Remaining.relocate (f : Position → Position) (r : Remaining) : Remaining :=
  ⟨r.chars, f r.position⟩

def Expression.Phrase.relocate (f : Position → Position) : Expression.Phrase → Expression.Phrase
  | .expression node => .expression (node.relocate f)
  | .arguments params => .arguments (relocateAll f params)
  | .list params => .list (relocateAll f params)

def Construct.relocate (f : Position → Position) : Construct → Construct
  | .text p content => .text (f p) content
  | .inline p name params => .inline (f p) name (relocateAll f params)
  | .opening p name params => .opening (f p) name (relocateAll f params)
  | .otherwise p => .otherwise (f p)
  | .closing p name => .closing (f p) name
  | .rawBlock p params body =>
    .rawBlock (f p) (relocateAll f params) (body.map fun content => (f content.1, content.2))

variable {f : Position → Position} (carries : Position.Carries f)

/-! ## Readers -/

namespace Remaining

theorem Reaches.positive {r after : Remaining} (h : r.Reaches after)
    (positive : 1 ≤ r.position.line) : 1 ≤ after.position.line := by
  obtain ⟨passed, -, position, -⟩ := h
  rw [position]
  exact Int.le_trans positive (Position.line_le_afterChars r.position passed)

include carries

theorem jump_relocate (r : Remaining) (width : Nat) (rest : List Char) :
    (r.relocate f).jump width rest = (r.jump width rest).relocate f := by
  simp [jump, relocate, carries.right]

theorem skipBlanks_relocate {r : Remaining} (positive : 1 ≤ r.position.line) :
    (r.relocate f).skipBlanks = r.skipBlanks.relocate f := by
  obtain ⟨cs, p⟩ := r
  induction cs generalizing p with
  | nil => rfl
  | cons c cs ih =>
      cases blank : Text.isBlank c with
      | false =>
          rw [skipBlanks_cons blank]
          exact skipBlanks_cons blank (f p) cs
      | true =>
          have later := ih (p.afterChar c)
            (Int.le_trans positive (Position.line_le_afterChar p c))
          rw [skipBlanks_blank blank, ← later]
          simp only [relocate, carries.afterChar positive]
          exact skipBlanks_blank blank (f p) cs

theorem take?_relocate (r : Remaining) (c : Char) :
    (r.relocate f).take? c = (r.take? c).map (relocate f) := by
  unfold take?
  simp only [relocate]
  split
  · split
    · simpa [relocate] using jump_relocate carries r 1 _
    · rfl
  · rfl

theorem take?_skipBlanks_relocate {r : Remaining} (positive : 1 ≤ r.position.line) (c : Char) :
    (r.relocate f).skipBlanks.take? c = (r.skipBlanks.take? c).map (relocate f) := by
  rw [skipBlanks_relocate carries positive, take?_relocate carries]

theorem AtEnd.relocate {r : Remaining} (h : r.AtEnd) (positive : 1 ≤ r.position.line) :
    (r.relocate f).AtEnd := by
  rw [AtEnd, skipBlanks_relocate carries positive]
  exact h

end Remaining

namespace Expression

open Remaining

include carries

theorem readName_relocate {r after : Remaining} {name : String}
    (positive : 1 ≤ r.position.line) (h : readName r = .ok (name, after)) :
    readName (r.relocate f) = .ok (name, after.relocate f) := by
  unfold readName at h ⊢
  rw [skipBlanks_relocate carries positive]
  simp only at h ⊢
  split at h
  · next found =>
    cases h
    have found' : splitName? (r.skipBlanks.relocate f).chars = _ := found
    rw [found']
    simp only [jump_relocate carries]
  · cases h

theorem splitQuoted?_relocate {quote : Char} {p : Position} (positive : 1 ≤ p.line)
    (cs : List Char) :
    splitQuoted? quote (f p) cs =
      (splitQuoted? quote p cs).map fun found => (found.1, found.2.relocate f) := by
  fun_induction splitQuoted? quote p cs with
  | case1 => rfl
  | case2 => rfl
  | case3 p c rest ih =>
      have later : 1 ≤ ((p.right 1).afterChar c).line :=
        Int.le_trans positive (Position.line_le_afterChar (p.right 1) c)
      rw [splitQuoted?, ← carries.right, ← carries.afterChar (by exact positive), ih later]
      simp [Option.map_map, Function.comp_def]
  | case4 p rest short escape =>
      rw [splitQuoted?, if_pos rfl, ← carries.right]
      · rfl
      · exact short
      · exact escape
  | case5 p c rest short escape other ih =>
      have later : 1 ≤ (p.afterChar c).line :=
        Int.le_trans positive (Position.line_le_afterChar p c)
      rw [splitQuoted?, if_neg other, ← carries.afterChar positive, ih later]
      · simp [Option.map_map, Function.comp_def]
      · exact short
      · exact escape

theorem readString_relocate {r after : Remaining} {quote : Char} {rest : List Char}
    {content : String} (positive : 1 ≤ r.position.line)
    (h : readString r quote rest = .ok (content, after)) :
    readString (r.relocate f) quote rest = .ok (content, after.relocate f) := by
  unfold readString at h ⊢
  have opened : 1 ≤ (r.position.right 1).line := positive
  simp only [Remaining.relocate, ← carries.right, splitQuoted?_relocate carries opened]
  split at h
  · next found =>
    cases h
    simp [found]
  · cases h

theorem readNumber?_relocate {r after : Remaining} {value : Value}
    (h : readNumber? r = some (.ok (value, after))) :
    readNumber? (r.relocate f) = some (.ok (value, after.relocate f)) := by
  obtain ⟨⟨negative, whole, width, rest⟩, signed, h⟩ := Option.map_eq_some_iff.1 h
  have signed' : splitSigned? (r.relocate f).chars = some (negative, whole, width, rest) := signed
  rw [readNumber?, signed', Option.map_some]
  congr 1
  simp only [jump_relocate carries] at h ⊢
  cases exponent : splitExponent? (splitFraction rest).2 with
  | some found =>
      rw [exponent] at h
      cases h
      rfl
  | none =>
      rw [exponent] at h
      by_cases integral : (splitFraction rest).1.isEmpty = true
      · simp only [if_pos integral, map_eq_ok_iff] at h ⊢
        obtain ⟨n, read, hpair⟩ := h
        cases hpair
        exact ⟨n, read, rfl⟩
      · simp only [if_neg integral] at h ⊢
        cases h
        rfl

theorem readNamedStep_relocate {r after : Remaining} {step : Step}
    (h : readNamedStep r = .ok (step, after)) :
    readNamedStep (r.relocate f) = .ok (step, after.relocate f) := by
  have same : (r.relocate f).chars = r.chars := rfl
  unfold readNamedStep at h ⊢
  simp only [jump_relocate carries, same]
  cases found : splitName? r.chars with
  | some pair =>
      rw [found] at h
      cases h
      rfl
  | none =>
      rw [found] at h
      by_cases empty : (Number.spanDigits r.chars).1.isEmpty = true
      · simp only [if_pos empty] at h
        cases h
      · simp only [if_neg empty, map_eq_ok_iff] at h ⊢
        obtain ⟨n, read, hpair⟩ := h
        cases hpair
        exact ⟨n, read, rfl⟩

theorem readInside_relocate {r after : Remaining} {step : Step} (positive : 1 ≤ r.position.line)
    (h : readInside r = .ok (step, after)) :
    readInside (r.relocate f) = .ok (step, after.relocate f) := by
  have same : (r.relocate f).chars = r.chars := rfl
  unfold readInside at h ⊢
  simp only [jump_relocate carries, same]
  cases hchars : r.chars with
  | nil =>
      rw [hchars] at h
      cases h
  | cons c rest =>
      rw [hchars] at h
      by_cases quote : isQuote c = true
      · simp only [if_pos quote, map_eq_ok_iff] at h ⊢
        obtain ⟨⟨content, left⟩, read, hpair⟩ := h
        cases hpair
        exact ⟨_, readString_relocate carries positive read, rfl⟩
      · simp only [if_neg quote] at h ⊢
        cases signed : splitSigned? (c :: rest) with
        | none =>
            rw [signed] at h
            cases h
        | some found =>
            rw [signed] at h
            simp only [map_eq_ok_iff] at h ⊢
            obtain ⟨n, read, hpair⟩ := h
            cases hpair
            exact ⟨n, read, rfl⟩

theorem readBracketStep_relocate {r after : Remaining} {step : Step}
    (positive : 1 ≤ r.position.line) (h : readBracketStep r = .ok (step, after)) :
    readBracketStep (r.relocate f) = .ok (step, after.relocate f) := by
  have begun := (reaches_skipBlanks r).positive positive
  rw [readBracketStep_eq] at h ⊢
  simp only [bind_eq_ok_iff, closeStep_eq_ok_iff] at h ⊢
  obtain ⟨⟨found, left⟩, read, rfl, closed⟩ := h
  have later := (reaches_of_readInside read).positive begun
  refine ⟨(found, left.relocate f), ?_, rfl, ?_⟩
  · rw [skipBlanks_relocate carries positive]
    exact readInside_relocate carries begun read
  · rw [take?_skipBlanks_relocate carries later, closed]
    rfl

theorem readSteps_relocate {fuel : Nat} {r after : Remaining} {steps : List Step}
    (positive : 1 ≤ r.position.line) (h : readSteps fuel r = .ok (steps, after)) :
    readSteps fuel (r.relocate f) = .ok (steps, after.relocate f) := by
  induction fuel generalizing r steps with
  | zero =>
      cases h
      rfl
  | succ fuel ih =>
      have same : (r.relocate f).chars = r.chars := rfl
      simp only [readSteps, same, jump_relocate carries] at h ⊢
      split at h
      · next rest _ =>
        simp only [bind_eq_ok_iff, pure_eq_ok_iff, Prod.exists] at h ⊢
        obtain ⟨step, mid, first, others, left, more, hpair⟩ := h
        cases hpair
        have later := (reaches_of_readNamedStep first).1.positive positive
        exact ⟨_, _, readNamedStep_relocate carries first, _, _, ih later more, rfl⟩
      · next rest _ =>
        simp only [bind_eq_ok_iff, pure_eq_ok_iff, Prod.exists] at h ⊢
        obtain ⟨step, mid, first, others, left, more, hpair⟩ := h
        cases hpair
        have later := (reaches_of_readBracketStep first).1.positive positive
        exact ⟨_, _, readBracketStep_relocate carries positive first, _, _, ih later more, rfl⟩
      · cases h
        rfl

theorem readPath_relocate {p : Position} {name : String} {r after : Remaining} {node : Node}
    (positive : 1 ≤ r.position.line) (h : readPath p name r = .ok (node, after)) :
    readPath (f p) name (r.relocate f) = .ok (node.relocate f, after.relocate f) := by
  have follow (h : readPath.follow p name r = .ok (node, after)) :
      readPath.follow (f p) name (r.relocate f) = .ok (node.relocate f, after.relocate f) := by
    simp only [readPath.follow, bind_eq_ok_iff, pure_eq_ok_iff, Prod.exists] at h ⊢
    obtain ⟨steps, left, read, hpair⟩ := h
    cases hpair
    exact ⟨steps, _, readSteps_relocate carries positive read, rfl⟩
  have same : (r.relocate f).chars = r.chars := rfl
  unfold readPath at h ⊢
  simp only [same]
  split at h
  · cases h
    rfl
  · split at h
    · next continued =>
      simp only [if_pos continued]
      exact follow h
    · next ended =>
      simp only [if_neg ended]
      cases h
      rfl
  · exact follow h

/-! ## Expressions -/

theorem Reads.relocate {r after : Remaining} {phrase : Phrase} (h : Reads r phrase after)
    (positive : 1 ≤ r.position.line) :
    Reads (r.relocate f) (phrase.relocate f) (after.relocate f) := by
  have begun {r : Remaining} (positive : 1 ≤ r.position.line) : 1 ≤ r.skipBlanks.position.line :=
    (reaches_skipBlanks r).positive positive
  have skip {r : Remaining} (positive : 1 ≤ r.position.line) :
      (r.relocate f).skipBlanks = r.skipBlanks.relocate f := skipBlanks_relocate carries positive
  have take {r : Remaining} (positive : 1 ≤ r.position.line) :=
    take?_skipBlanks_relocate carries positive
  induction h with
  | @string r after quote rest content hchars quoted read =>
      have read' := readString_relocate carries (begun positive) read
      rw [← skip positive] at read'
      have node : Phrase.relocate f
          (.expression (.constant r.skipBlanks.position (.string content))) =
          .expression (.constant (r.relocate f).skipBlanks.position (.string content)) := by
        rw [skip positive]
        rfl
      rw [node]
      exact .string (by rw [skip positive]; exact hchars) quoted read'
  | @number r after value read =>
      have read' := readNumber?_relocate carries read
      rw [← skip positive] at read'
      have node : Phrase.relocate f (.expression (.constant r.skipBlanks.position value)) =
          .expression (.constant (r.relocate f).skipBlanks.position value) := by
        rw [skip positive]
        rfl
      rw [node]
      exact .number read'
  | @path r after name rest node split paren read =>
      have named := (reaches_of_splitName? split).positive (begun positive)
      have read' := readPath_relocate carries named read
      rw [← jump_relocate carries, ← skip positive] at read'
      refine .path (by rw [skip positive]; exact split) ?_ (?_ : readPath _ _ _ = _)
      · rw [skip positive, jump_relocate carries, take?_relocate carries, paren]
        rfl
      · rw [← read', skip positive]
        rfl
  | @call r inside after name rest params split paren reads ih =>
      have named := (reaches_of_splitName? split).positive (begun positive)
      have opened := (reaches_of_take? (by decide) paren).positive named
      have node : Phrase.relocate f
          (.expression (.tag r.skipBlanks.position name params none none)) =
          .expression (.tag (r.relocate f).skipBlanks.position name (relocateAll f params)
            none none) := by
        rw [skip positive]
        rfl
      rw [node]
      refine .call (by rw [skip positive]; exact split) ?_ (ih opened)
      rw [skip positive, jump_relocate carries, take?_relocate carries, paren]
      rfl
  | noArguments paren => exact .noArguments (by rw [take positive, paren]; rfl)
  | someArguments paren _ ih =>
      refine .someArguments (by rw [take positive, paren]; rfl) ?_
      rw [skip positive]
      exact ih (begun positive)
  | last reads paren ih =>
      have later := reads.reaches.1.positive positive
      exact .last (ih positive) (by rw [take later, paren]; rfl)
  | more reads paren comma _ ih ih' =>
      have later := reads.reaches.1.positive positive
      have next := (reaches_of_take? (by decide) comma).positive (begun later)
      exact .more (ih positive) (by rw [take later, paren]; rfl)
        (by rw [take later, comma]; rfl) (ih' next)

theorem ReadsToEnd.relocate {r : Remaining} {params : List Node} (h : ReadsToEnd r params)
    (positive : 1 ≤ r.position.line) : ReadsToEnd (r.relocate f) (relocateAll f params) := by
  induction h with
  | nil blank => exact .nil (blank.relocate carries positive)
  | @cons r _ _ _ _ comma first _ ih =>
      have begun := (reaches_skipBlanks r).positive positive
      have next := (reaches_of_take? (by decide) comma).positive begun
      refine .cons ?_ (first.relocate carries next) (ih (first.reaches.1.positive next))
      rw [take?_skipBlanks_relocate carries positive, comma]
      rfl

theorem Parameters.relocate {r : Remaining} {params : List Node} (h : Parameters r params)
    (positive : 1 ≤ r.position.line) : Parameters (r.relocate f) (relocateAll f params) := by
  have begun := (reaches_skipBlanks r).positive positive
  have take := take?_skipBlanks_relocate carries positive
  cases h with
  | none blank => exact .none (blank.relocate carries positive)
  | inParentheses paren reads blank =>
      have opened := (reaches_of_take? (by decide) paren).positive begun
      exact .inParentheses (by rw [take, paren]; rfl) (reads.relocate carries opened)
        (blank.relocate carries (reads.reaches.1.positive opened))
  | listed paren first others =>
      refine .listed (by rw [take, paren]; rfl) ?_
        (others.relocate carries (first.reaches.1.positive begun))
      rw [skipBlanks_relocate carries positive]
      exact first.relocate carries begun

end Expression

/-! ## Constructs -/

namespace Construct

open Remaining Expression

include carries

theorem Output.relocate {p : Position} {r : Remaining} {c : Construct} (h : Output p r c)
    (positive : 1 ≤ r.position.line) : Output (f p) (r.relocate f) (c.relocate f) := by
  cases h with
  | expression reads blank =>
      exact .expression (reads.relocate carries positive)
        (blank.relocate carries (reads.reaches.1.positive positive))

theorem Statement.relocate {p : Position} {r : Remaining} {c : Construct} (h : Statement p r c)
    (positive : 1 ≤ r.position.line) : Statement (f p) (r.relocate f) (c.relocate f) := by
  have begun := (reaches_skipBlanks r).positive positive
  have skip := skipBlanks_relocate carries positive
  have take := take?_skipBlanks_relocate carries positive
  cases h with
  | closing slash named blank =>
      have inside := (reaches_of_take? (by decide) slash).positive begun
      exact .closing (by rw [take, slash]; rfl) (readName_relocate carries inside named)
        (blank.relocate carries ((reaches_of_readName named).positive inside))
  | opening slash hash named parameters =>
      have inside := (reaches_of_take? (by decide) hash).positive begun
      exact .opening (by rw [take, slash]; rfl) (by rw [take, hash]; rfl)
        (readName_relocate carries inside named)
        (parameters.relocate carries ((reaches_of_readName named).positive inside))
  | otherwise slash hash named blank =>
      exact .otherwise (by rw [take, slash]; rfl) (by rw [take, hash]; rfl)
        (by rw [skip]; exact readName_relocate carries begun named)
        (blank.relocate carries ((reaches_of_readName named).positive begun))
  | inline slash hash named other parameters =>
      exact .inline (by rw [take, slash]; rfl) (by rw [take, hash]; rfl)
        (by rw [skip]; exact readName_relocate carries begun named) other
        (parameters.relocate carries ((reaches_of_readName named).positive begun))

theorem Piece.relocate {p : Position} {bytes rest : List UInt8} {c : Option Construct}
    (h : Piece p bytes rest c) (positive : 1 ≤ p.line) :
    Piece (f p) bytes rest (c.map (Construct.relocate f)) := by
  have inside (chars : List Char) :
      Remaining.relocate f ⟨chars, p.right 2⟩ = ⟨chars, (f p).right 2⟩ :=
    congrArg (Remaining.mk chars) (carries.right p 2)
  cases h with
  | text nonempty isText follows decoded => exact .text nonempty isText follows decoded
  | comment split => exact .comment split
  | output split decoded output =>
      have output' := output.relocate carries positive
      rw [inside] at output'
      exact .output split decoded output'
  | @statement content _ chars c split decoded statement ordinary =>
      have statement' := statement.relocate carries positive
      rw [inside] at statement'
      refine .statement split decoded statement' ?_
      cases statement with
      | opening =>
          rintro q params ⟨⟩
          exact ordinary _ _ rfl
      | closing | otherwise | inline => exact fun _ _ same => nomatch same
  | @rawBlock q content body tag _ chars text params split decoded statement place cut
      decodedBody =>
      have statement' := statement.relocate carries positive
      rw [inside] at statement'
      have place' : f q = (f p).afterBytes (Delimiter.statement.openingBytes ++ content ++
          Delimiter.statement.closingBytes) := by
        rw [place, carries.afterBytes positive]
      have block := Piece.rawBlock split decoded statement' place' cut decodedBody
      have content' : Option.map (fun content : Position × String => (f content.1, content.2))
          (if body.isEmpty then none else some (q, String.ofList text)) =
          if body.isEmpty then none else some (f q, String.ofList text) := by
        split <;> rfl
      rw [Option.map_some, Construct.relocate, content']
      exact block

/-- What can be read at one place can be read at the other. -/
theorem Reads.relocate {p q : Position} {data left : List UInt8} {constructs : List Construct}
    (h : Reads p data constructs q left) (positive : 1 ≤ p.line) :
    Reads (f p) data (constructs.map (Construct.relocate f)) (f q) left := by
  induction h with
  | refl p data => exact .refl (f p) data
  | @step p q bytes rest left c constructs piece _ ih =>
      have later := ih (Int.le_trans positive (Position.line_le_afterBytes p bytes))
      rw [carries.afterBytes positive] at later
      have whole := Reads.step (piece.relocate carries positive) later
      rw [List.map_append]
      cases c <;> exact whole

end Construct

/-! ## Trees in the making -/

def OpenBlock.relocate (f : Position → Position) (block : OpenBlock) : OpenBlock :=
  ⟨f block.position, block.name, relocateAll f block.params, relocateAll f block.body,
    relocateBranch f block.orelse⟩

def Growth.relocate (f : Position → Position) (growth : Growth) : Growth :=
  ⟨relocateAll f growth.nodes, growth.blocks.map (OpenBlock.relocate f)⟩

theorem relocateAll_reverse (f : Position → Position) (nodes : List Node) :
    relocateAll f nodes.reverse = (relocateAll f nodes).reverse := by
  rw [relocateAll_eq_map, relocateAll_eq_map, List.map_reverse]

namespace OpenBlock

theorem push_relocate (f : Position → Position) (block : OpenBlock) (node : Node) :
    (block.push node).relocate f = (block.relocate f).push (node.relocate f) := by
  obtain ⟨p, name, params, body, orelse⟩ := block
  cases orelse <;> rfl

theorem close_relocate (f : Position → Position) (block : OpenBlock) :
    block.close.relocate f = (block.relocate f).close := by
  obtain ⟨p, name, params, body, orelse⟩ := block
  cases orelse <;> simp [close, relocate, Node.relocate, relocateBranch, relocateAll_reverse]

end OpenBlock

namespace Growth

theorem push_relocate (f : Position → Position) (growth : Growth) (node : Node) :
    (growth.push node).relocate f = (growth.relocate f).push (node.relocate f) := by
  obtain ⟨nodes, blocks⟩ := growth
  cases blocks with
  | nil => rfl
  | cons block outer => simp [push, relocate, OpenBlock.push_relocate]

theorem turn_relocate {growth later : Growth} {p : Position} (f : Position → Position)
    (h : growth.turn p = .ok later) : (growth.relocate f).turn (f p) = .ok (later.relocate f) := by
  obtain ⟨nodes, blocks⟩ := growth
  cases blocks with
  | nil => cases h
  | cons block outer =>
      obtain ⟨q, name, params, body, orelse⟩ := block
      cases orelse with
      | some others => cases h
      | none =>
          cases h
          rfl

theorem close_relocate {growth later : Growth} {p : Position} {name : String}
    (f : Position → Position) (h : growth.close p name = .ok later) :
    (growth.relocate f).close (f p) name = .ok (later.relocate f) := by
  obtain ⟨nodes, blocks⟩ := growth
  cases blocks with
  | nil => cases h
  | cons block outer =>
      simp only [close] at h
      split at h
      · next same =>
        cases h
        rw [push_relocate, OpenBlock.close_relocate]
        exact if_pos same
      · cases h

theorem step_relocate {growth later : Growth} {c : Construct} (f : Position → Position)
    (h : growth.step c = .ok later) :
    (growth.relocate f).step (c.relocate f) = .ok (later.relocate f) := by
  cases c with
  | text p content =>
      cases h
      rw [push_relocate]
      rfl
  | inline p name params =>
      cases h
      rw [push_relocate]
      rfl
  | opening p name params =>
      cases h
      rfl
  | otherwise p => exact turn_relocate f h
  | closing p name => exact close_relocate f h
  | rawBlock p params body =>
      cases h
      rw [push_relocate]
      cases body <;> rfl

theorem run_relocate {growth later : Growth} {constructs : List Construct}
    (f : Position → Position) (h : growth.run constructs = .ok later) :
    (growth.relocate f).run (constructs.map (Construct.relocate f)) = .ok (later.relocate f) := by
  induction constructs generalizing growth with
  | nil =>
      cases h
      rfl
  | cons c rest ih =>
      simp only [run, List.map_cons, bind_eq_ok_iff] at h ⊢
      obtain ⟨next, first, others⟩ := h
      exact ⟨next.relocate f, step_relocate f first, ih others⟩

end Growth

end Templating
