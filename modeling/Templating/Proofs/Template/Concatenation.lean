import Mathlib.Data.List.DropRight
import Templating.Proofs.Template.Relocation
import Templating.Proofs.Template.Stability

/-!
# Sources one behind the other

Two sources that are accepted are accepted together, and their trees follow each other, unless an
opening delimiter comes about where they meet.  A text at the end of the first and a text at the
start of the second are one text.
-/

namespace Templating

/-! ## Positions behind a source -/

namespace Position

/-- Where a position comes to stand when bytes are put in front of its source. -/
def behind (bytes : List UInt8) (p : Position) : Position :=
  ⟨p.line + bytes.count 10,
    if p.line = 1 then p.column + (bytes.rtakeWhile (· != 10)).length else p.column⟩

theorem behind_of_line_eq {p : Position} (first : p.line = 1) (bytes : List UInt8) :
    p.behind bytes =
      ⟨p.line + bytes.count 10, p.column + (bytes.rtakeWhile (· != 10)).length⟩ := by
  rw [behind, if_pos first]

theorem behind_of_line_ne {p : Position} (later : p.line ≠ 1) (bytes : List UInt8) :
    p.behind bytes = ⟨p.line + bytes.count 10, p.column⟩ := by
  rw [behind, if_neg later]

theorem carries_behind (bytes : List UInt8) : Carries (behind bytes) where
  right p n := by
    rcases eq_or_ne p.line 1 with first | later
    · rw [behind_of_line_eq first, behind_of_line_eq (p := p.right n) first]
      simp only [right]
      congr 1
      omega
    · rw [behind_of_line_ne later, behind_of_line_ne (p := p.right n) later]
      rfl
  nextLine p positive := by
    have later : p.nextLine.line ≠ 1 := by
      simp only [nextLine]
      omega
    rw [behind_of_line_ne later]
    simp only [nextLine, behind]
    congr 1
    omega

theorem behind_start (bytes : List UInt8) : start.behind bytes = start.afterBytes bytes := by
  induction bytes using List.reverseRecOn with
  | nil => rfl
  | append_singleton bytes b ih =>
      rw [afterBytes_append, ← ih, afterBytes_cons, afterBytes_nil]
      by_cases feed : b = 10
      · subst feed
        rw [behind, List.rtakeWhile_concat_neg _ _ _ (by decide)]
        simp [afterByte, behind, nextLine, start]
        omega
      · rw [behind, List.rtakeWhile_concat_pos _ _ _ (by simpa using feed)]
        simp [afterByte, behind, right, start, feed]

end Position

/-! ## Adjacent texts -/

/-- A text in front of nodes, one with the text that they begin with if they do. -/
def prependText (p : Position) (text : String) : List Node → List Node
  | .raw _ more :: rest => .raw p (text ++ more) :: rest
  | nodes => .raw p text :: nodes

/-- Texts that follow each other are made one, where the first of them stands. -/
def joinTexts : List Node → List Node
  | [] => []
  | .raw p text :: rest => prependText p text (joinTexts rest)
  | node :: rest => node :: joinTexts rest

theorem prependText_prependText (p q : Position) (s t : String) (nodes : List Node) :
    prependText p s (prependText q t nodes) = prependText p (s ++ t) nodes := by
  cases nodes with
  | nil => rfl
  | cons node nodes => cases node <;> simp [prependText, String.append_assoc]

theorem joinTexts_split (p q : Position) (s t : String) (before after : List Node) :
    joinTexts (before ++ .raw p (s ++ t) :: after) =
      joinTexts (before ++ .raw p s :: .raw q t :: after) := by
  induction before with
  | nil => exact (prependText_prependText p q s t (joinTexts after)).symm
  | cons node before ih => cases node <;> simp only [List.cons_append, joinTexts, ih]

/-! ## Constructs -/

namespace Construct

/-- It is not so that `a` ends in a brace and `b` begins with what makes it an opening delimiter. -/
def Apart (a b : List UInt8) : Prop :=
  ¬ (a.getLast? = some brace ∧ b.head? ∈ [some brace, some percent, some 35])

instance (a b : List UInt8) : Decidable (Apart a b) := inferInstanceAs (Decidable (¬ _))

theorem Apart.of_append {a b more : List UInt8} (h : Apart (a ++ b) more) : Apart b more := by
  rintro ⟨last, mark⟩
  exact h ⟨by rw [List.getLast?_append, last, Option.some_or], mark⟩

theorem opens_pair {b c : UInt8} {rest : List UInt8} (h : Opens (b :: c :: rest)) :
    b = brace ∧ some c ∈ [some brace, some percent, some 35] := by
  obtain ⟨d, begins⟩ := h
  rw [openingBytes_eq, List.cons_prefix_cons, List.cons_prefix_cons] at begins
  obtain ⟨rfl, rfl, -⟩ := begins
  exact ⟨rfl, by cases d <;> decide⟩

/-- A text that nothing follows is a text before bytes that stand apart. -/
theorem IsText.append {bytes more : List UInt8} (h : IsText bytes []) (apart : Apart bytes more) :
    IsText bytes more := by
  intro before after split nonempty opens
  have closed := h before after split nonempty
  rw [List.append_nil] at closed
  match after, more with
  | [], _ => exact nonempty rfl
  | [b], [] => exact closed opens
  | [b], c :: more =>
      obtain ⟨last, mark⟩ := opens_pair opens
      refine apart ⟨?_, mark⟩
      rw [split, List.getLast?_append, last]
      rfl
  | b :: c :: after, more => exact closed (opens.of_append (by simp))

theorem opens_of_piece {p : Position} {bytes rest : List UInt8} {c : Option Construct}
    (h : Piece p bytes rest c) (other : ∀ q content, c ≠ some (.text q content))
    (more : List UInt8) : Opens (bytes ++ more) := by
  have opens (d : Delimiter) (others : List UInt8) : Opens (d.openingBytes ++ others) :=
    ⟨d, others, rfl⟩
  cases h with
  | text => exact absurd rfl (other _ _)
  | comment | output | statement | rawBlock =>
      simp only [List.append_assoc]
      exact opens _ _

/-- The constructs of two sources one behind the other: all of them, but for texts that meet. -/
inductive Joined (first others : List Construct) : List Construct → Prop
  | apart : Joined first others (first ++ others)
  | oneText {p q : Position} {s t : String} (before : List Construct) {after : List Construct} :
      first = before ++ [.text p s] → others = .text q t :: after →
      Joined first others (before ++ .text p (s ++ t) :: after)

theorem Joined.append {first others constructs : List Construct}
    (h : Joined first others constructs) (before : List Construct) :
    Joined (before ++ first) others (before ++ constructs) := by
  cases h with
  | apart =>
      rw [← List.append_assoc]
      exact .apart
  | oneText inside last head =>
      rw [← List.append_assoc]
      exact .oneText (before ++ inside) (by rw [last, List.append_assoc]) head

theorem Reads.eq_nil {p q : Position} {left : List UInt8} {constructs : List Construct}
    (h : Reads p [] constructs q left) : constructs = [] ∧ q = p := by
  generalize hdata : ([] : List UInt8) = data at h
  cases h with
  | refl => exact ⟨rfl, rfl⟩
  | step piece _ => exact absurd (List.append_eq_nil_iff.1 hdata.symm).1 piece.ne_nil

/-- A text in front of a source makes one text with the text the source begins with. -/
theorem Reads.prependText {p q : Position} {bytes data : List UInt8} {chars : List Char}
    {constructs : List Construct} (nonempty : bytes ≠ []) (isText : IsText bytes [])
    (decoded : Text.Utf8.decode bytes = .ok chars) (apart : Apart bytes data)
    (h : Reads (p.afterBytes bytes) data constructs q []) :
    ∃ together, Reads p (bytes ++ data) together q [] ∧
      Joined [.text p (String.ofList chars)] constructs together := by
  generalize hplace : p.afterBytes bytes = place at h
  generalize hleft : ([] : List UInt8) = left at h
  cases h with
  | refl _ data =>
      subst hleft hplace
      exact ⟨_, .single (.text nonempty isText (.inl rfl) decoded), .apart⟩
  | @step _ _ next rest _ c others piece reads =>
      subst hleft hplace
      have before := isText.append apart
      by_cases text : ∃ q content, c = some (.text q content)
      · obtain ⟨q, content, rfl⟩ := text
        cases piece with
        | text _ isText' follows decoded' =>
            rw [← Position.afterBytes_append] at reads
            have whole := Piece.text (p := p) (by simp [nonempty]) (isText_append before isText')
              follows (Text.Utf8.decode_append decoded decoded')
            rw [String.ofList_append] at whole
            rw [← List.append_assoc]
            exact ⟨_, .step whole reads, .oneText [] rfl rfl⟩
        | output _ _ output => nomatch output
        | statement _ _ statement => nomatch statement
      · have other : ∀ q content, c ≠ some (.text q content) := by
          intro q content same
          exact text ⟨q, content, same⟩
        have opens := opens_of_piece piece other rest
        exact ⟨_, .step (.text nonempty before (.inr opens) decoded) (.step piece reads), .apart⟩

/-- What can be read by itself can be read behind another source, as one sequence. -/
theorem Reads.join {p q s : Position} {a b : List UInt8} {first others : List Construct}
    (h : Reads p a first q []) (h' : Reads q b others s []) (apart : Apart a b) :
    ∃ together, Reads p (a ++ b) together s [] ∧ Joined first others together := by
  generalize hleft : ([] : List UInt8) = left at h
  induction h with
  | refl p data =>
      subst hleft
      exact ⟨others, h', .apart⟩
  | @step p q bytes rest left c constructs piece reads ih =>
      subst hleft
      by_cases ends : rest ≠ [] ∨ ∀ q content, c ≠ some (.text q content)
      · obtain ⟨together, later, joined⟩ := ih h' apart.of_append rfl
        refine ⟨c.toList ++ together, ?_, joined.append c.toList⟩
        rw [List.append_assoc]
        exact .step (piece.append ends b) later
      · -- A text at the end of the first source is where the two can grow together.
        obtain ⟨empty, r, content, rfl⟩ : rest = [] ∧ ∃ q content, c = some (.text q content) := by
          simpa using ends
        subst empty
        obtain ⟨rfl, rfl⟩ := reads.eq_nil
        rw [List.append_nil] at apart ⊢
        cases piece with
        | text nonempty isText _ decoded => exact h'.prependText nonempty isText decoded apart
        | output _ _ output => nomatch output
        | statement _ _ statement => nomatch statement

end Construct

/-! ## Trees -/

namespace Growth

/-- The growth with nodes in front of all that it holds. -/
def behind (nodes : List Node) (growth : Growth) : Growth :=
  ⟨growth.nodes ++ nodes.reverse, growth.blocks⟩

variable (nodes : List Node)

theorem push_behind (growth : Growth) (node : Node) :
    (growth.push node).behind nodes = (growth.behind nodes).push node := by
  obtain ⟨others, blocks⟩ := growth
  cases blocks <;> rfl

theorem step_behind (growth : Growth) (c : Construct) :
    (growth.behind nodes).step c = (growth.step c).map (behind nodes) := by
  obtain ⟨others, blocks⟩ := growth
  cases c with
  | text | inline | rawBlock =>
      simp only [step, Except.map, push_behind]
  | opening => rfl
  | otherwise =>
      cases blocks with
      | nil => rfl
      | cons block outer => cases h : block.orelse <;> simp [step, turn, behind, h, Except.map]
  | closing p name =>
      cases blocks with
      | nil => rfl
      | cons block outer =>
          simp only [step, close, behind]
          split
          · exact congrArg Except.ok (push_behind nodes ⟨others, outer⟩ block.close).symm
          · rfl

theorem run_behind (growth : Growth) (constructs : List Construct) :
    (growth.behind nodes).run constructs = (growth.run constructs).map (behind nodes) := by
  induction constructs generalizing growth with
  | nil => rfl
  | cons c rest ih =>
      simp only [run, step_behind]
      cases growth.step c with
      | error failure => rfl
      | ok later => exact ih later

end Growth

namespace Construct

/-- Put together the constructs are a tree and leave no block open. -/
def Makes (constructs : List Construct) (tree : List Node) : Prop :=
  Growth.empty.run constructs = .ok ⟨tree.reverse, []⟩

theorem makes_iff {constructs : List Construct} {tree : List Node} :
    Makes constructs tree ↔
      ∃ growth, Growth.empty.run constructs = .ok growth ∧ growth.finish = .ok tree := by
  constructor
  · intro h
    exact ⟨_, h, by simp [Growth.finish]⟩
  · rintro ⟨⟨nodes, blocks⟩, run, finish⟩
    cases blocks with
    | nil =>
        cases finish
        simpa [Makes] using run
    | cons block outer => cases finish

theorem makes_text (p : Position) (content : String) :
    Makes [.text p content] [.raw p content] := rfl

theorem Makes.relocate {constructs : List Construct} {tree : List Node}
    (h : Makes constructs tree) (f : Position → Position) :
    Makes (constructs.map (Construct.relocate f)) (relocateAll f tree) := by
  have moved := Growth.run_relocate f h
  simp only [Growth.relocate, relocateAll_reverse] at moved
  exact moved

theorem makes_append_iff {xs ys : List Construct} {first tree : List Node} (h : Makes xs first) :
    Makes (xs ++ ys) tree ↔ ∃ others, Makes ys others ∧ tree = first ++ others := by
  have whole : Growth.empty.run (xs ++ ys) = (Growth.empty.run ys).map (Growth.behind first) := by
    rw [Growth.run_append, show Growth.empty.run xs = .ok (Growth.empty.behind first) from h,
      ← Growth.run_behind]
    rfl
  rw [Makes, whole, map_eq_ok_iff]
  constructor
  · rintro ⟨⟨nodes, blocks⟩, run, same⟩
    obtain ⟨reversed, rfl⟩ := Growth.mk.inj same
    rw [← List.reverse_eq_iff] at reversed
    exact ⟨nodes.reverse, by simpa [Makes] using run, by simp [← reversed]⟩
  · rintro ⟨others, run, rfl⟩
    exact ⟨_, run, by simp [Growth.behind]⟩

theorem Makes.append {xs ys : List Construct} {first others : List Node} (h : Makes xs first)
    (h' : Makes ys others) : Makes (xs ++ ys) (first ++ others) :=
  (makes_append_iff h).2 ⟨others, h', rfl⟩

/-- A text at the end stands outside of all blocks. -/
theorem exists_of_makes_text {before : List Construct} {p : Position} {content : String}
    {tree : List Node} (h : Makes (before ++ [.text p content]) tree) :
    ∃ others, Makes before others ∧ tree = others ++ [.raw p content] := by
  rw [Makes, Growth.run_append] at h
  obtain ⟨⟨nodes, blocks⟩, run, last⟩ := bind_eq_ok_iff.1 h
  cases blocks with
  | nil =>
      obtain ⟨reversed, -⟩ := Growth.mk.inj (Except.ok.inj last)
      rw [eq_comm, List.reverse_eq_cons_iff] at reversed
      exact ⟨nodes.reverse, by simpa [Makes] using run, reversed⟩
  | cons block outer => cases last

theorem Makes.join {first others together : List Construct} {xs ys : List Node}
    (h : Makes first xs) (h' : Makes others ys) (joined : Joined first others together) :
    ∃ tree, Makes together tree ∧ joinTexts tree = joinTexts (xs ++ ys) := by
  cases joined with
  | apart => exact ⟨xs ++ ys, h.append h', rfl⟩
  | @oneText p q s t before after last head =>
      subst last head
      obtain ⟨xs, inFront, rfl⟩ := exists_of_makes_text h
      obtain ⟨ys, behind, rfl⟩ :=
        (makes_append_iff (makes_text q t)).1 (show Makes ([.text q t] ++ after) ys from h')
      have whole := inFront.append ((makes_text p (s ++ t)).append behind)
      refine ⟨_, whole, ?_⟩
      simpa using joinTexts_split p q s t xs ys

end Construct

namespace Template

open Construct (Reads Makes Apart)

theorem parse_eq_ok_iff_makes {file : String} {data : List UInt8} {tree : List Node} :
    parse file data = .ok tree ↔ ∃ constructs,
      Reads .start data constructs (Position.start.afterBytes data) [] ∧ Makes constructs tree := by
  rw [parse_eq_ok_iff, read_eq_ok_iff]
  constructor
  · rintro ⟨complete, makes⟩
    exact ⟨_, Construct.reads_of_failure_eq_none complete, Construct.makes_iff.2 makes⟩
  · rintro ⟨constructs, reads, makes⟩
    rw [Construct.survey_of_reads reads]
    exact ⟨rfl, Construct.makes_iff.1 makes⟩

/-- Two sources that are accepted are accepted one behind the other.  The tree is the one of the
first followed by the one of the second, with its positions behind the first, but for a text that
goes on where they meet. -/
theorem parse_append {fileA fileB : String} {a b : List UInt8} {treeA treeB : List Node}
    (ha : parse fileA a = .ok treeA) (hb : parse fileB b = .ok treeB) (apart : Apart a b)
    (file : String) :
    ∃ tree, parse file (a ++ b) = .ok tree ∧
      joinTexts tree = joinTexts (treeA ++ treeB.map (Node.relocate (Position.behind a))) := by
  obtain ⟨first, readsA, makesA⟩ := parse_eq_ok_iff_makes.1 ha
  obtain ⟨others, readsB, makesB⟩ := parse_eq_ok_iff_makes.1 hb
  have carries := Position.carries_behind a
  have moved := readsB.relocate carries (by decide)
  rw [Position.behind_start, carries.afterBytes (by decide), Position.behind_start] at moved
  obtain ⟨together, reads, joined⟩ := readsA.join moved apart
  obtain ⟨tree, makes, same⟩ := makesA.join (makesB.relocate (Position.behind a)) joined
  rw [← Position.afterBytes_append] at reads
  rw [relocateAll_eq_map] at same
  exact ⟨tree, parse_eq_ok_iff_makes.2 ⟨together, reads, makes⟩, same⟩

/-- An output, a block with a string that holds a closing delimiter, and a text. -/
def upperSource : List UInt8 :=
  Text.Utf8.encode "a\n\x7b\x7b b \x7d\x7d\x7b% #if '%\x7d' %\x7d c\x7b% /if %\x7d d\x7b"

/-- A text that goes on with another, a comment, a raw block, and a tag on another line. -/
def lowerSource : List UInt8 :=
  Text.Utf8.encode "e\x7b# c #\x7d\x7b% #raw %\x7d\x7b\x7b\x7b% /raw %\x7d\n\x7b% f(1) %\x7d"

theorem parse_upper_lower :
    ∃ upper lower tree, parse "upper" upperSource = .ok upper ∧
      parse "lower" lowerSource = .ok lower ∧ Apart upperSource lowerSource ∧
      parse "both" (upperSource ++ lowerSource) = .ok tree ∧
      joinTexts tree =
        joinTexts (upper ++ lower.map (Node.relocate (Position.behind upperSource))) := by
  obtain ⟨treeA, first⟩ := exists_of_isOk
    (show (parse "upper" upperSource).isOk = true by decide +kernel)
  obtain ⟨treeB, second⟩ := exists_of_isOk
    (show (parse "lower" lowerSource).isOk = true by decide +kernel)
  have apart : Apart upperSource lowerSource := by decide +kernel
  obtain ⟨tree, parsed, same⟩ := parse_append first second apart "both"
  exact ⟨treeA, treeB, tree, first, second, apart, parsed, same⟩

end Template

end Templating
