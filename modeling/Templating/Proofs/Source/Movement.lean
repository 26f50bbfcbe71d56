import Mathlib.Data.List.DropRight
import Templating.Proofs.Template.Diagnostics
import Templating.Source.Cursor

/-!
# How a cursor moves

Whatever a cursor is asked, it goes forward or stays.  The bytes that a call passes over are those of
the data between the two offsets, and they are what the call was for: so many bytes, those before a
marker, the blanks.  The position is told by all the bytes behind the cursor, although it is brought
up to date from the passed ones alone: it counts their line feeds, and begins anew behind the last.
-/

namespace Templating

/-! ## Beginnings of lines -/

/-- The place behind the last line feed, 0 if there is none. -/
def lineStart (bytes : List UInt8) : Nat := (bytes.rdropWhile (· != 10)).length

theorem lineStart_feed (bytes : List UInt8) : lineStart (bytes ++ [10]) = bytes.length + 1 := by
  rw [lineStart, List.rdropWhile_concat_neg _ _ _ (by decide), List.length_append,
    List.length_singleton]

theorem lineStart_plain {b : UInt8} (plain : b ≠ 10) (bytes : List UInt8) :
    lineStart (bytes ++ [b]) = lineStart bytes := by
  rw [lineStart, List.rdropWhile_concat_pos _ _ _ (by simpa using plain), lineStart]

theorem lineStart_append (a b : List UInt8) :
    lineStart (a ++ b) = if 10 ∈ b then a.length + lineStart b else lineStart a := by
  induction b using List.reverseRecOn with
  | nil => simp
  | append_singleton b x ih =>
      rw [← List.append_assoc]
      by_cases feed : x = 10
      · subst feed
        rw [lineStart_feed, lineStart_feed, if_pos (by simp), List.length_append]
        omega
      · rw [lineStart_plain feed, lineStart_plain feed, ih]
        simp [Ne.symm feed]

/-- A stretch of bytes sets the column if it has a line feed, and else adds to it. -/
theorem Position.column_afterBytes (p : Position) (bytes : List UInt8) :
    (p.afterBytes bytes).column =
      if 10 ∈ bytes then (bytes.length - lineStart bytes : Int) else p.column + bytes.length := by
  -- From the right, for a line feed forgets the columns of all that is before it.
  induction bytes using List.reverseRecOn with
  | nil => simp
  | append_singleton bytes x ih =>
      rw [afterBytes_append, afterBytes_cons, afterBytes_nil, afterByte]
      by_cases feed : x = 10
      · subst feed
        rw [if_pos rfl, if_pos (by simp), lineStart_feed, nextLine]
        simp
      · rw [if_neg feed, lineStart_plain feed, right, ih]
        simp only [List.mem_append, List.mem_singleton, Ne.symm feed, or_false, List.length_append,
          List.length_singleton]
        split <;> omega

/-! ## The first occurrence -/

/-- Nowhere before the first occurrence does another one begin. -/
theorem eq_nil_of_splitAtFirst? {needle data before after : List UInt8}
    (h : Text.splitAtFirst? needle data = some (before, after)) {tail : List UInt8}
    (ends : tail <:+ before) (begins : needle <+: tail ++ after) : tail = [] := by
  induction data generalizing before with
  | nil =>
      simp only [Text.splitAtFirst?] at h
      split at h
      · cases h
        exact List.suffix_nil.1 ends
      · cases h
  | cons b data ih =>
      have whole := Text.append_of_splitAtFirst? h
      simp only [Text.splitAtFirst?] at h
      split at h
      · cases h
        exact List.suffix_nil.1 ends
      · next other =>
        obtain ⟨found, hfound, hpair⟩ := Option.map_eq_some_iff.1 h
        cases hpair
        rcases List.suffix_cons_iff.1 ends with rfl | later
        · rw [whole] at begins
          exact absurd (List.isPrefixOf_iff_prefix.2 begins) other
        · exact ih hfound later

namespace Cursor

/-! ## Operations and answers -/

inductive Operation
  | peek (n : Int)
  | pop
  | startsWith (marker : List UInt8)
  | consume (marker : List UInt8)
  | advance (n : Nat)
  | find (marker : List UInt8)
  | readUntil (marker : List UInt8)
  | readToEnd
  | skipSpace
  | atEnd
  | bytes
  | source
  | error (message : String) (code : Code) (line column : Option Int)
  | text
deriving DecidableEq, Repr

inductive Answer
  | done
  | byte (b : Option UInt8)
  | bytes (passed : List UInt8)
  | before (passed : Option (List UInt8))
  | offset (found : Option Int)
  | holds (is : Bool)
  | text (shown : String)
  | report (e : Error)
  | raised (e : Error)
deriving DecidableEq, Repr

/-- The operation only looks at what is there. -/
def Operation.looksOn : Operation → Bool
  | peek _ | startsWith _ | find _ | atEnd | bytes | source | error .. | text => true
  | pop | consume _ | advance _ | readUntil _ | readToEnd | skipSpace => false

def perform (c : Cursor) : Operation → Answer × Cursor
  | .peek n =>
    match c.peek n with
    | .ok b => (.byte b, c)
    | .error e => (.raised e, c)
  | .pop =>
    match c.pop with
    | .ok (b, next) => (.byte b, next)
    | .error e => (.raised e, c)
  | .startsWith marker => (.holds (c.startsWith marker), c)
  | .consume marker => (.holds (c.consume marker).1, (c.consume marker).2)
  | .advance n => (.bytes (c.advance n).1, (c.advance n).2)
  | .find marker => (.offset (c.find? marker), c)
  | .readUntil marker => (.before (c.readUntil marker).1, (c.readUntil marker).2)
  | .readToEnd => (.bytes c.readToEnd.1, c.readToEnd.2)
  | .skipSpace =>
    match c.skipSpace with
    | .ok next => (.done, next)
    | .error e => (.raised e, c)
  | .atEnd => (.holds c.atEnd, c)
  | .bytes => (.bytes c.data, c)
  | .source => (.text c.source, c)
  | .error message code line column => (.report (c.error message code line column), c)
  | .text => (.text c.text, c)

def carryOut (c : Cursor) (operations : List Operation) : Cursor :=
  operations.foldl (fun now operation => (now.perform operation).2) c

/-- What an operation passes over in front of the rest, and what it answers then. -/
inductive Operation.Passes : Operation → Answer → List UInt8 → List UInt8 → Prop
  | look {operation answer rest} (only : operation.looksOn = true) : Passes operation answer [] rest
  | pop (b rest) : Passes .pop (.byte (some b)) [b] rest
  | popAtEnd : Passes .pop (.byte none) [] []
  | consume (marker rest) : Passes (.consume marker) (.holds true) marker rest
  | consumeOther {marker rest} (other : ¬ marker <+: rest) :
      Passes (.consume marker) (.holds false) [] rest
  | advance {n passed rest} (far : passed.length = min n (passed ++ rest).length) :
      Passes (.advance n) (.bytes passed) passed rest
  | readUntil {marker passed rest} (begins : marker <+: rest)
      (first : ∀ tail, tail <:+ passed → marker <+: tail ++ rest → tail = []) :
      Passes (.readUntil marker) (.before (some passed)) passed rest
  | readUntilNone {marker rest} (never : ¬ marker <:+: rest) :
      Passes (.readUntil marker) (.before none) [] rest
  | readToEnd (passed) : Passes .readToEnd (.bytes passed) passed []
  | skipSpace {passed rest} (spaces : ∀ b ∈ passed, isSpace b = true)
      (ends : ∀ b, rest.head? = some b → isSpace b = false) : Passes .skipSpace .done passed rest

/-- The call has nothing to move over: it only looks, the marker is not there, or no byte is. -/
def idles (c : Cursor) : Operation → Answer → Bool
  | .pop, _ => c.atEnd
  | .consume _, .holds found => !found
  | .readUntil _, .before found => found.isNone
  | operation, _ => operation.looksOn

/-- The bytes of the data between two offsets. -/
def stretch (data : List UInt8) (start stop : Int) : List UInt8 :=
  (data.take stop.toNat).drop start.toNat

/-- The cursor is within the data, and its position is told by the bytes behind it. -/
structure Located (data : List UInt8) (c : Cursor) : Prop where
  data_eq : c.data = data
  nonneg : 0 ≤ c.offset
  le_length : c.offset ≤ data.length
  line_eq : c.position.line = 1 + (data.take c.offset.toNat).count 10
  column_eq : c.position.column = c.offset - lineStart (data.take c.offset.toNat)

/-- The call with this answer took a cursor over the data from `c` to `next`. -/
structure Moves (data : List UInt8) (operation : Operation) (answer : Answer) (c next : Cursor) :
    Prop where
  located : Located data next
  forward : c.offset ≤ next.offset
  passes : operation.Passes answer (stretch data c.offset next.offset)
    (data.drop next.offset.toNat)
  steady : c.idles operation answer = true → next = c

theorem located_ofBytes (data : List UInt8) (file : String) : Located data (ofBytes data file) where
  data_eq := rfl
  nonneg := Int.le_refl 0
  le_length := Int.natCast_nonneg _
  line_eq := by simp [ofBytes, Position.start]
  column_eq := by simp [ofBytes, Position.start, lineStart]

/-! ## One move -/

theorem place_of_le (c : Cursor) {offset : Int} (nonneg : 0 ≤ offset) (inside : offset ≤ c.size) :
    c.place offset = offset.toNat := by
  rw [size] at inside
  rw [place, if_neg (by omega)]
  exact Nat.min_eq_left (by omega)

namespace Located

variable {data : List UInt8} {c : Cursor}

theorem size_eq (h : Located data c) : c.size = data.length := by rw [size, h.data_eq]

theorem le_size (h : Located data c) : c.offset ≤ c.size := by
  rw [h.size_eq]
  exact h.le_length

theorem ahead_eq (h : Located data c) : c.ahead = data.drop c.offset.toNat := by
  rw [ahead, c.place_of_le h.nonneg h.le_size, h.data_eq]

theorem offset_add_ahead (h : Located data c) : c.offset + c.ahead.length = data.length := by
  have inside := h.le_length
  have nonneg := h.nonneg
  rw [h.ahead_eq, List.length_drop]
  omega

theorem stretch_ahead (h : Located data c) {passed : List UInt8} (front : passed <+: c.ahead) :
    stretch data c.offset (c.offset + passed.length) = passed := by
  have nonneg := h.nonneg
  have far : (c.offset + passed.length).toNat - c.offset.toNat = passed.length := by omega
  rw [stretch, List.drop_take, far, ← h.ahead_eq]
  exact (List.prefix_iff_eq_take.1 front).symm

/-- To move on by so many bytes is to pass over them, as far as there are so many. -/
theorem advance_eq (h : Located data c) (n : Nat) :
    c.advance n = (c.ahead.take n,
      { c with
        offset := c.offset + (c.ahead.take n).length
        position := c.position.afterBytes (c.ahead.take n) }) := by
  have whole := h.offset_add_ahead
  have nonneg := h.nonneg
  have stop : min (c.offset + n) c.size = c.offset + (c.ahead.take n).length := by
    rw [h.size_eq, List.length_take]
    omega
  have inside : c.offset + (c.ahead.take n).length ≤ c.size := by
    rw [← stop]
    exact Int.min_le_right _ _
  have passed : (c.data.take (c.place (c.offset + (c.ahead.take n).length))).drop
      (c.place c.offset) = c.ahead.take n := by
    rw [c.place_of_le (by omega) inside, c.place_of_le nonneg h.le_size, h.data_eq]
    exact h.stretch_ahead (List.take_prefix n c.ahead)
  simp only [advance, stop, passed]

theorem passed_advance (h : Located data c) (n : Nat) : (c.advance n).1 = c.ahead.take n := by
  rw [h.advance_eq]

theorem offset_advance (h : Located data c) (n : Nat) :
    (c.advance n).2.offset = c.offset + (c.ahead.take n).length := by
  rw [h.advance_eq]

theorem position_advance (h : Located data c) (n : Nat) :
    (c.advance n).2.position = c.position.afterBytes (c.ahead.take n) := by
  rw [h.advance_eq]

theorem stretch_advance (h : Located data c) (n : Nat) :
    stretch data c.offset (c.advance n).2.offset = c.ahead.take n := by
  rw [h.offset_advance]
  exact h.stretch_ahead (List.take_prefix n c.ahead)

theorem toNat_offset_advance (h : Located data c) (n : Nat) :
    (c.advance n).2.offset.toNat = c.offset.toNat + (c.ahead.take n).length := by
  have nonneg := h.nonneg
  rw [h.offset_advance]
  omega

theorem drop_advance (h : Located data c) (n : Nat) :
    data.drop (c.advance n).2.offset.toNat = c.ahead.drop n := by
  rw [h.toNat_offset_advance, ← List.drop_drop, ← h.ahead_eq, List.length_take,
    List.drop_eq_drop_iff]
  omega

theorem take_advance (h : Located data c) (n : Nat) :
    data.take (c.advance n).2.offset.toNat = data.take c.offset.toNat ++ c.ahead.take n := by
  rw [h.toNat_offset_advance, List.take_add, ← h.ahead_eq, List.length_take,
    ← List.take_eq_take_min]

/-- The line and the column stay those of the place, wherever the passed bytes have line feeds. -/
theorem advance (h : Located data c) (n : Nat) : Located data (c.advance n).2 := by
  have nonneg := h.nonneg
  have whole := h.offset_add_ahead
  have far : ((c.ahead.take n).length : Int) ≤ c.ahead.length := by
    exact_mod_cast List.length_take_le' n c.ahead
  have behind : ((data.take c.offset.toNat).length : Int) = c.offset := by
    rw [List.length_take]
    omega
  refine ⟨h.data_eq, ?_, ?_, ?_, ?_⟩
  · rw [h.offset_advance]
    omega
  · rw [h.offset_advance]
    omega
  · rw [h.position_advance, h.take_advance, Position.line_afterBytes, h.line_eq, List.count_append]
    push_cast
    omega
  · rw [h.position_advance, h.take_advance, Position.column_afterBytes, lineStart_append,
      h.offset_advance, h.column_eq]
    -- The line begins among the passed bytes if they have a line feed, and else where it began.
    split
    · push_cast
      omega
    · omega

theorem ahead_advance (h : Located data c) (n : Nat) : (c.advance n).2.ahead = c.ahead.drop n := by
  rw [(h.advance n).ahead_eq, h.drop_advance]

theorem advance_zero (h : Located data c) : c.advance (0 : Nat) = ([], c) := by
  rw [h.advance_eq]
  simp

theorem advance_advance (h : Located data c) (m n : Nat) :
    ((c.advance m).2.advance n).2 = (c.advance (m + n : Nat)).2 := by
  rw [(h.advance m).advance_eq, h.ahead_advance, h.advance_eq m, h.advance_eq (m + n)]
  simp only [List.take_add, Position.afterBytes_append, List.length_append]
  congr 1
  push_cast
  omega

/-! ## What each operation does -/

theorem peek_zero (h : Located data c) : c.peek 0 = .ok c.ahead.head? := by
  have nonneg := h.nonneg
  have inside := h.le_length
  simp only [peek, Int.add_zero, h.size_eq, h.ahead_eq, h.data_eq, List.head?_drop]
  split
  · rw [List.getElem?_eq_none (by omega)]
  · rw [if_neg (by omega), if_neg (by omega)]

theorem atEnd_eq (h : Located data c) : c.atEnd = c.ahead.isEmpty := by
  have whole := h.offset_add_ahead
  rw [atEnd, h.size_eq, Bool.eq_iff_iff, decide_eq_true_iff, List.isEmpty_iff,
    ← List.length_eq_zero_iff]
  omega

theorem skipSpaceWithin_eq (h : Located data c) {fuel : Nat} (enough : c.ahead.length ≤ fuel) :
    skipSpaceWithin fuel c = .ok (c.advance (c.ahead.takeWhile isSpace).length).2 := by
  induction fuel generalizing c with
  | zero =>
      have none : c.ahead = [] := List.length_eq_zero_iff.1 (Nat.le_zero.1 enough)
      rw [none, List.takeWhile_nil, List.length_nil, h.advance_zero, skipSpaceWithin]
  | succ fuel ih =>
      rw [skipSpaceWithin, h.peek_zero, ok_bind]
      cases front : c.ahead with
      | nil =>
          rw [List.takeWhile_nil, List.length_nil, h.advance_zero]
          rfl
      | cons b rest =>
          have next : (c.advance (1 : Nat)).2.ahead = rest := by rw [h.ahead_advance, front]; rfl
          simp only [List.head?_cons, List.takeWhile_cons]
          split
          -- The other blanks are those ahead of the cursor behind the first.
          · have fewer : (c.advance (1 : Nat)).2.ahead.length ≤ fuel := by
              rw [next]
              rw [front] at enough
              exact Nat.le_of_succ_le_succ enough
            rw [List.length_cons, Nat.add_comm, ← h.advance_advance, ← next]
            exact ih (h.advance 1) fewer
          · rw [List.length_nil, h.advance_zero]
            rfl

theorem skipSpace_eq (h : Located data c) :
    c.skipSpace = .ok (c.advance (c.ahead.takeWhile isSpace).length).2 := by
  have whole := h.offset_add_ahead
  rw [skipSpace, h.size_eq]
  exact h.skipSpaceWithin_eq (by omega)

theorem readToEnd_eq (h : Located data c) : c.readToEnd = c.advance c.ahead.length := by
  have whole := h.offset_add_ahead
  rw [readToEnd, h.size_eq]
  congr 1
  omega

theorem readUntil_eq (h : Located data c) {marker before after : List UInt8}
    (found : Text.splitAtFirst? marker c.ahead = some (before, after)) :
    c.readUntil marker = (some before, (c.advance before.length).2) := by
  have nonneg := h.nonneg
  have far : ((c.place c.offset + before.length : Nat) : Int) - c.offset = before.length := by
    rw [c.place_of_le nonneg h.le_size]
    omega
  have passed : (c.advance before.length).1 = before := by
    rw [h.advance_eq, ← Text.append_of_splitAtFirst? found, List.take_left]
  rw [readUntil, find?, found, Option.map_some]
  simp only [far, passed]

theorem stays (h : Located data c) {operation : Operation} {answer : Answer}
    (passes : operation.Passes answer [] c.ahead) : Moves data operation answer c c where
  located := h
  forward := Int.le_refl _
  passes := by
    rw [← h.ahead_eq]
    have nothing := h.stretch_ahead List.nil_prefix
    rw [List.length_nil, Int.natCast_zero, Int.add_zero] at nothing
    rwa [nothing]
  steady _ := rfl

/-- Every operation that moves a cursor moves it on by some bytes. -/
theorem moves (h : Located data c) {passed rest : List UInt8} (parts : passed ++ rest = c.ahead)
    {operation : Operation} {answer : Answer} (passes : operation.Passes answer passed rest)
    (busy : c.idles operation answer = false) :
    Moves data operation answer c (c.advance passed.length).2 where
  located := h.advance passed.length
  forward := by
    rw [h.offset_advance]
    omega
  passes := by rwa [h.stretch_advance, h.drop_advance, ← parts, List.take_left, List.drop_left]
  steady idle := by
    rw [busy] at idle
    cases idle

theorem moves_pop (h : Located data c) :
    ∃ b next, c.pop = .ok (b, next) ∧ Moves data .pop (.byte b) c next := by
  cases ahead : c.ahead with
  | nil =>
      have passes : Operation.pop.Passes (.byte none) [] c.ahead := ahead ▸ .popAtEnd
      refine ⟨none, c, ?_, h.stays passes⟩
      rw [pop, h.peek_zero, ahead]
      rfl
  | cons b rest =>
      have further : c.atEnd = false := by
        rw [h.atEnd_eq, ahead]
        rfl
      have parts : [b] ++ rest = c.ahead := ahead.symm
      refine ⟨some b, (c.advance [b].length).2, ?_, h.moves parts (.pop b rest) further⟩
      rw [pop, h.peek_zero, ahead]
      rfl

theorem moves_consume (h : Located data c) (marker : List UInt8) :
    Moves data (.consume marker) (.holds (c.consume marker).1) c (c.consume marker).2 := by
  rw [consume]
  split
  · next begins =>
    obtain ⟨rest, parts⟩ := List.isPrefixOf_iff_prefix.1 begins
    exact h.moves parts (.consume marker rest) rfl
  · next other =>
    exact h.stays (.consumeOther fun begins => other (List.isPrefixOf_iff_prefix.2 begins))

theorem moves_advance (h : Located data c) (n : Nat) :
    Moves data (.advance n) (.bytes (c.advance n).1) c (c.advance n).2 := by
  have again : c.ahead.take (c.ahead.take n).length = c.ahead.take n := by
    rw [List.length_take, ← List.take_eq_take_min]
  have same : c.advance (c.ahead.take n).length = c.advance n := by
    rw [h.advance_eq, h.advance_eq, again]
  have parts : c.ahead.take n ++ c.ahead.drop n = c.ahead := List.take_append_drop n c.ahead
  have far : (c.ahead.take n).length = min n (c.ahead.take n ++ c.ahead.drop n).length := by
    rw [parts, List.length_take]
  rw [h.passed_advance, ← same]
  exact h.moves parts (.advance far) rfl

theorem moves_readUntil (h : Located data c) (marker : List UInt8) :
    Moves data (.readUntil marker) (.before (c.readUntil marker).1) c
      (c.readUntil marker).2 := by
  cases found : Text.splitAtFirst? marker c.ahead with
  | none =>
      rw [readUntil_of_find?_eq_none (by rw [find?, found]; rfl)]
      exact h.stays (.readUntilNone (not_infix_of_splitAtFirst? found))
  | some parts =>
      obtain ⟨before, after⟩ := parts
      have begins := Construct.isPrefix_of_splitAtFirst? found
      rw [h.readUntil_eq found]
      exact h.moves (Text.append_of_splitAtFirst? found)
        (.readUntil begins fun _ => eq_nil_of_splitAtFirst? found) rfl

theorem moves_readToEnd (h : Located data c) :
    Moves data .readToEnd (.bytes c.readToEnd.1) c c.readToEnd.2 := by
  rw [h.readToEnd_eq, h.passed_advance, List.take_length]
  exact h.moves (List.append_nil c.ahead) (.readToEnd c.ahead) rfl

theorem moves_skipSpace (h : Located data c) :
    ∃ next, c.skipSpace = .ok next ∧ Moves data .skipSpace .done c next := by
  have ends (b : UInt8) (first : (c.ahead.dropWhile isSpace).head? = some b) :
      isSpace b = false := by
    have stops := List.head?_dropWhile_not isSpace c.ahead
    rw [first] at stops
    simpa using stops
  have spaces (b : UInt8) (member : b ∈ c.ahead.takeWhile isSpace) : isSpace b = true :=
    List.mem_takeWhile_imp member
  refine ⟨_, h.skipSpace_eq, ?_⟩
  exact h.moves List.takeWhile_append_dropWhile (.skipSpace spaces ends) rfl

/-- The step of every run. -/
theorem moves_perform (h : Located data c) (operation : Operation) :
    Moves data operation (c.perform operation).1 c (c.perform operation).2 := by
  cases operation with
  | pop =>
      obtain ⟨b, next, popped, moved⟩ := h.moves_pop
      rw [perform, popped]
      exact moved
  | consume marker => exact h.moves_consume marker
  | advance n => exact h.moves_advance n
  | readUntil marker => exact h.moves_readUntil marker
  | readToEnd => exact h.moves_readToEnd
  | skipSpace =>
      obtain ⟨next, skipped, moved⟩ := h.moves_skipSpace
      rw [perform, skipped]
      exact moved
  | peek n =>
      rw [perform]
      split <;> exact h.stays (.look rfl)
  | startsWith | find | atEnd | bytes | source | error | text => exact h.stays (.look rfl)

end Located

/-! ## Runs -/

theorem located_carryOut {data : List UInt8} {c : Cursor} (h : Located data c)
    (operations : List Operation) : Located data (c.carryOut operations) := by
  induction operations generalizing c with
  | nil => exact h
  | cons operation operations ih => exact ih (h.moves_perform operation).located

theorem offset_le_carryOut {data : List UInt8} {c : Cursor} (h : Located data c)
    (operations : List Operation) : c.offset ≤ (c.carryOut operations).offset := by
  induction operations generalizing c with
  | nil => exact Int.le_refl _
  | cons operation operations ih =>
      have step := h.moves_perform operation
      exact Int.le_trans step.forward (ih step.located)

/-- Whatever a cursor was asked before, it is within its data and its position is that of its place;
every further call takes it over the bytes next to it, or leaves it as it is; and it never goes
back. -/
theorem carryOut_moves (data : List UInt8) (file : String) (earlier : List Operation) :
    let c := (ofBytes data file).carryOut earlier
    Located data c ∧
      (∀ operation, Moves data operation (c.perform operation).1 c (c.perform operation).2) ∧
      ∀ later, c.offset ≤ (c.carryOut later).offset := by
  have located := located_carryOut (located_ofBytes data file) earlier
  exact ⟨located, located.moves_perform, offset_le_carryOut located⟩

example : ((ofBytes [97, 98, 10, 99, 100, 10, 101, 102] "t").carryOut
    [.readUntil [99], .pop, .consume [98], .advance 3]).position = ⟨3, 1⟩ := by
  decide

end Cursor

end Templating
