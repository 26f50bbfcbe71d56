import Templating.Proofs.Outcome
import Templating.Value.Text

/-!
# Collections told by their texts

The text of a collection tells which collection it is.  Every part of it tells what it is and where
it ends, whatever follows it there: a quoted text by its quotes, a collection by its brackets, and
an integer because no digit follows it.  So a text is read from its front in one way only.
-/

namespace Templating

/-! ## Quoted texts -/

namespace Text

def hexValue (c : Char) : Nat := if c.toNat < 58 then c.toNat - 48 else c.toNat - 87

/-- The first character of what is left of a quoted text, and what is left behind it. -/
def readJsonChar? : List Char → Option (Char × List Char)
  | '\\' :: 'n' :: rest => some ('\n', rest)
  | '\\' :: 'r' :: rest => some ('\r', rest)
  | '\\' :: 't' :: rest => some ('\t', rest)
  | '\\' :: 'f' :: rest => some ('\x0c', rest)
  | '\\' :: 'b' :: rest => some ('\x08', rest)
  | '\\' :: 'u' :: '0' :: '0' :: high :: low :: rest =>
    some (Char.ofNat (16 * hexValue high + hexValue low), rest)
  | '\\' :: c :: rest => some (c, rest)
  | '"' :: _ | [] => none
  | c :: rest => some (c, rest)

theorem hexText_control : ∀ n < 32, ∃ high low, hexText 4 n = ['0', '0', high, low] ∧
    16 * hexValue high + hexValue low = n := by
  intro n small
  refine ⟨hexDigit (n / 16), hexDigit (n % 16), ?_, ?_⟩ <;> revert n <;> decide

theorem readJsonChar?_append (c : Char) (rest : List Char) :
    readJsonChar? (jsonChar c ++ rest) = some (c, rest) := by
  unfold jsonChar
  split
  · next special =>
    rcases special with rfl | rfl <;> rfl
  split
  · next same => rw [same]; rfl
  split
  · next same => rw [same]; rfl
  split
  · next same => rw [same]; rfl
  split
  · next same => rw [same]; rfl
  split
  · next same => rw [same]; rfl
  split
  · next small =>
    obtain ⟨high, low, written, value⟩ := hexText_control c.toNat small
    rw [written]
    show some (Char.ofNat (16 * hexValue high + hexValue low), rest) = _
    rw [value, Char.ofNat_toNat]
  · next special _ _ _ _ _ _ =>
    rw [not_or] at special
    show readJsonChar? (c :: rest) = _
    rw [readJsonChar?.eq_def]
    split <;> simp_all

theorem jsonChar_unique {c d : Char} {rest rest' : List Char}
    (h : jsonChar c ++ rest = jsonChar d ++ rest') : c = d ∧ rest = rest' := by
  have same := congrArg readJsonChar? h
  rwa [readJsonChar?_append, readJsonChar?_append, Option.some.injEq, Prod.mk.injEq] at same

theorem inside_unique {cs ds rest rest' : List Char}
    (h : cs.flatMap jsonChar ++ '"' :: rest = ds.flatMap jsonChar ++ '"' :: rest') :
    cs = ds ∧ rest = rest' := by
  induction cs generalizing ds with
  | nil =>
      cases ds with
      | nil => exact ⟨rfl, List.cons.inj h |>.2⟩
      | cons d ds =>
          have same := congrArg readJsonChar? h
          rw [List.flatMap_cons, List.append_assoc, readJsonChar?_append] at same
          cases same
  | cons c cs ih =>
      rw [List.flatMap_cons, List.append_assoc] at h
      cases ds with
      | nil =>
          have same := congrArg readJsonChar? h
          rw [readJsonChar?_append] at same
          cases same
      | cons d ds =>
          rw [List.flatMap_cons, List.append_assoc] at h
          obtain ⟨rfl, others⟩ := jsonChar_unique h
          obtain ⟨rfl, same⟩ := ih others
          exact ⟨rfl, same⟩

theorem toList_json (s : String) :
    (json s).toList = '"' :: (s.toList.flatMap jsonChar ++ ['"']) := by
  simp [json]

/-- A quoted text ends at its closing quote, whatever follows. -/
theorem json_unique {s t : String} {rest rest' : List Char}
    (h : (json s).toList ++ rest = (json t).toList ++ rest') : s = t ∧ rest = rest' := by
  simp only [toList_json, List.cons_append, List.append_assoc, List.cons.injEq,
    true_and] at h
  obtain ⟨same, behind⟩ := inside_unique h
  exact ⟨String.toList_inj.1 same, behind⟩

end Text

/-! ## Integers -/

/-- What may follow a part of a collection: the next part, or the end of the collection. -/
def EndsPart (rest : List Char) : Prop := ∀ c ∈ rest.head?, c = ',' ∨ c = ']' ∨ c = '\x7d'

theorem toList_toString (n : Int) :
    (toString n).toList =
      if n < 0 then '-' :: Nat.toDigits 10 n.natAbs else Nat.toDigits 10 n.natAbs := by
  cases n with
  | ofNat m =>
    rw [if_neg (by simp)]
    exact String.toList_ofList
  | negSucc m =>
    rw [if_pos (by simp)]
    show ("-" ++ Nat.repr (m + 1)).toList = _
    rw [String.toList_append]
    exact congrArg ('-' :: ·) String.toList_ofList

theorem toDigits_injective : Function.Injective (Nat.toDigits 10) := fun m n same => by
  rw [← Nat.ofDigitChars_ten_toDigits (n := m), same, Nat.ofDigitChars_ten_toDigits]

theorem toList_toString_ne_nil (n : Int) : (toString n).toList ≠ [] := by
  rw [toList_toString]
  split
  · exact List.cons_ne_nil _ _
  · exact Nat.toDigits_ne_nil

/-- A digit or a sign. -/
def isNumeral (c : Char) : Bool := c.isDigit || c == '-'

theorem isNumeral_of_mem_toString {n : Int} {c : Char} (member : c ∈ (toString n).toList) :
    isNumeral c = true := by
  have digit (member : c ∈ Nat.toDigits 10 n.natAbs) : isNumeral c = true := by
    simp [isNumeral, Nat.isDigit_of_mem_toDigits (by decide) (by decide) member]
  rw [toList_toString] at member
  split at member
  · rcases List.mem_cons.1 member with rfl | member
    · rfl
    · exact digit member
  · exact digit member

theorem takeWhile_toString_append (n : Int) {rest : List Char} (ends : EndsPart rest) :
    ((toString n).toList ++ rest).takeWhile isNumeral = (toString n).toList := by
  rw [List.takeWhile_append_of_pos fun c => isNumeral_of_mem_toString]
  cases rest with
  | nil => simp
  | cons c rest =>
      have stop : isNumeral c = false := by
        rcases ends c rfl with rfl | rfl | rfl <;> rfl
      simp [stop]

theorem toString_injective {m n : Int} (h : (toString m).toList = (toString n).toList) :
    m = n := by
  have unsigned (k : Nat) (digits : List Char) : '-' :: digits ≠ Nat.toDigits 10 k := by
    intro same
    have digit := Nat.isDigit_of_mem_toDigits (b := 10) (n := k) (c := '-') (by decide) (by decide)
      (same ▸ List.mem_cons_self)
    cases digit
  rw [toList_toString, toList_toString] at h
  split at h <;> split at h
  · have same := toDigits_injective (List.cons.inj h).2
    omega
  · exact absurd h (unsigned _ _)
  · exact absurd h.symm (unsigned _ _)
  · have same := toDigits_injective h
    omega

/-- An integer ends where the part of the collection does. -/
theorem toString_unique {m n : Int} {rest rest' : List Char} (ends : EndsPart rest)
    (ends' : EndsPart rest') (h : (toString m).toList ++ rest = (toString n).toList ++ rest') :
    m = n ∧ rest = rest' := by
  have digits := congrArg (List.takeWhile isNumeral) h
  rw [takeWhile_toString_append m ends, takeWhile_toString_append n ends'] at digits
  refine ⟨toString_injective digits, ?_⟩
  rwa [digits, List.append_cancel_left_eq] at h

/-! ## Listings -/

/-- The parts of a collection behind its first, and its closing bracket. -/
def listingFrom (closing : Char) : List (List Char) → List Char
  | [] => [closing]
  | part :: rest => ',' :: (part ++ listingFrom closing rest)

/-- The parts of a collection with commas between them, and its closing bracket. -/
def listing (closing : Char) : List (List Char) → List Char
  | [] => [closing]
  | part :: rest => part ++ listingFrom closing rest

theorem intercalate_append_closing (closing : Char) (part : List Char) (rest : List (List Char)) :
    [','].intercalate (part :: rest) ++ [closing] = part ++ listingFrom closing rest := by
  induction rest generalizing part with
  | nil => simp [listingFrom]
  | cons next rest ih => simp [listingFrom, List.intercalate_cons_cons, ← ih]

theorem toList_bracketed (opening closing : Char) (parts : List String) :
    (Value.bracketed opening.toString closing.toString "," parts).toList =
      opening :: listing closing (parts.map String.toList) := by
  have ends : (Value.bracketed opening.toString closing.toString "," parts).toList =
      opening :: ([','].intercalate (parts.map String.toList) ++ [closing]) := by
    simp [Value.bracketed, String.toList_intercalate]
  rw [ends]
  cases parts with
  | nil => rfl
  | cons part rest => rw [List.map_cons, intercalate_append_closing, listing]

section Listings

variable {α : Type} {written : α → List Char} {x y : α} {rest rest' : List Char}

/-- The two things are one if what is written of them is the same as far as the part goes. -/
def TellsApart (written : α → List Char) (x y : α) : Prop :=
  ∀ rest rest', EndsPart rest → EndsPart rest' → written x ++ rest = written y ++ rest' →
    x = y ∧ rest = rest'

variable {closing : Char} (closes : closing = ']' ∨ closing = '\x7d')

include closes

theorem endsPart_listingFrom (parts : List (List Char)) (rest : List Char) :
    EndsPart (listingFrom closing parts ++ rest) := by
  cases parts with
  | nil =>
      rintro _ ⟨⟩
      exact .inr closes
  | cons part parts =>
      rintro _ ⟨⟩
      exact .inl rfl

theorem listingFrom_unique {xs ys : List α}
    (apart : ∀ x ∈ xs, ∀ y ∈ ys, TellsApart written x y)
    (h : listingFrom closing (xs.map written) ++ rest =
      listingFrom closing (ys.map written) ++ rest') : xs = ys ∧ rest = rest' := by
  have comma : closing ≠ ',' := by rcases closes with rfl | rfl <;> decide
  induction xs generalizing ys with
  | nil =>
      cases ys with
      | nil => exact ⟨rfl, (List.cons.inj h).2⟩
      | cons y ys => exact absurd (List.cons.inj h).1 comma
  | cons x xs ih =>
      cases ys with
      | nil => exact absurd (List.cons.inj h).1.symm comma
      | cons y ys =>
          simp only [List.map_cons, listingFrom, List.cons_append, List.append_assoc,
            List.cons.injEq, true_and] at h
          obtain ⟨rfl, others⟩ := apart x List.mem_cons_self y List.mem_cons_self _ _
            (endsPart_listingFrom closes _ _) (endsPart_listingFrom closes _ _) h
          obtain ⟨rfl, same⟩ := ih (fun a ha b hb =>
            apart a (List.mem_cons_of_mem _ ha) b (List.mem_cons_of_mem _ hb)) others
          exact ⟨rfl, same⟩

/-- A collection is told by its parts if no part begins with the bracket that closes it. -/
theorem listing_unique {xs ys : List α}
    (begins : ∀ x, x ∈ xs ∨ x ∈ ys → ∃ c cs, written x = c :: cs ∧ c ≠ closing)
    (apart : ∀ x ∈ xs, ∀ y ∈ ys, TellsApart written x y)
    (h : listing closing (xs.map written) ++ rest = listing closing (ys.map written) ++ rest') :
    xs = ys ∧ rest = rest' := by
  cases xs with
  | nil =>
      cases ys with
      | nil => exact ⟨rfl, (List.cons.inj h).2⟩
      | cons y ys =>
          obtain ⟨c, cs, same, other⟩ := begins y (.inr List.mem_cons_self)
          rw [List.map_cons, listing, same] at h
          exact absurd (List.cons.inj h).1.symm other
  | cons x xs =>
      cases ys with
      | nil =>
          obtain ⟨c, cs, same, other⟩ := begins x (.inl List.mem_cons_self)
          rw [List.map_cons, listing, same] at h
          exact absurd (List.cons.inj h).1 other
      | cons y ys =>
          simp only [List.map_cons, listing, List.append_assoc] at h
          obtain ⟨rfl, others⟩ := apart x List.mem_cons_self y List.mem_cons_self _ _
            (endsPart_listingFrom closes _ _) (endsPart_listingFrom closes _ _) h
          obtain ⟨rfl, same⟩ := listingFrom_unique closes (fun a ha b hb =>
            apart a (List.mem_cons_of_mem _ ha) b (List.mem_cons_of_mem _ hb)) others
          exact ⟨rfl, same⟩

end Listings

/-! ## Values -/

namespace Value

/-- There is no object and no number in the value, and its integers are short enough to have a
text. -/
inductive IsLegible : Value → Prop
  | null : IsLegible .null
  | bool (b : Bool) : IsLegible (.bool b)
  | int {n : Int} : n.natAbs < integerBound → IsLegible (.int n)
  | string (s : String) : IsLegible (.string s)
  | array {items : List Value} : (∀ v ∈ items, IsLegible v) → IsLegible (.array items)
  | dictionary {entries : List (String × Value)} : (∀ entry ∈ entries, IsLegible entry.2) →
      IsLegible (.dictionary entries)

/-- What is written for the value inside a collection. -/
def written (v : Value) : List Char := (v.json.toOption.getD "").toList

/-- What is written for an entry of a dictionary. -/
def writtenEntry (entry : String × Value) : List Char :=
  (Text.json entry.1).toList ++ ':' :: entry.2.written

theorem written_of_json {v : Value} {s : String} (h : v.json = .ok s) : v.written = s.toList := by
  rw [written, h]
  rfl

theorem jsonItems_eq_ok {items : List Value} (all : ∀ v ∈ items, ∃ s, v.json = .ok s) :
    ∃ texts, jsonItems items = .ok texts ∧ texts.map String.toList = items.map written := by
  induction items with
  | nil => exact ⟨[], rfl, rfl⟩
  | cons v rest ih =>
      obtain ⟨first, own⟩ := all v List.mem_cons_self
      obtain ⟨others, behind, same⟩ := ih fun w member => all w (List.mem_cons_of_mem v member)
      refine ⟨first :: others, ?_, ?_⟩
      · change (do
          let first ← v.json
          return first :: (← jsonItems rest)) = _
        rw [own, ok_bind, behind]
        rfl
      · rw [List.map_cons, List.map_cons, written_of_json own, same]

theorem jsonEntries_eq_ok {entries : List (String × Value)}
    (all : ∀ entry ∈ entries, ∃ s, entry.2.json = .ok s) :
    ∃ texts, jsonEntries entries = .ok texts ∧
      texts.map String.toList = entries.map writtenEntry := by
  induction entries with
  | nil => exact ⟨[], rfl, rfl⟩
  | cons entry rest ih =>
      obtain ⟨key, v⟩ := entry
      obtain ⟨first, own⟩ := all (key, v) List.mem_cons_self
      obtain ⟨others, behind, same⟩ := ih fun w member => all w (List.mem_cons_of_mem _ member)
      refine ⟨(Text.json key ++ ":" ++ first) :: others, ?_, ?_⟩
      · change (do
          let first ← v.json
          return (Text.json key ++ ":" ++ first) :: (← jsonEntries rest)) = _
        rw [own, ok_bind, behind]
        rfl
      · rw [List.map_cons, List.map_cons, same, writtenEntry, written_of_json own]
        simp

theorem json_array {items : List Value} (all : ∀ v ∈ items, ∃ s, v.json = .ok s) :
    ∃ s, (array items).json = .ok s ∧ s.toList = '[' :: listing ']' (items.map written) := by
  obtain ⟨texts, own, same⟩ := jsonItems_eq_ok all
  refine ⟨bracketed "[" "]" "," texts, ?_, ?_⟩
  · change (do return bracketed "[" "]" "," (← jsonItems items)) = _
    rw [own]
    rfl
  · rw [← same]
    exact toList_bracketed '[' ']' texts

theorem json_dictionary {entries : List (String × Value)}
    (all : ∀ entry ∈ entries, ∃ s, entry.2.json = .ok s) :
    ∃ s, (dictionary entries).json = .ok s ∧
      s.toList = '\x7b' :: listing '\x7d' (entries.map writtenEntry) := by
  obtain ⟨texts, own, same⟩ := jsonEntries_eq_ok all
  refine ⟨bracketed "\x7b" "\x7d" "," texts, ?_, ?_⟩
  · change (do return bracketed "\x7b" "\x7d" "," (← jsonEntries entries)) = _
    rw [own]
    rfl
  · rw [← same]
    exact toList_bracketed '\x7b' '\x7d' texts

theorem IsLegible.exists_json {v : Value} (h : v.IsLegible) : ∃ s, v.json = .ok s := by
  induction h with
  | null | bool | string => exact ⟨_, rfl⟩
  | @int n short =>
      change ∃ s, integerText n = .ok s
      exact ⟨_, if_pos short⟩
  | array _ ih => exact (json_array ih).imp fun _ => And.left
  | dictionary _ ih => exact (json_dictionary ih).imp fun _ => And.left

theorem written_null : null.written = ['n', 'u', 'l', 'l'] :=
  written_of_json (s := "null") rfl

theorem written_bool (b : Bool) :
    (bool b).written = if b then ['t', 'r', 'u', 'e'] else ['f', 'a', 'l', 's', 'e'] := by
  rw [written_of_json (s := boolText b) rfl]
  cases b <;> rfl

theorem written_int {n : Int} (short : n.natAbs < integerBound) :
    (int n).written = (toString n).toList :=
  written_of_json (show integerText n = _ from if_pos short)

theorem written_string (s : String) : (string s).written = (Text.json s).toList :=
  written_of_json rfl

theorem written_array {items : List Value} (all : ∀ v ∈ items, v.IsLegible) :
    (array items).written = '[' :: listing ']' (items.map written) := by
  obtain ⟨s, own, same⟩ := json_array fun v member => (all v member).exists_json
  rw [written_of_json own, same]

theorem written_dictionary {entries : List (String × Value)}
    (all : ∀ entry ∈ entries, entry.2.IsLegible) :
    (dictionary entries).written = '\x7b' :: listing '\x7d' (entries.map writtenEntry) := by
  obtain ⟨s, own, same⟩ := json_dictionary fun entry member => (all entry member).exists_json
  rw [written_of_json own, same]

/-- The kind of the value that is written from a character on. -/
def kindFrom? (c : Char) : Option Kind :=
  if isNumeral c then some .int
  else
    match c with
    | 'n' => some .null
    | 't' | 'f' => some .bool
    | '"' => some .string
    | '[' => some .array
    | '\x7b' => some .dictionary
    | _ => none

theorem IsLegible.exists_head {v : Value} (h : v.IsLegible) :
    ∃ c cs, v.written = c :: cs ∧ kindFrom? c = some v.kind := by
  cases h with
  | null => exact ⟨'n', _, written_null, rfl⟩
  | bool b =>
      rw [written_bool]
      cases b with
      | true => exact ⟨'t', _, rfl, rfl⟩
      | false => exact ⟨'f', _, rfl, rfl⟩
  | string s =>
      rw [written_string, Text.toList_json]
      exact ⟨'"', _, rfl, rfl⟩
  | array all => exact ⟨'[', _, written_array all, rfl⟩
  | dictionary all => exact ⟨'\x7b', _, written_dictionary all, rfl⟩
  | @int n short =>
      rw [written_int short]
      obtain ⟨c, cs, digits⟩ := List.exists_cons_of_ne_nil (toList_toString_ne_nil n)
      have numeral : isNumeral c = true :=
        isNumeral_of_mem_toString (n := n) (digits ▸ List.mem_cons_self)
      exact ⟨c, cs, digits, if_pos numeral⟩

theorem kind_eq_of_written {v w : Value} (hv : v.IsLegible) (hw : w.IsLegible)
    {rest rest' : List Char} (h : v.written ++ rest = w.written ++ rest') : v.kind = w.kind := by
  obtain ⟨c, cs, begins, kind⟩ := hv.exists_head
  obtain ⟨d, ds, begins', kind'⟩ := hw.exists_head
  rw [begins, begins'] at h
  rw [(List.cons.inj h).1, kind'] at kind
  exact (Option.some.inj kind).symm

theorem tellsApart_entry {entry other : String × Value}
    (apart : TellsApart written entry.2 other.2) : TellsApart writtenEntry entry other := by
  obtain ⟨key, v⟩ := entry
  obtain ⟨key', w⟩ := other
  intro rest rest' ends ends' h
  simp only [writtenEntry, List.append_assoc, List.cons_append] at h
  obtain ⟨rfl, behind⟩ := Text.json_unique h
  obtain ⟨rfl, same⟩ := apart rest rest' ends ends' (List.cons.inj behind).2
  exact ⟨rfl, same⟩

theorem tellsApart_array {items others : List Value} (all : ∀ v ∈ items, v.IsLegible)
    (all' : ∀ v ∈ others, v.IsLegible)
    (apart : ∀ v ∈ items, ∀ w ∈ others, TellsApart written v w) :
    TellsApart written (array items) (array others) := by
  intro rest rest' _ _ h
  rw [written_array all, written_array all'] at h
  have begins (v : Value) (member : v ∈ items ∨ v ∈ others) :
      ∃ c cs, v.written = c :: cs ∧ c ≠ ']' := by
    have legible : v.IsLegible := member.elim (all v) (all' v)
    obtain ⟨c, cs, front, kind⟩ := legible.exists_head
    refine ⟨c, cs, front, ?_⟩
    rintro rfl
    cases kind
  obtain ⟨rfl, same⟩ := listing_unique (.inl rfl) begins apart (List.cons.inj h).2
  exact ⟨rfl, same⟩

theorem tellsApart_dictionary {entries others : List (String × Value)}
    (all : ∀ entry ∈ entries, entry.2.IsLegible) (all' : ∀ entry ∈ others, entry.2.IsLegible)
    (apart : ∀ entry ∈ entries, ∀ other ∈ others, TellsApart written entry.2 other.2) :
    TellsApart written (dictionary entries) (dictionary others) := by
  intro rest rest' _ _ h
  rw [written_dictionary all, written_dictionary all'] at h
  have begins (entry : String × Value) (_ : entry ∈ entries ∨ entry ∈ others) :
      ∃ c cs, writtenEntry entry = c :: cs ∧ c ≠ '\x7d' := by
    rw [writtenEntry, Text.toList_json]
    exact ⟨'"', _, rfl, by decide⟩
  obtain ⟨rfl, same⟩ := listing_unique (.inr rfl) begins
    (fun entry member other member' => tellsApart_entry (apart entry member other member'))
    (List.cons.inj h).2
  exact ⟨rfl, same⟩

/-- What is written for two values tells them apart: its front tells their kinds, and what is inside
tells the rest. -/
theorem IsLegible.tellsApart {v : Value} (hv : v.IsLegible) :
    ∀ w : Value, w.IsLegible → TellsApart written v w := by
  induction hv with
  | null =>
      intro w hw rest rest' _ _ h
      have kinds := kind_eq_of_written .null hw h
      cases hw with
      | null => exact ⟨rfl, List.append_cancel_left h⟩
      | _ => cases kinds
  | bool b =>
      intro w hw rest rest' _ _ h
      have kinds := kind_eq_of_written (.bool b) hw h
      cases hw with
      | bool b' =>
          rw [written_bool, written_bool] at h
          cases b <;> cases b' <;> simp_all
      | _ => cases kinds
  | int short =>
      intro w hw rest rest' ends ends' h
      have kinds := kind_eq_of_written (.int short) hw h
      cases hw with
      | int short' =>
          rw [written_int short, written_int short'] at h
          obtain ⟨rfl, same⟩ := toString_unique ends ends' h
          exact ⟨rfl, same⟩
      | _ => cases kinds
  | string s =>
      intro w hw rest rest' _ _ h
      have kinds := kind_eq_of_written (.string s) hw h
      cases hw with
      | string s' =>
          rw [written_string, written_string] at h
          obtain ⟨rfl, same⟩ := Text.json_unique h
          exact ⟨rfl, same⟩
      | _ => cases kinds
  | array all ih =>
      intro w hw rest rest' ends ends' h
      have kinds := kind_eq_of_written (.array all) hw h
      cases hw with
      | array all' =>
          have apart := tellsApart_array all all' fun v member w member' =>
            ih v member w (all' w member')
          exact apart rest rest' ends ends' h
      | _ => cases kinds
  | dictionary all ih =>
      intro w hw rest rest' ends ends' h
      have kinds := kind_eq_of_written (.dictionary all) hw h
      cases hw with
      | dictionary all' =>
          have apart := tellsApart_dictionary all all' fun entry member other member' =>
            ih entry member other.2 (all' other member')
          exact apart rest rest' ends ends' h
      | _ => cases kinds

def isCollection (v : Value) : Bool := v.kind = .array ∨ v.kind = .dictionary

theorem text_of_isCollection {v : Value} (h : v.isCollection) : v.text = v.json := by
  cases v with
  | array | dictionary => rfl
  | _ => cases h

/-- Two collections that have the same text are the same collection, kind by kind, in the order of
their elements and of their keys. -/
theorem collection_text_injective {v w : Value} (hv : v.IsLegible) (hw : w.IsLegible)
    (collection : v.isCollection) (collection' : w.isCollection) :
    ∃ s t, v.text = .ok s ∧ w.text = .ok t ∧ (s = t ↔ v = w) := by
  rw [text_of_isCollection collection, text_of_isCollection collection']
  obtain ⟨s, own⟩ := hv.exists_json
  obtain ⟨t, own'⟩ := hw.exists_json
  refine ⟨s, t, own, own', ?_, ?_⟩
  · rintro rfl
    refine (hv.tellsApart w hw [] [] nofun nofun ?_).1
    rw [written_of_json own, written_of_json own']
  · rintro rfl
    exact Except.ok.inj (own.symm.trans own')

/-- An array of two texts is not written like one of a single text with the separator in it. -/
theorem collection_text_injective_separator :
    let pair := array [.string "a", .string "b"]
    let single := array [.string "a\",\"b"]
    pair.IsLegible ∧ single.IsLegible ∧ pair.isCollection ∧ single.isCollection ∧
      ∃ s t, pair.text = .ok s ∧ single.text = .ok t ∧ s ≠ t := by
  intro pair single
  have hv : pair.IsLegible := .array (by simp [IsLegible.string])
  have hw : single.IsLegible := .array (by simp [IsLegible.string])
  obtain ⟨s, t, own, own', same⟩ := collection_text_injective hv hw rfl rfl
  exact ⟨hv, hw, rfl, rfl, s, t, own, own', mt same.1 (by simp [pair, single])⟩

end Value

end Templating
