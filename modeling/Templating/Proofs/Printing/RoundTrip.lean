import Templating.Proofs.Printing.Document
import Templating.Proofs.Printing.Spacing

/-!
# Parsing undoes writing

Each item is read back as the constructs that it was written with, and these are put together as
the node that the item stands for.  By induction on the document the whole of it is read back.
-/

namespace Templating

namespace Construct

open Expression Remaining

/-! ## Statements -/

theorem take?_name {name : String} (isName : IsName name) (rest : List Char) (p : Position)
    {c : Char} (h : isNameStart c = false) : take? ⟨name.toList ++ rest, p⟩ c = none := by
  obtain ⟨d, cs, hname, start, -⟩ := isName
  have different : d ≠ c := by
    rintro rfl
    rw [start] at h
    cases h
  rw [hname, List.cons_append]
  exact take?_of_ne different _ p

theorem skipBlanks_name {name : String} (isName : IsName name) (rest : List Char) (p : Position) :
    skipBlanks ⟨' ' :: (name.toList ++ rest), p⟩ = ⟨name.toList ++ rest, p.right 1⟩ := by
  obtain ⟨d, cs, hname, start, -⟩ := isName
  have range := range_of_isNameStart start
  rw [skipBlanks_blank (by decide), hname, List.cons_append,
    skipBlanks_cons (isBlank_of_range (by omega) range.2)]
  rfl

theorem head_parameterText (params : List Term) :
    ∀ c, (parameterText params).head? = some c → isNamePart c = false := by
  intro c hc
  cases params with
  | nil =>
      cases hc
      decide
  | cons t others =>
      cases hc
      decide

theorem statement_inline (name : Name) (ordinary : name.text ≠ "else") (params : List Term)
    (p q : Position) :
    ∃ nodes, Statement p ⟨tagContent [] name params, q⟩ (.inline p name.text nodes) ∧
      eraseAll nodes = termNodes params := by
  obtain ⟨nodes, parameters, same⟩ :=
    parameters_parameterText params ((q.right 1).right name.text.length)
  have begins : skipBlanks ⟨tagContent [] name params, q⟩ =
      ⟨name.text.toList ++ parameterText params, q.right 1⟩ :=
    skipBlanks_name name.isName _ q
  refine ⟨nodes, .inline ?_ ?_ ?_ ordinary parameters, same⟩
  · rw [begins]
    exact take?_name name.isName _ _ (by decide)
  · rw [begins]
    exact take?_name name.isName _ _ (by decide)
  · rw [begins]
    exact readName_append name.isName (head_parameterText params) _

theorem statement_opening (name : Name) (params : List Term) (p q : Position) :
    ∃ nodes, Statement p ⟨tagContent ['#'] name params, q⟩ (.opening p name.text nodes) ∧
      eraseAll nodes = termNodes params := by
  obtain ⟨nodes, parameters, same⟩ :=
    parameters_parameterText params (((q.right 1).right 1).right name.text.length)
  have begins : skipBlanks ⟨tagContent ['#'] name params, q⟩ =
      ⟨'#' :: (name.text.toList ++ parameterText params), q.right 1⟩ := by
    rw [tagContent, skipBlanks_blank (by decide)]
    exact skipBlanks_cons (by decide) _ _
  have slash : take? (skipBlanks ⟨tagContent ['#'] name params, q⟩) '/' = none := by
    rw [begins]
    exact take?_of_ne (by decide) _ _
  have hash : take? (skipBlanks ⟨tagContent ['#'] name params, q⟩) '#' =
      some ⟨name.text.toList ++ parameterText params, (q.right 1).right 1⟩ := by
    rw [begins]
    exact take?_cons '#' _ _
  have named := readName_append name.isName (head_parameterText params) ((q.right 1).right 1)
  exact ⟨nodes, .opening slash hash named parameters, same⟩

theorem statement_otherwise (p q : Position) :
    Statement p ⟨[' ', 'e', 'l', 's', 'e', ' '], q⟩ (.otherwise p) := by
  have isName : IsName "else" := ⟨'e', ['l', 's', 'e'], by decide, by decide, by decide⟩
  have stop : ∀ c, [' '].head? = some c → isNamePart c = false := by
    rintro c ⟨⟩
    decide
  have begins : skipBlanks ⟨[' ', 'e', 'l', 's', 'e', ' '], q⟩ =
      ⟨"else".toList ++ [' '], q.right 1⟩ := skipBlanks_name isName [' '] q
  refine .otherwise ?_ ?_ ?_ (atEnd_blank ((q.right 1).right 4))
  · rw [begins]
    exact take?_name isName _ _ (by decide)
  · rw [begins]
    exact take?_name isName _ _ (by decide)
  · rw [begins]
    exact readName_append isName stop _

theorem output_print (t : Term) (p q : Position) :
    ∃ node, Output p ⟨' ' :: (t.print ++ [' ']), q⟩ (.inline p "get" [node]) ∧
      node.erase = t.node := by
  obtain ⟨node, mid, read, same⟩ := reads_term t (follow_cons (.inl rfl) []) (q.right 1)
  have further := read.of_skipBlanks (skipBlanks_blank (by decide : Text.isBlank ' ' = true) q
    (t.print ++ [' ']))
  exact ⟨node, .expression further (atEnd_blank mid), same⟩

/-! ## Pieces -/

theorem encodeChars_statement (content : List Char) :
    encodeChars (Templating.statement content) =
      Delimiter.statement.openingBytes ++ encodeChars content ++
        Delimiter.statement.closingBytes := by
  rw [Templating.statement, encodeChars_cons, encodeChars_cons, encodeChars_append,
    Delimiter.openingBytes_statement, Delimiter.closingBytes_statement]
  rfl

theorem opens_statement (content : List Char) (more : List UInt8) :
    Opens (encodeChars (Templating.statement content) ++ more) := by
  rw [encodeChars_statement, List.append_assoc, List.append_assoc]
  exact ⟨.statement, List.prefix_append _ _⟩

theorem piece_statement {content : List Char} (closed : Closed content) {p : Position}
    {c : Construct} (h : Statement p ⟨content, p.right 2⟩ c)
    (ordinary : ∀ q params, c ≠ .opening q "raw" params) (more : List UInt8) :
    Piece p (encodeChars (Templating.statement content)) more (some c) := by
  rw [encodeChars_statement]
  exact .statement (splitContent?_closed (by decide) closed more) (decode_encodeChars content) h
    ordinary

theorem encodeChars_output (t : Term) :
    encodeChars (Item.output t).print = Delimiter.output.openingBytes ++
      encodeChars (' ' :: (t.print ++ [' '])) ++ Delimiter.output.closingBytes := by
  have whole : (Item.output t).print =
      ['\x7b', '\x7b'] ++ (' ' :: (t.print ++ [' ']) ++ ['\x7d', '\x7d']) := by
    simp [Item.print]
  rw [whole, encodeChars_append, encodeChars_append, Delimiter.openingBytes_output,
    Delimiter.closingBytes_output]
  rfl

theorem piece_output (t : Term) (p : Position) (more : List UInt8) :
    ∃ node, Piece p (encodeChars (Item.output t).print) more (some (.inline p "get" [node])) ∧
      node.erase = t.node := by
  obtain ⟨node, output, same⟩ := output_print t p (p.right 2)
  have closed : Closed (' ' :: (t.print ++ [' '])) :=
    closed_cons ' ' ((closed_term t).append closed_blank) (by decide)
  refine ⟨node, ?_, same⟩
  rw [encodeChars_output]
  exact .output (splitContent?_closed (by decide) closed more) (decode_encodeChars _) output

theorem piece_text {content : String} (nonempty : content ≠ "")
    (closed : NoOpener content.toList) {more : List UInt8}
    (ends : more = [] ∨ content.toList.getLast? ≠ some '\x7b') (stops : more = [] ∨ Opens more)
    (p : Position) :
    Piece p (encodeChars content.toList) more (some (.text p content)) := by
  have some_bytes : encodeChars content.toList ≠ [] :=
    fun empty => nonempty ((encodeChars_eq_nil_iff content).1 empty)
  have piece := Piece.text some_bytes (isText_encodeChars closed ends) stops
    (decode_encodeChars content.toList) (p := p)
  rwa [String.ofList_toList] at piece

theorem isRawClose_closingTag : IsRawClose (encodeChars (closingTag .raw)) :=
  ⟨[32], [32], by simp [isSpace], by simp [isSpace], by decide⟩

theorem piece_raw (params : List Term) {content : String}
    (closed : NoRawClose (encodeChars content.toList)) (p : Position) (more : List UInt8) :
    ∃ nodes q, Piece p (encodeChars (Item.raw params content).print) more
        (some (.rawBlock p nodes (if content = "" then none else some (q, content)))) ∧
      eraseAll nodes = termNodes params := by
  obtain ⟨nodes, opening, same⟩ := statement_opening .raw params p (p.right 2)
  have inside : Closed (tagContent ['#'] .raw params) :=
    closed_tagContent (closed_cons '#' .nil (by decide)) .raw params
  have piece := Piece.rawBlock (splitContent?_closed (by decide) inside
      (encodeChars content.toList ++ encodeChars (closingTag .raw) ++ more))
    (decode_encodeChars _) opening rfl (splitRawBody?_append closed isRawClose_closingTag more)
    (decode_encodeChars content.toList)
  have whole : encodeChars (Item.raw params content).print = Delimiter.statement.openingBytes ++
      encodeChars (tagContent ['#'] .raw params) ++ Delimiter.statement.closingBytes ++
      encodeChars content.toList ++ encodeChars (closingTag .raw) := by
    rw [Item.print, encodeChars_append, encodeChars_append, encodeChars_statement]
    simp only [List.append_assoc]
  rw [String.ofList_toList] at piece
  simp only [List.isEmpty_iff, encodeChars_eq_nil_iff] at piece
  rw [whole]
  exact ⟨nodes, _, piece, same⟩

end Construct

/-! ## Putting together what was read -/

namespace Growth

theorem foldl_push_block (nodes outside : List Node) (block : OpenBlock) (outer : List OpenBlock) :
    nodes.foldl push ⟨outside, block :: outer⟩ =
      ⟨outside, nodes.foldl OpenBlock.push block :: outer⟩ :=
  List.foldl_hom (fun block => Growth.mk outside (block :: outer)) fun _ _ => rfl

/-- Nodes that are pushed one by one end up last first in front of what was there. -/
theorem foldl_push_of_cons {α : Type} (whole : List Node → α) {push : α → Node → α}
    (h : ∀ nodes node, push (whole nodes) node = whole (node :: nodes)) (nodes others : List Node) :
    nodes.foldl push (whole others) = whole (nodes.reverse ++ others) := by
  rw [List.foldl_hom whole h, List.foldl_flip_cons_eq_append']

theorem foldl_push_body (nodes body : List Node) (p : Position) (name : String)
    (params : List Node) :
    nodes.foldl OpenBlock.push ⟨p, name, params, body, none⟩ =
      ⟨p, name, params, nodes.reverse ++ body, none⟩ :=
  foldl_push_of_cons (fun body => OpenBlock.mk p name params body none) (fun _ _ => rfl) nodes body

theorem foldl_push_orelse (nodes body orelse : List Node) (p : Position) (name : String)
    (params : List Node) :
    nodes.foldl OpenBlock.push ⟨p, name, params, body, some orelse⟩ =
      ⟨p, name, params, body, some (nodes.reverse ++ orelse)⟩ :=
  foldl_push_of_cons (fun orelse => OpenBlock.mk p name params body (some orelse)) (fun _ _ => rfl)
    nodes orelse

theorem foldl_push_nodes (nodes outside : List Node) :
    nodes.foldl push ⟨outside, []⟩ = ⟨nodes.reverse ++ outside, []⟩ :=
  foldl_push_of_cons (fun outside => Growth.mk outside []) (fun _ _ => rfl) nodes outside

/-- The constructs add the nodes to whatever was put together before. -/
def Adds (constructs : List Construct) (nodes : List Node) : Prop :=
  ∀ growth : Growth, growth.run constructs = .ok (nodes.foldl push growth)

theorem Adds.append {first others : List Construct} {xs ys : List Node} (h : Adds first xs)
    (h' : Adds others ys) : Adds (first ++ others) (xs ++ ys) := by
  intro growth
  rw [run_append, h growth, List.foldl_append]
  exact h' _

theorem adds_block {body : List Construct} {nodes : List Node} (h : Adds body nodes)
    (p q : Position) (name : String) (params : List Node) :
    Adds (.opening p name params :: (body ++ [.closing q name]))
      [.tag p name params (some nodes) none] := by
  intro growth
  have inside := h ⟨growth.nodes, ⟨p, name, params, [], none⟩ :: growth.blocks⟩
  rw [foldl_push_block, foldl_push_body, List.append_nil] at inside
  simp only [run, step, bind, Except.bind, run_append, inside, close, if_true, OpenBlock.close,
    List.reverse_reverse, Option.map_none, List.foldl_cons, List.foldl_nil]

theorem adds_branching {body orelse : List Construct} {nodes others : List Node}
    (h : Adds body nodes) (h' : Adds orelse others) (p q s : Position) (name : String)
    (params : List Node) :
    Adds (.opening p name params :: (body ++ .otherwise q :: (orelse ++ [.closing s name])))
      [.tag p name params (some nodes) (some others)] := by
  intro growth
  have inside := h ⟨growth.nodes, ⟨p, name, params, [], none⟩ :: growth.blocks⟩
  rw [foldl_push_block, foldl_push_body, List.append_nil] at inside
  have turned := h' ⟨growth.nodes, ⟨p, name, params, nodes.reverse, some []⟩ :: growth.blocks⟩
  rw [foldl_push_block, foldl_push_orelse, List.append_nil] at turned
  simp only [run, step, bind, Except.bind, run_append, inside, turn, turned, close, if_true,
    OpenBlock.close, List.reverse_reverse, Option.map_some, List.foldl_cons, List.foldl_nil]

end Growth

/-! ## Documents -/

open Construct (Piece Opens piece_text piece_output piece_statement piece_raw opens_statement
  statement_inline statement_opening statement_otherwise)

/-- Wherever it stands, what is written in front of `more` is read as the nodes. -/
def ReadsBack (written : List Char) (nodes : List Node) (more : List UInt8) : Prop :=
  ∀ p, ∃ constructs q read, Construct.Reads p (encodeChars written ++ more) constructs q more ∧
    Growth.Adds constructs read ∧ eraseAll read = nodes

theorem ReadsBack.append {a b : List Char} {xs ys : List Node} {more : List UInt8}
    (h : ReadsBack a xs (encodeChars b ++ more)) (h' : ReadsBack b ys more) :
    ReadsBack (a ++ b) (xs ++ ys) more := by
  intro p
  obtain ⟨first, q, read, reads, adds, same⟩ := h p
  obtain ⟨others, s, read', reads', adds', same'⟩ := h' q
  rw [encodeChars_append, List.append_assoc]
  refine ⟨first ++ others, s, read ++ read', reads.trans reads', adds.append adds', ?_⟩
  rw [eraseAll_append, same, same']

/-- An item that is one construct. -/
theorem readsBack_piece {written : List Char} {n : Node} {more : List UInt8}
    (h : ∀ p, ∃ c node, Piece p (encodeChars written) more (some c) ∧
      (∀ growth : Growth, growth.step c = .ok (growth.push node)) ∧ node.erase = n) :
    ReadsBack written [n] more := by
  intro p
  obtain ⟨c, node, piece, step, same⟩ := h p
  refine ⟨[c], _, [node], .single piece, ?_, congrArg ([·]) same⟩
  intro growth
  simp only [Growth.run, step growth, bind, Except.bind, List.foldl_cons, List.foldl_nil]

theorem readsBack_output (t : Term) (more : List UInt8) :
    ReadsBack (Item.output t).print [(Item.output t).node] more := by
  apply readsBack_piece
  intro p
  obtain ⟨node, piece, same⟩ := piece_output t p more
  exact ⟨_, _, piece, fun growth => rfl,
    congrArg (fun value => Node.tag .start "get" [value] none none) same⟩

theorem readsBack_inline {name : Name} (ordinary : name.text ≠ "else") (params : List Term)
    (more : List UInt8) :
    ReadsBack (Item.inline name params).print [(Item.inline name params).node] more := by
  apply readsBack_piece
  intro p
  obtain ⟨nodes, statement, same⟩ := statement_inline name ordinary params p (p.right 2)
  have piece := piece_statement (closed_tagContent .nil name params) statement
    (fun q params h => by cases h) more
  exact ⟨_, _, piece, fun growth => rfl,
    congrArg (fun params => Node.tag .start name.text params none none) same⟩

theorem readsBack_raw (params : List Term) {content : String}
    (closed : Construct.NoRawClose (encodeChars content.toList)) (more : List UInt8) :
    ReadsBack (Item.raw params content).print [(Item.raw params content).node] more := by
  apply readsBack_piece
  intro p
  obtain ⟨nodes, q, piece, same⟩ := piece_raw params closed p more
  refine ⟨_, _, piece, fun growth => rfl, ?_⟩
  rw [Node.erase_tag, same]
  by_cases empty : content = ""
  · rw [if_pos empty, Item.node, if_pos empty]
    rfl
  · rw [if_neg empty, Item.node, if_neg empty]
    rfl

theorem readsBack_text {content : String} (nonempty : content ≠ "")
    (closed : Construct.NoOpener content.toList) {more : List UInt8}
    (ends : more = [] ∨ content.toList.getLast? ≠ some '\x7b') (stops : more = [] ∨ Opens more) :
    ReadsBack (Item.text content).print [(Item.text content).node] more := by
  apply readsBack_piece
  intro p
  exact ⟨_, _, piece_text nonempty closed ends stops p, fun growth => rfl, rfl⟩

theorem reads_opening {name : Name} (ordinary : name.text ≠ "raw") (params : List Term)
    (p : Position) (more : List UInt8) :
    ∃ nodes q, Construct.Reads p (encodeChars (statement (tagContent ['#'] name params)) ++ more)
        [.opening p name.text nodes] q more ∧
      eraseAll nodes = termNodes params := by
  obtain ⟨nodes, opening, same⟩ := statement_opening name params p (p.right 2)
  have piece := piece_statement (closed_tagContent (closed_cons '#' .nil (by decide)) name params)
    opening (fun q params h => ordinary (Construct.opening.inj h).2.1) more
  exact ⟨nodes, _, .single piece, same⟩

theorem reads_closing (name : Name) (p : Position) (more : List UInt8) :
    ∃ q, Construct.Reads p (encodeChars (closingTag name) ++ more) [.closing p name.text] q
      more := by
  let spacing : Construct.Spacing := ⟨[' '], [], [' '], by simp [Text.isBlank]⟩
  have piece := piece_statement (spacing.closed name.isName)
    (spacing.statement name.isName p (p.right 2)) (fun q params h => by cases h) more
  exact ⟨_, .single piece⟩

theorem reads_else (p : Position) (more : List UInt8) :
    ∃ q, Construct.Reads p (encodeChars elseTag ++ more) [.otherwise p] q more := by
  have closed : Closed [' ', 'e', 'l', 's', 'e', ' '] := closed_of_plain (by simp)
  have piece := piece_statement closed (statement_otherwise p (p.right 2))
    (fun q params h => by cases h) more
  exact ⟨_, .single piece⟩

theorem readsBack_block {name : Name} (ordinary : name.text ≠ "raw") (params : List Term)
    {body : List Item} (h : ∀ more, Opens more → ReadsBack (printItems body) (itemNodes body) more)
    (more : List UInt8) :
    ReadsBack (Item.block name params body none).print
      [(Item.block name params body none).node] more := by
  intro p
  obtain ⟨nodes, begun, opening, same⟩ := reads_opening ordinary params p
    (encodeChars (printItems body) ++ (encodeChars (closingTag name) ++ more))
  obtain ⟨inner, ended, read, inside, adds, bodySame⟩ :=
    h (encodeChars (closingTag name) ++ more) (opens_statement _ more) begun
  obtain ⟨q, closing⟩ := reads_closing name ended more
  have whole : encodeChars (Item.block name params body none).print ++ more =
      encodeChars (statement (tagContent ['#'] name params)) ++
        (encodeChars (printItems body) ++ (encodeChars (closingTag name) ++ more)) := by
    rw [Item.print_block]
    simp only [encodeChars_append, List.append_assoc]
  rw [whole]
  refine ⟨_, q, _, opening.trans (inside.trans closing),
    Growth.adds_block adds p ended name.text nodes, ?_⟩
  show [Node.tag .start name.text (eraseAll nodes) (some (eraseAll read)) none] = _
  rw [same, bodySame]
  rfl

theorem readsBack_branching {name : Name} (ordinary : name.text ≠ "raw") (params : List Term)
    {body orelse : List Item}
    (h : ∀ more, Opens more → ReadsBack (printItems body) (itemNodes body) more)
    (h' : ∀ more, Opens more → ReadsBack (printItems orelse) (itemNodes orelse) more)
    (more : List UInt8) :
    ReadsBack (Item.block name params body (some orelse)).print
      [(Item.block name params body (some orelse)).node] more := by
  intro p
  obtain ⟨nodes, begun, opening, same⟩ := reads_opening ordinary params p
    (encodeChars (printItems body) ++ (encodeChars elseTag ++
      (encodeChars (printItems orelse) ++ (encodeChars (closingTag name) ++ more))))
  obtain ⟨inner, turned, read, inside, adds, bodySame⟩ :=
    h (encodeChars elseTag ++
      (encodeChars (printItems orelse) ++ (encodeChars (closingTag name) ++ more)))
      (opens_statement _ _) begun
  obtain ⟨resumed, otherwise⟩ := reads_else turned
    (encodeChars (printItems orelse) ++ (encodeChars (closingTag name) ++ more))
  obtain ⟨others, ended, read', inside', adds', elseSame⟩ :=
    h' (encodeChars (closingTag name) ++ more) (opens_statement _ more) resumed
  obtain ⟨q, closing⟩ := reads_closing name ended more
  have whole : encodeChars (Item.block name params body (some orelse)).print ++ more =
      encodeChars (statement (tagContent ['#'] name params)) ++
        (encodeChars (printItems body) ++ (encodeChars elseTag ++
          (encodeChars (printItems orelse) ++ (encodeChars (closingTag name) ++ more)))) := by
    rw [Item.print_branching]
    simp only [encodeChars_append, List.append_assoc]
  rw [whole]
  refine ⟨_, q, _, opening.trans (inside.trans (otherwise.trans (inside'.trans closing))),
    Growth.adds_branching adds adds' p turned ended name.text nodes, ?_⟩
  show [Node.tag .start name.text (eraseAll nodes) (some (eraseAll read))
    (some (eraseAll read'))] = _
  rw [same, bodySame, elseSame]
  rfl

/-- What follows a text is the end, or begins with a delimiter. -/
theorem opens_printItems {followed : Bool} {items : List Item} (h : Fits followed items)
    (other : ∀ content others, items ≠ .text content :: others) {more : List UInt8}
    (stops : more = [] ∨ Opens more) :
    encodeChars (printItems items) ++ more = [] ∨
      Opens (encodeChars (printItems items) ++ more) := by
  have begins {head : List Char} (opens : ∀ tail, Opens (encodeChars head ++ tail))
      (rest : List Char) : Opens (encodeChars (head ++ rest) ++ more) := by
    rw [encodeChars_append, List.append_assoc]
    exact opens _
  cases h with
  | nil => exact stops
  | text => exact absurd rfl (other _ _)
  | output t =>
      refine .inr (begins (fun tail => ?_) _)
      rw [Construct.encodeChars_output, List.append_assoc, List.append_assoc]
      exact ⟨.output, List.prefix_append _ _⟩
  | inline params => exact .inr (begins (opens_statement _) _)
  | block params | branching params | raw params =>
      change _ ∨ Opens (encodeChars ((statement _ ++ _) ++ _) ++ more)
      rw [List.append_assoc]
      exact .inr (begins (opens_statement _) _)

/-- A document is read back in front of what may follow it. -/
theorem readsBack_items {followed : Bool} {items : List Item} (h : Fits followed items) :
    ∀ more, (followed = true → Opens more) → (followed = false → more = []) →
      ReadsBack (printItems items) (itemNodes items) more := by
  -- The induction follows the items; `more` has to vary, for each item stands before others.
  induction h with
  | nil followed =>
      intro more _ _ p
      exact ⟨[], p, [], .refl p more, fun growth => rfl, rfl⟩
  | @text followed content rest nonempty closed other last fits ih =>
      intro more opens ends
      have stops : more = [] ∨ Opens more := by
        cases followed with
        | true => exact .inr (opens rfl)
        | false => exact .inl (ends rfl)
      have edge : encodeChars (printItems rest) ++ more = [] ∨
          content.toList.getLast? ≠ some '\x7b' := by
        rcases last with ⟨rfl, free⟩ | last
        · refine .inl ?_
          rw [ends free]
          rfl
        · exact .inr last
      exact (readsBack_text nonempty closed edge (opens_printItems fits other stops)).append
        (ih more opens ends)
  | output t _ ih =>
      intro more opens ends
      exact (readsBack_output t _).append (ih more opens ends)
  | inline params ordinary _ ih =>
      intro more opens ends
      exact (readsBack_inline ordinary params _).append (ih more opens ends)
  | block params ordinary _ _ inner ih =>
      intro more opens ends
      have body := fun after opens => inner after (fun _ => opens) nofun
      exact (readsBack_block ordinary params body _).append (ih more opens ends)
  | branching params ordinary _ _ _ inner inner' ih =>
      intro more opens ends
      have body := fun after opens => inner after (fun _ => opens) nofun
      have orelse := fun after opens => inner' after (fun _ => opens) nofun
      exact (readsBack_branching ordinary params body orelse _).append (ih more opens ends)
  | raw params closed _ ih =>
      intro more opens ends
      exact (readsBack_raw params closed _).append (ih more opens ends)

namespace Template

/-- Parsing a document as it is written succeeds and gives its tree, positions aside. -/
theorem parse_printItems {items : List Item} (h : Fits false items) (file : String) :
    ∃ tree, parse file (Text.Utf8.encode (String.ofList (printItems items))) = .ok tree ∧
      eraseAll tree = itemNodes items := by
  obtain ⟨constructs, q, read, reads, adds, same⟩ :=
    readsBack_items h [] nofun (fun _ => rfl) .start
  rw [List.append_nil] at reads
  have bytes : Text.Utf8.encode (String.ofList (printItems items)) =
      encodeChars (printItems items) := by
    rw [Text.Utf8.encode, String.toList_ofList]
    rfl
  refine ⟨read, parse_eq_ok_iff.2 (read_eq_ok_iff.2 ?_), same⟩
  rw [bytes, Construct.survey_of_reads reads]
  have pushed := Growth.foldl_push_nodes read []
  rw [List.append_nil] at pushed
  exact ⟨rfl, ⟨read.reverse, []⟩, (adds Growth.empty).trans (congrArg Except.ok pushed),
    congrArg Except.ok (List.reverse_reverse read)⟩

/-- Strings that hold closers, quotes and backslashes, an empty else, and a raw body that looks like
a tag. -/
def motleyItems : List Item :=
  [.text "a\x7b'\"\n",
    .block ⟨"if", 'i', ['f'], by decide, by decide, by decide⟩
      [.path .raw (.key "%\x7d \"\\") [.index ⟨-12, by decide⟩],
        .call .raw [.string "\x7d\x7d'", .keyword .null]]
      [.output (.name .raw (by decide)), .text "b "] (some []),
    .raw [.integer ⟨0, by decide⟩] "\x7b\x7b \x7b% /raw",
    .text "\x7b"]

theorem parse_motleyItems :
    Fits false motleyItems ∧
      ∃ tree, parse "motley" (Text.Utf8.encode (String.ofList (printItems motleyItems))) =
          .ok tree ∧
        eraseAll tree = itemNodes motleyItems := by
  have fits : Fits false motleyItems := by
    refine .text (by decide) ?_ ?_ (.inr (by decide)) (.branching _ (by decide) ?_ (.nil true) ?_)
    · intro d
      cases d <;> decide
    · intro other others h
      cases h
    · refine .output _ (.text (by decide) ?_ nofun (.inr (by decide)) (.nil true))
      intro d
      cases d <;> decide
    · refine .raw _ (Construct.noRawClose_of_splitRawBody? (by decide +kernel)) ?_
      refine .text (by decide) ?_ nofun (.inl ⟨rfl, rfl⟩) (.nil false)
      intro d
      cases d <;> decide
  exact ⟨fits, parse_printItems fits "motley"⟩

end Template

end Templating
