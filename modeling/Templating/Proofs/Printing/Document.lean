import Templating.Proofs.Printing.Delimited
import Templating.Proofs.Printing.ReadBack
import Templating.Proofs.Template.Nesting

/-!
# Documents in writing

A document is a list of items: texts, outputs, tags, blocks with their bodies, and raw blocks.
Parsing what was written gives the tree of the document back, its positions aside.
-/

namespace Templating

/-! ## Items -/

inductive Item
  | text (content : String)
  | output (t : Term)
  | inline (name : Name) (params : List Term)
  | block (name : Name) (params : List Term) (body : List Item) (orelse : Option (List Item))
  | raw (params : List Term) (content : String)

mutual

def Item.node : Item → Node
  | .text content => .raw .start content
  | .output t => .tag .start "get" [t.node] none none
  | .inline name params => .tag .start name.text (termNodes params) none none
  | .block name params body orelse =>
    .tag .start name.text (termNodes params) (some (itemNodes body)) (branchNodes orelse)
  | .raw params content =>
    .tag .start "raw" (termNodes params)
      (some (if content = "" then [] else [.raw .start content])) none

def itemNodes : List Item → List Node
  | [] => []
  | item :: rest => item.node :: itemNodes rest

def branchNodes : Option (List Item) → Option (List Node)
  | none => none
  | some items => some (itemNodes items)

end

/-! ## Writing -/

/-- A statement with the given content. -/
def statement (content : List Char) : List Char := '\x7b' :: '%' :: (content ++ ['%', '\x7d'])

/-- A name and parameters, with a blank at either end. -/
def tagContent (mark : List Char) (name : Name) (params : List Term) : List Char :=
  ' ' :: (mark ++ (name.text.toList ++ Expression.parameterText params))

def elseTag : List Char := statement [' ', 'e', 'l', 's', 'e', ' ']

def closingTag (name : Name) : List Char :=
  statement (' ' :: '/' :: (name.text.toList ++ [' ']))

def Name.raw : Name := ⟨"raw", 'r', ['a', 'w'], by decide, by decide, by decide⟩

mutual

def Item.print : Item → List Char
  | .text content => content.toList
  | .output t => '\x7b' :: '\x7b' :: ' ' :: (t.print ++ [' ', '\x7d', '\x7d'])
  | .inline name params => statement (tagContent [] name params)
  | .block name params body orelse =>
    statement (tagContent ['#'] name params) ++
      (printItems body ++ (printElse orelse ++ closingTag name))
  | .raw params content =>
    statement (tagContent ['#'] .raw params) ++ (content.toList ++ closingTag .raw)

def printItems : List Item → List Char
  | [] => []
  | item :: rest => item.print ++ printItems rest

def printElse : Option (List Item) → List Char
  | none => []
  | some items => elseTag ++ printItems items

end

theorem Item.print_block (name : Name) (params : List Term) (body : List Item) :
    (Item.block name params body none).print =
      statement (tagContent ['#'] name params) ++ (printItems body ++ closingTag name) := rfl

theorem Item.print_branching (name : Name) (params : List Term) (body orelse : List Item) :
    (Item.block name params body (some orelse)).print =
      statement (tagContent ['#'] name params) ++
        (printItems body ++ (elseTag ++ printItems orelse ++ closingTag name)) := rfl

/-- What may stand in a document, in front of a delimiter or at the end of the source: no text is
empty, holds an opening delimiter, stands beside another text, or ends in a brace in front of a
delimiter. -/
inductive Fits : Bool → List Item → Prop
  | nil (followed : Bool) : Fits followed []
  | text {followed : Bool} {content : String} {rest : List Item} :
      content ≠ "" → Construct.NoOpener content.toList →
      (∀ other others, rest ≠ .text other :: others) →
      (rest = [] ∧ followed = false ∨ content.toList.getLast? ≠ some '\x7b') →
      Fits followed rest → Fits followed (.text content :: rest)
  | output {followed : Bool} {rest : List Item} (t : Term) :
      Fits followed rest → Fits followed (.output t :: rest)
  | inline {followed : Bool} {rest : List Item} {name : Name} (params : List Term) :
      name.text ≠ "else" → Fits followed rest → Fits followed (.inline name params :: rest)
  | block {followed : Bool} {body rest : List Item} {name : Name} (params : List Term) :
      name.text ≠ "raw" → Fits true body → Fits followed rest →
      Fits followed (.block name params body none :: rest)
  | branching {followed : Bool} {body orelse rest : List Item} {name : Name}
      (params : List Term) :
      name.text ≠ "raw" → Fits true body → Fits true orelse → Fits followed rest →
      Fits followed (.block name params body (some orelse) :: rest)
  | raw {followed : Bool} {content : String} {rest : List Item} (params : List Term) :
      Construct.NoRawClose (encodeChars content.toList) → Fits followed rest →
      Fits followed (.raw params content :: rest)

/-! ## The content of tags is closed -/

theorem closed_parameterText (terms : List Term) : Closed (Expression.parameterText terms) := by
  cases terms with
  | nil => exact closed_blank
  | cons t others =>
      exact closed_cons ' ' ((closed_printList (t :: others)).append closed_blank) (by decide)

theorem closed_tagContent {mark : List Char} (h : Closed mark) (name : Name)
    (params : List Term) : Closed (tagContent mark name params) :=
  closed_cons ' ' (h.append ((closed_name name.isName).append (closed_parameterText params)))
    (by decide)

end Templating
