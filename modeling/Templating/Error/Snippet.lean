import Templating.Style
import Templating.Text.Blank

/-!
# Source snippets

The lines around an error, numbered, with a mark at the line of the error and a caret below its
column.
-/

namespace Templating

structure Snippet where
  lines : List (Int × String)
  errorLine : Int
  column : Option Int
deriving DecidableEq, Repr

namespace Snippet

def numbered (first : Int) : List String → List (Int × String)
  | [] => []
  | line :: rest => (first, line) :: numbered (first + 1) rest

/-- The lines at most `context` away from `errorLine`, counted from one. -/
def build (source : String) (errorLine : Int) (context : Int) (column : Option Int) : Snippet :=
  let start := (errorLine - 1 - context).toNat
  let stop := (errorLine + context).toNat
  ⟨numbered (start + 1) (((Text.lines source).take stop).drop start), errorLine, column⟩

def formatLine (style : Style) (number : Int) (content : String) (isError : Bool) : String :=
  let mark := if isError then ">" else " "
  let body := if isError then style.errorLine content else style.dimmed content
  style.lineNumber (mark ++ Text.padLeft 3 (toString number)) ++ " | " ++ body

def caret (column : Int) : String :=
  String.ofList (List.replicate column.toNat ' ' ++ ['^'])

def format (style : Style) (snippet : Snippet) : String :=
  let edge := style.dimmed "   |"
  let shown := snippet.lines.map fun line =>
    formatLine style line.1 line.2 (line.1 == snippet.errorLine)
  let pointer :=
    match snippet.column with
    | none => []
    | some column => [edge ++ " " ++ style.errorLine (caret column)]
  String.intercalate "\n" ([edge] ++ shown ++ pointer ++ [edge])

end Snippet

end Templating
