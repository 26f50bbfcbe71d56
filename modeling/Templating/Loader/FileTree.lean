import Templating.Loader

/-!
# Trees of files

The files and directories below a working directory. A path is followed name by name; empty names
and single points are passed over, two points lead back up. A path that is absolute, that leads out
of the tree, to nothing, through a file or to a directory, finds nothing.
-/

namespace Templating

inductive FileTree
  | file (content : List UInt8)
  | directory (entries : List (String × FileTree))

namespace FileTree

def empty : FileTree := .directory []

def names (path : String) : List String :=
  (splitSlashes [] path.toList).filter fun name => name ≠ "" ∧ name ≠ "."
where
  splitSlashes (name : List Char) : List Char → List String
    | [] => [String.ofList name.reverse]
    | c :: rest =>
      if c = '/' then String.ofList name.reverse :: splitSlashes [] rest
      else splitSlashes (c :: name) rest

def isAbsolute (path : String) : Bool := path.toList.head? == some '/'

def entries : FileTree → List (String × FileTree)
  | .file _ => []
  | .directory entries => entries

/-- The tree with a file, or a directory if there is no content, at the given names. -/
def insertAt (content : Option (List UInt8)) : List String → FileTree → FileTree
  | [], tree =>
    match content with
    | some bytes => .file bytes
    | none => .directory tree.entries
  | name :: rest, tree =>
    let below := (tree.entries.lookup name).getD empty
    .directory (bindEntry name (insertAt content rest below) tree.entries)

/-- The tree with a file at a path, or with a directory if the path ends in a slash. -/
def insert (tree : FileTree) (path : String) (content : List UInt8) : FileTree :=
  let content := if path.toList.getLast? = some '/' then none else some content
  insertAt content (names path) tree

/-- The longest name and the longest path, in bytes. -/
def nameLimit : Nat := 255

def pathLimit : Nat := 4095

inductive Lookup
  | found (content : List UInt8)
  | missing
  | nameTooLong

/-- What the names lead to from a tree below the trees `above`. -/
def follow : List String → FileTree → List FileTree → Lookup
  | [], .file content, _ => .found content
  | [], .directory _, _ => .missing
  | _ :: _, .file _, _ => .missing
  | name :: rest, .directory entries, above =>
    if name = ".." then
      match above with
      | [] => .missing
      | parent :: up => follow rest parent up
    else if nameLimit < name.utf8ByteSize then .nameTooLong
    else
      match entries.lookup name with
      | none => .missing
      | some below => follow rest below (.directory entries :: above)

/-- A path as it is reported, without the names that are passed over. -/
def shownPath (path : String) : String :=
  let body := String.intercalate "/" (names path)
  if isAbsolute path then root path.toList ++ body else if body = "" then "." else body
where
  /-- Exactly two slashes at the start are kept. -/
  root : List Char → String
    | '/' :: '/' :: '/' :: _ => "/"
    | '/' :: '/' :: _ => "//"
    | _ => "/"

def tooLong (path : String) : Error :=
  .fault (.raised .system s!"[Errno 36] File name too long: {Text.literal (shownPath path)}")

def loader (tree : FileTree) : Loader := fun path =>
  if path.toList.contains '\x00' then .error (.fault (.raised .value "embedded null byte"))
  else if pathLimit < (shownPath path).utf8ByteSize then .error (tooLong path)
  else if isAbsolute path then
    if nameLimit < ((names path).headD "").utf8ByteSize then .error (tooLong path) else .ok none
  else
    match follow (names path) tree [] with
    | .found content => .ok (some content)
    | .missing => .ok none
    | .nameTooLong => .error (tooLong path)

end FileTree

end Templating
