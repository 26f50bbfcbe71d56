import Templating.Digest
import Templating.Loader
import Templating.Object.Encoding
import Templating.Render.Evaluate
import Templating.Template.Tree

/-!
# Renderers

A renderer finds the bytes of a template, reads them into a tree, and evaluates the tree against a
context. Trees are kept in a cache under the digest of the bytes, whatever the template is called.
A template renders others within itself up to the limit of its frame; a render beyond the limit is
refused after its template has been loaded and read.
-/

namespace Templating

structure Renderer where
  registry : Registry
  loader : Loader
  /-- What is put after a path that does not end in it. -/
  ending : String
  /-- What is put before a path that does not begin with a slash. -/
  directory : String
  /-- How many renders may enclose one. -/
  limit : Int

namespace Renderer

def defaultEnding : String := ".html"

def endsIn (ending text : String) : Bool := ending.toList.isSuffixOf text.toList

def isRooted (path : String) : Bool := path.toList.head? == some '/'

def resolve (r : Renderer) (path : String) : String :=
  let named := if endsIn r.ending path then path else path ++ r.ending
  if isRooted named then named else r.directory ++ named

/-- The bytes of the template at a path, with the place that names it from then on. -/
def load (r : Renderer) (path : String) : Run (String × List UInt8) := do
  let label := r.resolve path
  Run.observe (.loaded label)
  match ← Run.ofExcept (r.loader label) with
  | some data => return (label, data)
  | none => throw (.notFound label)

def read (label : String) (data : List UInt8) : Run (List Node) := do
  Run.observe (.parsed label data)
  Run.ofExcept (Template.parse label data)

/-- The tree of a template, from the cache if it is there. -/
def treeOf (label : String) (data : List UInt8) : Run (List Node) := do
  match (← get).cache with
  | none => read label data
  | some cache =>
    let key := Digest.text data
    let (found, looked) := cache.get key
    modify fun s => { s with cache := some looked }
    match found with
    | some tree => return tree
    | none =>
      let tree ← read label data
      modify fun s => { s with cache := some (looked.put key tree) }
      return tree

/-- The surroundings of a tree in a frame, or outside of any render, where `render` renders other
templates. -/
def host (r : Renderer) (frame : Option Frame)
    (render : List UInt8 → Value → String → Run String) : Host where
  registry := r.registry
  frame := frame
  renderSource := render
  renderPath := fun path context => do
    let (label, data) ← r.load path
    render data context label

def renderTreeIn (r : Renderer) (frame : Frame)
    (render : List UInt8 → Value → String → Run String) (context : Value) (tree : List Node) :
    Run String :=
  Run.withOwnLine (renderNodes (r.host (some frame) render) context tree)

/-- A render inside of a frame that leaves room for so many more. -/
def renderWithin (r : Renderer) : Nat → Frame → List UInt8 → Value → String → Run String
  | 0, frame, data, _, label => do
    let _ ← treeOf label data
    throw (frame.refusal (← get).line label)
  | room + 1, frame, data, context, label => do
    let tree ← treeOf label data
    let child := frame.child (← get).line label
    r.renderTreeIn child (renderWithin r room child) context tree

def renderTree (r : Renderer) (frame : Frame) (context : Value) (tree : List Node) : Run String :=
  r.renderTreeIn frame (r.renderWithin frame.remaining frame) context tree

def renderSource (r : Renderer) (data : List UInt8) (context : Value) (label : String) :
    Run String := do
  let tree ← treeOf label data
  r.renderTree (Frame.root label r.limit) context tree

def renderPath (r : Renderer) (path : String) (context : Value) : Run String := do
  let (label, data) ← r.load path
  r.renderSource data context label

/-- The text of a tree outside of any render; whatever it renders stands for itself. -/
def renderTreeAlone (r : Renderer) (context : Value) (tree : List Node) : Run String :=
  renderNodes (r.host none r.renderSource) context tree

/-- The value of a context; null and ready values are not encoded. -/
def contextOf (context : Object) : Run Value :=
  match context.node with
  | .null => pure .null
  | .ready v => pure v
  | _ => do
    Run.observe .encoded
    Run.ofExcept context.encode

def text (r : Renderer) (hasCache : Bool) : String :=
  let cache := if hasCache then "on" else "off"
  let (directory, ending) := (Text.literal r.directory, Text.literal r.ending)
  s!"<Renderer tags={r.registry.size} cache={cache} dir={directory} ending={ending}>"

end Renderer

end Templating
