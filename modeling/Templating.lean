import Templating.About
import Templating.Cache
import Templating.Calendar.Civil
import Templating.Calendar.Format
import Templating.Digest
import Templating.Error
import Templating.Error.Code
import Templating.Error.Fault
import Templating.Error.Raised
import Templating.Error.Report
import Templating.Error.Snippet
import Templating.Kind
import Templating.Loader
import Templating.Loader.FileTree
import Templating.Node
import Templating.Number.Binary64
import Templating.Number.Reading
import Templating.Number.Shortest
import Templating.Object
import Templating.Object.Attribute
import Templating.Object.Construction
import Templating.Object.Conversion
import Templating.Object.Encoding
import Templating.Object.Identity
import Templating.Object.Literal
import Templating.Object.Moment
import Templating.Proofs.Cache.Recency
import Templating.Proofs.Error.Colour
import Templating.Proofs.Error.Decoration
import Templating.Proofs.Error.Escapes
import Templating.Proofs.Error.Layout
import Templating.Proofs.Object.Agreement
import Templating.Proofs.Object.Circularity
import Templating.Proofs.Object.Data
import Templating.Proofs.Object.Descent
import Templating.Proofs.Object.Members
import Templating.Proofs.Object.Offences
import Templating.Proofs.Object.Plain
import Templating.Proofs.Object.Reordering
import Templating.Proofs.Object.Sharing
import Templating.Proofs.Object.Success
import Templating.Proofs.Object.TextOrder
import Templating.Proofs.Outcome
import Templating.Proofs.Printing.Delimited
import Templating.Proofs.Printing.Document
import Templating.Proofs.Printing.ReadBack
import Templating.Proofs.Printing.RoundTrip
import Templating.Proofs.Printing.Spacing
import Templating.Proofs.Printing.Term
import Templating.Proofs.Render.Arising
import Templating.Proofs.Render.Composition
import Templating.Proofs.Render.Data
import Templating.Proofs.Render.Derivation
import Templating.Proofs.Render.DocumentOrder
import Templating.Proofs.Render.Elsewhere
import Templating.Proofs.Render.Enclosing
import Templating.Proofs.Render.Evaluation
import Templating.Proofs.Render.IncludeChain
import Templating.Proofs.Render.IncludeLimit
import Templating.Proofs.Render.Journal
import Templating.Proofs.Render.Location
import Templating.Proofs.Render.Progress
import Templating.Proofs.Render.ReadOnce
import Templating.Proofs.Render.Relevance
import Templating.Proofs.Render.Reporting
import Templating.Proofs.Render.Rounds
import Templating.Proofs.Render.Transparency
import Templating.Proofs.Source.Movement
import Templating.Proofs.Tag.Elsewhere
import Templating.Proofs.Tag.Handover
import Templating.Proofs.Tag.Order
import Templating.Proofs.Tag.Parallel
import Templating.Proofs.Template.Blame
import Templating.Proofs.Template.ClosingTag
import Templating.Proofs.Template.Columns
import Templating.Proofs.Template.Comments
import Templating.Proofs.Template.Concatenation
import Templating.Proofs.Template.Constants
import Templating.Proofs.Template.Cut
import Templating.Proofs.Template.Diagnostics
import Templating.Proofs.Template.Grammar
import Templating.Proofs.Template.Literals
import Templating.Proofs.Template.Names
import Templating.Proofs.Template.Nesting
import Templating.Proofs.Template.Overlong
import Templating.Proofs.Template.Passage
import Templating.Proofs.Template.Quotation
import Templating.Proofs.Template.Reading
import Templating.Proofs.Template.Relocation
import Templating.Proofs.Template.Sites
import Templating.Proofs.Template.Source
import Templating.Proofs.Template.Stability
import Templating.Proofs.Template.Validity
import Templating.Proofs.Text.Lines
import Templating.Proofs.Text.Utf8
import Templating.Proofs.Value.Data
import Templating.Proofs.Value.Equality
import Templating.Proofs.Value.Legibility
import Templating.Proofs.Value.Numeric
import Templating.Render.Evaluate
import Templating.Render.Frame
import Templating.Render.Renderer
import Templating.Render.Session
import Templating.Source.Cursor
import Templating.Source.Position
import Templating.Style
import Templating.Tag.Builtin
import Templating.Tag.Extra
import Templating.Tag.Plan
import Templating.Tag.Registry
import Templating.Template.Construct
import Templating.Template.Expression
import Templating.Template.Tree
import Templating.Text.Blank
import Templating.Text.Case
import Templating.Text.CaseTable
import Templating.Text.Digit
import Templating.Text.Printable
import Templating.Text.Quoted
import Templating.Text.Search
import Templating.Text.Similar
import Templating.Text.Utf8
import Templating.Value
import Templating.Value.Equality
import Templating.Value.Numeric
import Templating.Value.Path
import Templating.Value.Text
