import ViewCompiler.Entries
import ViewCompiler.Text.Ranges
import ViewCompiler.Text.Blank
import ViewCompiler.Text.Letter
import ViewCompiler.Text.LowerCase
import ViewCompiler.Text.Printable
import ViewCompiler.Text.Quoted
import ViewCompiler.Binary64
import ViewCompiler.Decimal.Shortest
import ViewCompiler.Decimal.Notation
import ViewCompiler.Value
import ViewCompiler.Value.Key
import ViewCompiler.Value.Text
import ViewCompiler.Fault
import ViewCompiler.Value.Access
import ViewCompiler.Value.Table
import ViewCompiler.Json.Reader
import ViewCompiler.Json.Printer
import ViewCompiler.Slug
import ViewCompiler.Node
import ViewCompiler.Node.Kind
import ViewCompiler.Node.Children
import ViewCompiler.Node.Preorder
import ViewCompiler.Node.Same
import ViewCompiler.Node.Walk
import ViewCompiler.Node.Collect
import ViewCompiler.Node.Find
import ViewCompiler.Node.Update
import ViewCompiler.Node.Export
import ViewCompiler.Node.Import
import ViewCompiler.Diagnostic
import ViewCompiler.Diagnostic.Report
import ViewCompiler.Trace
import ViewCompiler.Widget.Schema
import ViewCompiler.Widget.Catalog
import ViewCompiler.Widget.Registry
import ViewCompiler.Template
import ViewCompiler.Template.Substitute
import ViewCompiler.Template.Index
import ViewCompiler.Document.Shorthand
import ViewCompiler.Document.Child
import ViewCompiler.Document.Page
import ViewCompiler.Document.Partial
import ViewCompiler.Document.Reading
import ViewCompiler.Resolve
import ViewCompiler.Validate
import ViewCompiler.Build
import ViewCompiler.Build.Envelope
import ViewCompiler.Proofs.Pairs
import ViewCompiler.Proofs.Entries
import ViewCompiler.Proofs.Trace.Success
import ViewCompiler.Proofs.Text.LowerCase
import ViewCompiler.Proofs.Value.Equality
import ViewCompiler.Proofs.Value.KeyOrder
import ViewCompiler.Proofs.Slug.NormalForm
import ViewCompiler.Proofs.Slug.Separators
import ViewCompiler.Proofs.Slug.Spelling
import ViewCompiler.Proofs.Node.Subtrees
import ViewCompiler.Proofs.Node.Pending
import ViewCompiler.Proofs.Node.Search
import ViewCompiler.Proofs.Node.Walks
import ViewCompiler.Proofs.Node.Trees
import ViewCompiler.Proofs.Node.Collection
import ViewCompiler.Proofs.Node.Fusion
import ViewCompiler.Proofs.Node.WellFormed
import ViewCompiler.Proofs.Widget.Runs
import ViewCompiler.Proofs.Widget.Consistency
import ViewCompiler.Proofs.Widget.Inheritance
import ViewCompiler.Proofs.Document.Shorthands
import ViewCompiler.Proofs.Document.Parts
import ViewCompiler.Proofs.Document.Outcome
import ViewCompiler.Proofs.Document.Parsed
import ViewCompiler.Proofs.Document.Props
import ViewCompiler.Proofs.Document.Shapes
import ViewCompiler.Proofs.Document.Arguments
import ViewCompiler.Proofs.Document.KeyOrder
import ViewCompiler.Proofs.Document.Canonical
import ViewCompiler.Proofs.Document.Conditions
import ViewCompiler.Proofs.Template.Index
import ViewCompiler.Proofs.Template.Filling
import ViewCompiler.Proofs.Template.Placeholders
import ViewCompiler.Proofs.Template.Sequence
import ViewCompiler.Proofs.Template.Bindings
import ViewCompiler.Proofs.Template.Parsing
import ViewCompiler.Proofs.Template.Expansion
import ViewCompiler.Proofs.Resolve.Rules
import ViewCompiler.Proofs.Resolve.Targets
import ViewCompiler.Proofs.Resolve.Index
import ViewCompiler.Proofs.Resolve.Nesting
import ViewCompiler.Proofs.Resolve.Run
import ViewCompiler.Proofs.Resolve.Invariants
import ViewCompiler.Proofs.Resolve.Totality
import ViewCompiler.Proofs.Resolve.Errors
import ViewCompiler.Proofs.Resolve.Termination
import ViewCompiler.Proofs.Resolve.Keys
import ViewCompiler.Proofs.Resolve.Settled
import ViewCompiler.Proofs.Resolve.Growth
import ViewCompiler.Proofs.Resolve.Inlining
import ViewCompiler.Proofs.Resolve.Circularity
import ViewCompiler.Proofs.Resolve.Order
import ViewCompiler.Proofs.Resolve.Addresses
import ViewCompiler.Proofs.Diagnostic
import ViewCompiler.Proofs.Validate.Findings
import ViewCompiler.Proofs.Validate.Nodes
import ViewCompiler.Proofs.Validate.Codes
import ViewCompiler.Proofs.Validate.Verdict
import ViewCompiler.Proofs.Validate.Totality
import ViewCompiler.Proofs.Validate.Leaves
import ViewCompiler.Proofs.Validate.RequiredProps
import ViewCompiler.Proofs.Validate.Shorthands
import ViewCompiler.Proofs.Build.Reading
import ViewCompiler.Proofs.Build.Shares
import ViewCompiler.Proofs.Build.Agreement
import ViewCompiler.Proofs.Build.Sources
import ViewCompiler.Proofs.Build.Success
import ViewCompiler.Proofs.Build.Totality
import ViewCompiler.Proofs.Build.Order
import ViewCompiler.Proofs.Export.Storable
import ViewCompiler.Proofs.Export.Reading
import ViewCompiler.Proofs.Export.RoundTrip
import ViewCompiler.Proofs.Export.Origin
import ViewCompiler.Proofs.Export.Written
