import Ripple.Analysis
import Ripple.CommandLine.Flag
import Ripple.CommandLine.Parsed
import Ripple.CommandLine.Suite
import Ripple.Decimal.Reader
import Ripple.Decimal.Shortest
import Ripple.Display.Failure
import Ripple.Display.Risk
import Ripple.Display.Status
import Ripple.Display.Tree
import Ripple.Export.Diagram
import Ripple.Export.Document
import Ripple.Export.Inventory
import Ripple.Failure
import Ripple.Go.Body
import Ripple.Go.Check.Assign
import Ripple.Go.Check.Basic
import Ripple.Go.Check.Builtin
import Ripple.Go.Check.Call
import Ripple.Go.Check.Declare
import Ripple.Go.Check.Func
import Ripple.Go.Check.Index
import Ripple.Go.Check.Literal
import Ripple.Go.Check.Name
import Ripple.Go.Check.Operator
import Ripple.Go.Check.Package
import Ripple.Go.Check.Range
import Ripple.Go.Check.Stmt
import Ripple.Go.Check.Types
import Ripple.Go.Condition
import Ripple.Go.Constant
import Ripple.Go.Containment
import Ripple.Go.Directive
import Ripple.Go.ExprText
import Ripple.Go.Grammar.Basic
import Ripple.Go.Grammar.Expression
import Ripple.Go.Grammar.Statement
import Ripple.Go.Infer
import Ripple.Go.Ingest
import Ripple.Go.Meaning
import Ripple.Go.Member
import Ripple.Go.Module
import Ripple.Go.Operand
import Ripple.Go.Operation
import Ripple.Go.Primitive
import Ripple.Go.Resolution
import Ripple.Go.Scope
import Ripple.Go.Size
import Ripple.Go.Token
import Ripple.Go.Tree
import Ripple.Go.Type
import Ripple.Graph.Basic
import Ripple.Graph.Builder
import Ripple.Graph.Closure
import Ripple.Graph.Store
import Ripple.Impact.Assembly
import Ripple.Impact.Form
import Ripple.Impact.Query
import Ripple.Impact.Render
import Ripple.Impact.Report
import Ripple.Impact.Resemblance
import Ripple.Java.Extract
import Ripple.Java.Facts
import Ripple.Java.Grammar.Basic
import Ripple.Java.Grammar.Declaration
import Ripple.Java.Grammar.Expression
import Ripple.Java.Grammar.Statement
import Ripple.Java.Ingest
import Ripple.Java.Token
import Ripple.Java.Tree
import Ripple.Json.Basic
import Ripple.Json.Reader
import Ripple.Log.Level
import Ripple.Log.Logger
import Ripple.Main
import Ripple.Metrics
import Ripple.Mock.Command
import Ripple.Mock.Permuted
import Ripple.Mock.Plan
import Ripple.Mock.Project
import Ripple.Mock.Random
import Ripple.Path
import Ripple.Program.Execute
import Ripple.Program.Invocation
import Ripple.Program.Session
import Ripple.Program.World
import Ripple.Proofs.Graph.Cancel
import Ripple.Proofs.Graph.Cap
import Ripple.Proofs.Graph.Closure
import Ripple.Proofs.Graph.Invariant
import Ripple.Proofs.Graph.Lookup
import Ripple.Proofs.Graph.Growth
import Ripple.Proofs.Graph.Repetition
import Ripple.Proofs.Graph.Sharing
import Ripple.Proofs.Impact.Assembly
import Ripple.Proofs.Impact.Full
import Ripple.Proofs.Impact.Query
import Ripple.Rebuild.Indexer
import Ripple.Rebuild.Status
import Ripple.Rebuild.Wait
import Ripple.Risk
import Ripple.Service
import Ripple.Settings.Basic
import Ripple.Settings.Decode
import Ripple.Settings.Load
import Ripple.Settings.Value
import Ripple.Settings.Yaml.Cursor
import Ripple.Settings.Yaml.Document
import Ripple.Settings.Yaml.Node
import Ripple.Settings.Yaml.Scalar
import Ripple.Settings.Yaml.Token
import Ripple.Signature
import Ripple.Snapshot.Archive
import Ripple.Snapshot.Callers
import Ripple.Snapshot.Database
import Ripple.Snapshot.Load
import Ripple.Snapshot.Tables
import Ripple.Source.FileTree
import Ripple.Source.Token
import Ripple.Text.Blank
import Ripple.Text.Hexadecimal
import Ripple.Text.Integer
import Ripple.Text.Padding
import Ripple.Text.Printable
import Ripple.Text.Quoted
import Ripple.Text.Raw
import Ripple.Text.Search
import Ripple.Text.Spelling
import Ripple.Text.Upper
import Ripple.Time.Date
import Ripple.Time.Duration
import Ripple.Time.Stamp
import Ripple.Tool.Call
import Ripple.Tool.Catalog
import Ripple.Watch.SourceFile
import Ripple.Watch.Watcher
import Ripple.Web.Address
import Ripple.Web.Handler
import Ripple.Web.Route
import Ripple.Web.Target
import Ripple.Word
import Ripple.Proofs.Impact.Answer
import Ripple.Proofs.Impact.Cancel
import Ripple.Proofs.Impact.Canonical
import Ripple.Proofs.Impact.Cap
import Ripple.Proofs.Impact.Class
import Ripple.Proofs.Impact.Containment
import Ripple.Proofs.Impact.Embedding
import Ripple.Proofs.Impact.Flat
import Ripple.Proofs.Impact.Growth
import Ripple.Proofs.Impact.Order
import Ripple.Proofs.Impact.Renumbering
import Ripple.Proofs.Impact.Transfer
import Ripple.Proofs.Json.RoundTrip
import Ripple.Proofs.Snapshot.RoundTrip
import Ripple.Proofs.Snapshot.Restore
import Ripple.Proofs.Snapshot.Callers
import Ripple.Proofs.Snapshot.Ranking
import Ripple.Proofs.Rebuild.History
import Ripple.Proofs.Rebuild.Wait
import Ripple.Proofs.Watch.Delivery
import Ripple.Proofs.Java.Occurrence
import Ripple.Proofs.Java.Calls
import Ripple.Proofs.Graph.Recording
import Ripple.Proofs.Java.Resolution
import Ripple.Proofs.Java.Shadowing
import Ripple.Proofs.Java.Visibility
import Ripple.Proofs.Snapshot.Scores
import Ripple.Proofs.Impact.DeclarationLine
import Ripple.Proofs.Java.Declarations
import Ripple.Proofs.Export.Diagram
import Ripple.Proofs.Source.Scan
import Ripple.Proofs.Go.Accesses
import Ripple.Proofs.Surfaces
import Ripple.Proofs.Failure
import Ripple.Proofs.Signature
import Ripple.Proofs.Mock.Calls
import Ripple.Proofs.Mock.Generation
