import AnchorAudit.Analyzer
import AnchorAudit.Attribute
import AnchorAudit.Catalogue
import AnchorAudit.Check
import AnchorAudit.Check.Accounts
import AnchorAudit.Check.Division
import AnchorAudit.Check.Owner
import AnchorAudit.Dotenv
import AnchorAudit.Dotenv.Expansion
import AnchorAudit.Double
import AnchorAudit.Fault
import AnchorAudit.FileTree
import AnchorAudit.FileTree.Edit
import AnchorAudit.Finding
import AnchorAudit.Json.Basic
import AnchorAudit.Json.Reader
import AnchorAudit.Listing
import AnchorAudit.Log
import AnchorAudit.Node
import AnchorAudit.Numeral
import AnchorAudit.Path
import AnchorAudit.Query
import AnchorAudit.Registry
import AnchorAudit.Report
import AnchorAudit.ReportFile
import AnchorAudit.Rule.Basic
import AnchorAudit.Rule.Draft
import AnchorAudit.Scan
import AnchorAudit.Schema.IntegerText
import AnchorAudit.Schema.Issue
import AnchorAudit.Schema.Models
import AnchorAudit.Schema.Reader
import AnchorAudit.Service
import AnchorAudit.Service.Target
import AnchorAudit.Settings
import AnchorAudit.Severity
import AnchorAudit.Source
import AnchorAudit.SourceLines
import AnchorAudit.Span
import AnchorAudit.Subject
import AnchorAudit.SyntaxFile
import AnchorAudit.Text.Blank
import AnchorAudit.Text.Encoding
import AnchorAudit.Text.Printable
import AnchorAudit.Text.Quoted
import AnchorAudit.Text.Search
import AnchorAudit.Text.Slice
import AnchorAudit.Text.Word
import AnchorAudit.Utf8
import AnchorAudit.Proofs.Lines
import AnchorAudit.Proofs.Snippet
import AnchorAudit.Proofs.Isolation
import AnchorAudit.Proofs.Catalogue
import AnchorAudit.Proofs.Registry
import AnchorAudit.Proofs.Analyzer
import AnchorAudit.Proofs.Lifecycle
import AnchorAudit.Proofs.Division.Meaning
import AnchorAudit.Proofs.Double
import AnchorAudit.Proofs.Numeral
import AnchorAudit.Proofs.Query
import AnchorAudit.Proofs.Division.Failure
import AnchorAudit.Proofs.Translation.Division
import AnchorAudit.Proofs.Translation.Check
import AnchorAudit.Proofs.Translation.Report
import AnchorAudit.Proofs.Locality
import AnchorAudit.Proofs.Position
import AnchorAudit.Proofs.Nesting
import AnchorAudit.Proofs.Blocks
import AnchorAudit.Proofs.Batch
import AnchorAudit.Proofs.Scan
import AnchorAudit.Proofs.Service
import AnchorAudit.Proofs.Report.Document
import AnchorAudit.Proofs.Functions
import AnchorAudit.Proofs.Division.Wrapping
import AnchorAudit.Proofs.Literal
import AnchorAudit.Proofs.Lookup
import AnchorAudit.Proofs.Header
import AnchorAudit.Proofs.Fields
import AnchorAudit.Proofs.Aliasing
import AnchorAudit.Proofs.Draft
import AnchorAudit.Proofs.Algebra
import AnchorAudit.Proofs.FirstError
import AnchorAudit.Proofs.Walk
import AnchorAudit.Proofs.Listing
import AnchorAudit.Proofs.Containment
import AnchorAudit.Proofs.Decimal
import AnchorAudit.Proofs.LocationText
import AnchorAudit.Proofs.Excerpt
import AnchorAudit.Proofs.Context
import AnchorAudit.Proofs.SpanOrder
import AnchorAudit.Proofs.LineEnds
import AnchorAudit.Proofs.Traversal
import AnchorAudit.Proofs.Attribute
