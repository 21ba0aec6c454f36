import SchemaDiagram.Decimal.Numeral
import SchemaDiagram.Decimal.Text
import SchemaDiagram.Encoding.Base64
import SchemaDiagram.Encoding.Percent
import SchemaDiagram.Text.Blank
import SchemaDiagram.Text.Case
import SchemaDiagram.Text.Digit
import SchemaDiagram.Text.Lines
import SchemaDiagram.Text.Quoted
import SchemaDiagram.Text.Scan
import SchemaDiagram.Json.Display
import SchemaDiagram.Json.Reader
import SchemaDiagram.Json.Writer
import SchemaDiagram.Diagram
import SchemaDiagram.ScanResult
import SchemaDiagram.Selection
import SchemaDiagram.Yaml.Token
import SchemaDiagram.Yaml.Value
import SchemaDiagram.Ignore.Rules
import SchemaDiagram.Config.File
import SchemaDiagram.Repository.Local
import SchemaDiagram.Repository.GitHub
import SchemaDiagram.Pipeline
import SchemaDiagram.Timestamp
import SchemaDiagram.DiagramStore
import SchemaDiagram.CommandLine.Run
import SchemaDiagram.Service.Basic
import SchemaDiagram.Main
import SchemaDiagram.Proofs.Source.Extraction
import SchemaDiagram.Proofs.Names.Runs
import SchemaDiagram.Proofs.Names.References
import SchemaDiagram.Proofs.Schema.Sites
import SchemaDiagram.Proofs.Store.Refinement
import SchemaDiagram.Proofs.Store.Sessions
import SchemaDiagram.Proofs.Store.Recency
import SchemaDiagram.Proofs.Selection.Screening
import SchemaDiagram.Proofs.Fetching.Scans
import SchemaDiagram.Proofs.Fetching.Cutoff
import SchemaDiagram.Proofs.Selection.Bounds
import SchemaDiagram.Proofs.Service.Failures
import SchemaDiagram.Proofs.Service.Serving
import SchemaDiagram.Proofs.Repository.Listing
import SchemaDiagram.Proofs.Repository.Requests
import SchemaDiagram.Proofs.Repository.Confinement
import SchemaDiagram.Proofs.Schema.Nesting
import SchemaDiagram.Proofs.Diagram.Cards
import SchemaDiagram.Proofs.Schema.Entries
import SchemaDiagram.Proofs.Diagram.EdgeIds
import SchemaDiagram.Proofs.Source.Arrangements
import SchemaDiagram.Proofs.Source.TrailingComments
import SchemaDiagram.Proofs.Source.AllowedValues
import SchemaDiagram.Proofs.Source.Namespaces
import SchemaDiagram.Proofs.Names.LastDeclared
import SchemaDiagram.Proofs.Names.LeastFree
import SchemaDiagram.Proofs.Selection.Patterns
import SchemaDiagram.Proofs.Ignore.Depth
import SchemaDiagram.Proofs.Store.Opening
import SchemaDiagram.Proofs.Repository.Contents
import SchemaDiagram.Proofs.Config.Loading
import SchemaDiagram.Proofs.Source.Arrays
