import ApiDocs.CommandLine.Arguments
import ApiDocs.CommandLine.Run
import ApiDocs.Dict
import ApiDocs.Document
import ApiDocs.Error
import ApiDocs.Generator
import ApiDocs.Json.Basic
import ApiDocs.Json.Reader
import ApiDocs.Json.Writer
import ApiDocs.Main
import ApiDocs.Package.Resolve
import ApiDocs.Package.Roots
import ApiDocs.Package.Scan
import ApiDocs.Package.Session
import ApiDocs.Package.Symbols
import ApiDocs.Source.Comment
import ApiDocs.Source.Layout
import ApiDocs.Source.Lexeme
import ApiDocs.Source.Literal
import ApiDocs.Source.Statement
import ApiDocs.Source.Tag
import ApiDocs.Source.Token
import ApiDocs.Source.Tokens
import ApiDocs.Source.Tree
import ApiDocs.Source.TypeExpr
import ApiDocs.Source.Unit
import ApiDocs.Swagger.Builder
import ApiDocs.Swagger.Catalog
import ApiDocs.Swagger.DataType
import ApiDocs.Swagger.Decode
import ApiDocs.Swagger.Directive
import ApiDocs.Swagger.Encode
import ApiDocs.Swagger.Listing
import ApiDocs.Swagger.Metadata
import ApiDocs.Swagger.Model
import ApiDocs.Swagger.Operation
import ApiDocs.Text.Basic
import ApiDocs.Text.Blank
import ApiDocs.Text.Letter
import ApiDocs.Text.Numeral
import ApiDocs.Text.Printable
import ApiDocs.Text.Quoted
import ApiDocs.Text.Ranges
import ApiDocs.Text.Uppercase
import ApiDocs.Text.Word
import ApiDocs.Warning
import ApiDocs.Workspace.Basic
import ApiDocs.Workspace.Edit
import ApiDocs.Workspace.OsError
import ApiDocs.Workspace.Path
import ApiDocs.Yaml.Scalar
import ApiDocs.Yaml.Writer
import ApiDocs.Proofs.Ensures
import ApiDocs.Proofs.Alike
import ApiDocs.Proofs.Dict
import ApiDocs.Proofs.Package.Knowledge
import ApiDocs.Proofs.Package.Effects
import ApiDocs.Proofs.Swagger.Rules
import ApiDocs.Proofs.Swagger.References
import ApiDocs.Proofs.Swagger.Documents
import ApiDocs.Proofs.Requests
import ApiDocs.Proofs.Package.Journal
import ApiDocs.Proofs.Workspace
import ApiDocs.Proofs.Package.Warming
import ApiDocs.Proofs.Package.Lookup
import ApiDocs.Proofs.Swagger.Meaning
import ApiDocs.Proofs.Swagger.Visits
import ApiDocs.Proofs.Swagger.Entry
import ApiDocs.Proofs.Package.Mirror
import ApiDocs.Proofs.Package.Resolution
import ApiDocs.Proofs.Package.Resumption
import ApiDocs.Proofs.History
import ApiDocs.Proofs.Swagger.Grouping
import ApiDocs.Proofs.Swagger.Lines
import ApiDocs.Proofs.Swagger.Steps
import ApiDocs.Proofs.Swagger.Collection
import ApiDocs.Proofs.Reports
import ApiDocs.Proofs.Order
import ApiDocs.Proofs.Swagger.Timeline
import ApiDocs.Proofs.Source.Spelling
import ApiDocs.Proofs.Source.Patterns
import ApiDocs.Proofs.Source.Scanning
import ApiDocs.Proofs.Source.Trees
import ApiDocs.Proofs.Source.Rendering
import ApiDocs.Proofs.Source.ReadBack
import ApiDocs.Proofs.Source.Places
import ApiDocs.Proofs.Source.Insides
import ApiDocs.Proofs.Source.Declaration
import ApiDocs.Proofs.Json.RoundTrip
import ApiDocs.Proofs.Swagger.RoundTrip
import ApiDocs.Proofs.Swagger.Depth
import ApiDocs.Proofs.Swagger.Tour
import ApiDocs.Proofs.Swagger.Search
import ApiDocs.Proofs.Source.Names
import ApiDocs.Proofs.Package.Absolute
import ApiDocs.Proofs.Writing
import ApiDocs.Proofs.DocumentFiles
import ApiDocs.Proofs.Swagger.Drafts
import ApiDocs.Proofs.Swagger.Forms
import ApiDocs.Proofs.Source.LineRule
import ApiDocs.Proofs.Source.Positions
import ApiDocs.Proofs.Source.Nesting
import ApiDocs.Proofs.Source.Unbalanced
import ApiDocs.Proofs.Source.Agreement
import ApiDocs.Proofs.Source.Totality
import ApiDocs.Proofs.Swagger.Bracketed
import ApiDocs.Proofs.Swagger.Promotion
import ApiDocs.Proofs.Directories
import ApiDocs.Proofs.Source.Semicolons
import ApiDocs.Proofs.Package.Discovery
import ApiDocs.Proofs.OutputDirectory
import ApiDocs.Proofs.Swagger.Shapes
import ApiDocs.Proofs.Swagger.Predeclared
import ApiDocs.Proofs.Swagger.ModelIds
import ApiDocs.Proofs.Source.Literals
import ApiDocs.Proofs.Source.Tags
import ApiDocs.Proofs.Source.CommentText
