import RpcBindings.Calendar
import RpcBindings.CommandLine.Arguments
import RpcBindings.CommandLine.Command
import RpcBindings.CommandLine.Error
import RpcBindings.CommandLine.Grammar
import RpcBindings.CommandLine.Help
import RpcBindings.CommandLine.Report
import RpcBindings.Configuration.Error
import RpcBindings.Configuration.File
import RpcBindings.Configuration.Reader
import RpcBindings.Configuration.Template
import RpcBindings.Decimal.Binary
import RpcBindings.Decimal.Layout
import RpcBindings.Decimal.Reading
import RpcBindings.Decimal.Rounding
import RpcBindings.Decimal.Shortest
import RpcBindings.Emission.Emitter
import RpcBindings.Emission.Options
import RpcBindings.Emission.Outline
import RpcBindings.File.Access
import RpcBindings.File.Error
import RpcBindings.File.Path
import RpcBindings.File.Tree
import RpcBindings.Generation.Document
import RpcBindings.Generation.Error
import RpcBindings.Generation.Run
import RpcBindings.Host
import RpcBindings.Main
import RpcBindings.Name.Casing
import RpcBindings.Name.Keyword
import RpcBindings.Name.Scope
import RpcBindings.Name.Style
import RpcBindings.Name.Words
import RpcBindings.Noted
import RpcBindings.Proofs.CommandLine.Answers
import RpcBindings.Proofs.CommandLine.Promise
import RpcBindings.Proofs.CommandLine.Session
import RpcBindings.Proofs.Configuration.Faults
import RpcBindings.Proofs.Configuration.Location
import RpcBindings.Proofs.Configuration.Output
import RpcBindings.Proofs.Configuration.Override
import RpcBindings.Proofs.Configuration.Template
import RpcBindings.Proofs.Configuration.Text
import RpcBindings.Proofs.Configuration.Validity
import RpcBindings.Proofs.Emission.Claims
import RpcBindings.Proofs.Emission.Declarations
import RpcBindings.Proofs.Emission.Failures
import RpcBindings.Proofs.Emission.Members
import RpcBindings.Proofs.Emission.Naming
import RpcBindings.Proofs.Emission.Steps
import RpcBindings.Proofs.Emission.Undescribed
import RpcBindings.Proofs.Emission.Within
import RpcBindings.Proofs.File.Access
import RpcBindings.Proofs.File.Fit
import RpcBindings.Proofs.File.Normal
import RpcBindings.Proofs.File.Path
import RpcBindings.Proofs.File.Tree
import RpcBindings.Proofs.File.Workspace
import RpcBindings.Proofs.Generation.Capture
import RpcBindings.Proofs.Generation.Closed
import RpcBindings.Proofs.Generation.Comments
import RpcBindings.Proofs.Generation.Containment
import RpcBindings.Proofs.Generation.Declared
import RpcBindings.Proofs.Generation.Defaults
import RpcBindings.Proofs.Generation.Escapes
import RpcBindings.Proofs.Generation.Growth
import RpcBindings.Proofs.Generation.Imports
import RpcBindings.Proofs.Generation.Ready
import RpcBindings.Proofs.Generation.References
import RpcBindings.Proofs.Generation.Run
import RpcBindings.Proofs.Generation.Stubs
import RpcBindings.Proofs.Name.Canonical
import RpcBindings.Proofs.Name.Casing
import RpcBindings.Proofs.Name.Collision
import RpcBindings.Proofs.Name.Composition
import RpcBindings.Proofs.Name.Keyword
import RpcBindings.Proofs.Name.Lexical
import RpcBindings.Proofs.Name.Partition
import RpcBindings.Proofs.Name.Reserved
import RpcBindings.Proofs.Name.Run
import RpcBindings.Proofs.Name.Scope
import RpcBindings.Proofs.Name.Spelling
import RpcBindings.Proofs.Outcome
import RpcBindings.Proofs.Schema.Document
import RpcBindings.Proofs.Schema.Forms
import RpcBindings.Proofs.Schema.References
import RpcBindings.Proofs.Schema.Undescribed
import RpcBindings.Proofs.Schema.WellFormed
import RpcBindings.Proofs.Source.Comments
import RpcBindings.Proofs.Source.Lines
import RpcBindings.Proofs.Source.Literal
import RpcBindings.Proofs.Source.Quotation
import RpcBindings.Proofs.Source.Returns
import RpcBindings.Proofs.Source.Spacing
import RpcBindings.Proofs.Source.Statements
import RpcBindings.Proofs.Target.Client
import RpcBindings.Proofs.Target.Comments
import RpcBindings.Proofs.Target.Errors
import RpcBindings.Proofs.Target.Imports
import RpcBindings.Proofs.Target.PropertyAccess
import RpcBindings.Proofs.Target.PropertyNames
import RpcBindings.Proofs.Target.Reports
import RpcBindings.Proofs.Target.Spacing
import RpcBindings.Proofs.Target.Steps
import RpcBindings.Proofs.Target.StructNames
import RpcBindings.Proofs.Target.Unquoted
import RpcBindings.Proofs.Target.WireNames
import RpcBindings.Proofs.Text.Capital
import RpcBindings.Proofs.Text.Output
import RpcBindings.Proofs.Text.Trimmed
import RpcBindings.Proofs.Text.Utf8
import RpcBindings.Proofs.Typing.Expressible
import RpcBindings.Proofs.Typing.Expression
import RpcBindings.Proofs.Typing.Marks
import RpcBindings.Proofs.Typing.Reading
import RpcBindings.Proofs.Typing.Vocabulary
import RpcBindings.Proofs.Validation.Acceptance
import RpcBindings.Proofs.Validation.Depth
import RpcBindings.Proofs.Validation.FirstFailure
import RpcBindings.Proofs.Validation.Frame
import RpcBindings.Proofs.Validation.Idempotence
import RpcBindings.Proofs.Validation.Message
import RpcBindings.Proofs.Validation.Order
import RpcBindings.Proofs.Validation.Plans
import RpcBindings.Proofs.Validation.Steps
import RpcBindings.Proofs.Validation.Synthesis
import RpcBindings.Proofs.Value.Alike
import RpcBindings.Proofs.Value.Json
import RpcBindings.Proofs.Value.Keyed
import RpcBindings.Proofs.Value.Writes
import RpcBindings.Schema.Basic
import RpcBindings.Schema.Descriptor
import RpcBindings.Schema.Error
import RpcBindings.Schema.Reader
import RpcBindings.Schema.References
import RpcBindings.Source.Draft
import RpcBindings.Source.Literal
import RpcBindings.Source.Summary
import RpcBindings.Target.Dialect
import RpcBindings.Target.Go
import RpcBindings.Target.Registry
import RpcBindings.Target.Ruby
import RpcBindings.Target.Rust
import RpcBindings.Target.TypeScript
import RpcBindings.Text.Blank
import RpcBindings.Text.Capital
import RpcBindings.Text.Cased
import RpcBindings.Text.ControlSequence
import RpcBindings.Text.Digit
import RpcBindings.Text.Encoding
import RpcBindings.Text.Lines
import RpcBindings.Text.Lowercase
import RpcBindings.Text.Printable
import RpcBindings.Text.Quoted
import RpcBindings.Text.Similarity
import RpcBindings.Text.Split
import RpcBindings.Text.Utf8
import RpcBindings.Typing.TypeSystem
import RpcBindings.Validation.Evaluation
import RpcBindings.Validation.Notice
import RpcBindings.Validation.Plan
import RpcBindings.Validation.Step
import RpcBindings.Value.Basic
import RpcBindings.Value.Display
import RpcBindings.Value.Json
import RpcBindings.Value.Loader
import RpcBindings.Value.Order
import RpcBindings.Yaml.Construction
import RpcBindings.Yaml.Cursor
import RpcBindings.Yaml.Document
import RpcBindings.Yaml.Error
import RpcBindings.Yaml.Graph
import RpcBindings.Yaml.Graph.Merge
import RpcBindings.Yaml.Graph.Parser
import RpcBindings.Yaml.Scalar
import RpcBindings.Yaml.Tag
import RpcBindings.Yaml.Token
import RpcBindings.Yaml.Token.Lexer
import RpcBindings.Yaml.Token.Property
import RpcBindings.Yaml.Token.Scalar
