import SchemaTyping.Binary64.Basic
import SchemaTyping.Binary64.Reading
import SchemaTyping.Binary64.Shortest
import SchemaTyping.CommandLine.Arguments
import SchemaTyping.CommandLine.Run
import SchemaTyping.Decimal
import SchemaTyping.Declaration
import SchemaTyping.Document.Basic
import SchemaTyping.Document.Body
import SchemaTyping.Document.Error
import SchemaTyping.Document.Loader
import SchemaTyping.Files.Host
import SchemaTyping.Files.Path
import SchemaTyping.Files.Tree
import SchemaTyping.Generate
import SchemaTyping.Glob.Pattern
import SchemaTyping.Glob.Search
import SchemaTyping.Json.Basic
import SchemaTyping.Json.Pointer
import SchemaTyping.Json.Problem
import SchemaTyping.Json.Reading
import SchemaTyping.Json.Record
import SchemaTyping.Json.Writing
import SchemaTyping.Main
import SchemaTyping.Options
import SchemaTyping.Regex.Accepted
import SchemaTyping.Regex.Automaton
import SchemaTyping.Regex.Basic
import SchemaTyping.Regex.CharSet
import SchemaTyping.Regex.Names
import SchemaTyping.Regex.Property
import SchemaTyping.Regex.Reading
import SchemaTyping.Registry.Alias
import SchemaTyping.Registry.Basic
import SchemaTyping.Registry.Definition
import SchemaTyping.Registry.Literal
import SchemaTyping.Registry.Path
import SchemaTyping.Registry.Rule
import SchemaTyping.Resolve
import SchemaTyping.Table
import SchemaTyping.Text.Alphabetic
import SchemaTyping.Text.Blank
import SchemaTyping.Text.Escaped
import SchemaTyping.Text.GraphemeExtend
import SchemaTyping.Text.Hexadecimal
import SchemaTyping.Text.Numeric
import SchemaTyping.Text.Ranges
import SchemaTyping.Text.Split
import SchemaTyping.Text.Unprintable
import SchemaTyping.TypeExpr.Basic
import SchemaTyping.TypeExpr.Writing
import SchemaTyping.Proofs.Outcome
import SchemaTyping.Proofs.Table
import SchemaTyping.Proofs.Json.Proper
import SchemaTyping.Proofs.Json.Quoting
import SchemaTyping.Proofs.Registry.Keys
import SchemaTyping.Proofs.Registry.Closed
import SchemaTyping.Proofs.Registry.Mirror
import SchemaTyping.Proofs.Registry.Exchange
import SchemaTyping.Proofs.Registry.History
import SchemaTyping.Proofs.Resolution.Typing
import SchemaTyping.Proofs.Generation.Declaring
import SchemaTyping.Proofs.Resolution.Limit
import SchemaTyping.Proofs.Resolution.Printable
import SchemaTyping.Proofs.Resolution.Nesting
import SchemaTyping.Proofs.Resolution.Substitution
import SchemaTyping.Proofs.Resolution.Naming
import SchemaTyping.Proofs.Generation.Renaming
import SchemaTyping.Proofs.Generation.Progress
import SchemaTyping.Proofs.Document.Steps
import SchemaTyping.Proofs.Document.Alike
import SchemaTyping.Proofs.Document.Bodies
import SchemaTyping.Proofs.Document.References
import SchemaTyping.Proofs.Document.Staging
import SchemaTyping.Proofs.Document.Phases
import SchemaTyping.Proofs.Document.Loading
import SchemaTyping.Proofs.Document.Targets
import SchemaTyping.Proofs.Document.Filling
import SchemaTyping.Proofs.Document.Reordering
import SchemaTyping.Proofs.Document.Joining
import SchemaTyping.Proofs.Document.Concatenation
import SchemaTyping.Proofs.Document.Lockstep
import SchemaTyping.Proofs.Document.Orphans
import SchemaTyping.Proofs.Binary64.Rounding
import SchemaTyping.Proofs.Binary64.Intervals
import SchemaTyping.Proofs.Binary64.Shortest
import SchemaTyping.Proofs.Grammar.Basic
import SchemaTyping.Proofs.Grammar.Unambiguous
import SchemaTyping.Proofs.Grammar.Numerals
import SchemaTyping.Proofs.Grammar.ReadBack
import SchemaTyping.Proofs.Generation.References
import SchemaTyping.Proofs.Generation.Missing
import SchemaTyping.Proofs.Document.Dangling
import SchemaTyping.Proofs.Document.Inlining
import SchemaTyping.Proofs.Document.Anonymous
import SchemaTyping.Proofs.Generation.Policies
import SchemaTyping.Proofs.Document.Siblings
import SchemaTyping.Proofs.Json.Local
import SchemaTyping.Proofs.Json.Shapes
import SchemaTyping.Proofs.Document.Texts
import SchemaTyping.Proofs.Json.Agreement
import SchemaTyping.Proofs.Document.Parsed
import SchemaTyping.Proofs.Registry.Constraints
import SchemaTyping.Proofs.Resolution.Comparison
import SchemaTyping.Proofs.Generation.Ambiguity
import SchemaTyping.Proofs.Generation.Order
import SchemaTyping.Proofs.Document.Attributes
import SchemaTyping.Proofs.Document.Recorded
import SchemaTyping.Proofs.Files.Tree
import SchemaTyping.Proofs.CommandLine.Agreement
import SchemaTyping.Proofs.Resolution.Fields
import SchemaTyping.Proofs.Resolution.Normal
import SchemaTyping.Proofs.Document.RuleAttributes
import SchemaTyping.Proofs.Document.RuleGrammar
import SchemaTyping.Proofs.Document.RuleReading
import SchemaTyping.Proofs.Resolution.Locality
import SchemaTyping.Proofs.Registry.Groups
import SchemaTyping.Proofs.Generation.Accounting
import SchemaTyping.Proofs.Json.Integers
import SchemaTyping.Proofs.Json.Numerals
import SchemaTyping.Proofs.Json.Layout
import SchemaTyping.Proofs.Options
import SchemaTyping.Proofs.Json.Scalars
import SchemaTyping.Proofs.Registry.Literals
import SchemaTyping.Proofs.Resolution.Literals
import SchemaTyping.Proofs.Resolution.Children
import SchemaTyping.Proofs.Resolution.Elements
import SchemaTyping.Proofs.Grammar.Keys
