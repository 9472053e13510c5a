import NoteQuery.Calendar
import NoteQuery.Command.Actions
import NoteQuery.Command.Arguments
import NoteQuery.Command.Journal
import NoteQuery.Command.Run
import NoteQuery.Forest.Basic
import NoteQuery.Forest.Visibility
import NoteQuery.Host.Basic
import NoteQuery.Host.Snapshot
import NoteQuery.Json.Basic
import NoteQuery.Json.Printer
import NoteQuery.Json.Reader
import NoteQuery.Log
import NoteQuery.Main
import NoteQuery.Matching.Evaluate
import NoteQuery.Matching.Subject
import NoteQuery.Matching.Text
import NoteQuery.Matching.Trace
import NoteQuery.Note.Frontmatter
import NoteQuery.Note.Reading
import NoteQuery.Note.Record
import NoteQuery.Note.References
import NoteQuery.Note.Tags
import NoteQuery.Number.Binary64
import NoteQuery.Number.Reading
import NoteQuery.Number.Shortest
import NoteQuery.Output.Render
import NoteQuery.Output.Writer
import NoteQuery.Pattern.Basic
import NoteQuery.Pattern.Character
import NoteQuery.Pattern.Literal
import NoteQuery.Pattern.Match
import NoteQuery.Pattern.Read
import NoteQuery.Query.Clauses
import NoteQuery.Query.Parse
import NoteQuery.Query.Property
import NoteQuery.Query.Scan
import NoteQuery.Query.Term
import NoteQuery.Query.Tree
import NoteQuery.Search
import NoteQuery.Settings.Access
import NoteQuery.Settings.Basic
import NoteQuery.Settings.Fault
import NoteQuery.Settings.Merge
import NoteQuery.Text.Alphabet.Casing
import NoteQuery.Text.Alphabet.Identifier
import NoteQuery.Text.Alphabet.Printable
import NoteQuery.Text.Alphabet.Word
import NoteQuery.Text.Blank
import NoteQuery.Text.Case
import NoteQuery.Text.CharClass
import NoteQuery.Text.CodePoint
import NoteQuery.Text.CodeRange
import NoteQuery.Text.Distinct
import NoteQuery.Text.Lines
import NoteQuery.Text.Quoted
import NoteQuery.Text.Search
import NoteQuery.Text.Utf8
import NoteQuery.Value.Basic
import NoteQuery.Value.Flatten
import NoteQuery.Value.Mapping
import NoteQuery.Value.Text
import NoteQuery.Vault.Load
import NoteQuery.Vault.Location
import NoteQuery.Yaml.Document
import NoteQuery.Yaml.Fault
import NoteQuery.Yaml.Lexeme
import NoteQuery.Yaml.Node
import NoteQuery.Yaml.Place
import NoteQuery.Yaml.Scalar
import NoteQuery.Yaml.Tag
import NoteQuery.Yaml.Text
import NoteQuery.Proofs.Query.Grammar
import NoteQuery.Proofs.Query.Precedence
import NoteQuery.Proofs.Query.Pruning
import NoteQuery.Proofs.Query.Leaves
import NoteQuery.Proofs.Query.NormalForm
import NoteQuery.Proofs.Query.Scanning
import NoteQuery.Proofs.Query.Spelling
import NoteQuery.Proofs.Forest.Walk
import NoteQuery.Proofs.Forest.Places
import NoteQuery.Proofs.Forest.Filtering
import NoteQuery.Proofs.Forest.Shown
import NoteQuery.Proofs.Forest.Order
import NoteQuery.Proofs.Forest.Trie
import NoteQuery.Proofs.Query.Cap
import NoteQuery.Proofs.Value.Json
import NoteQuery.Proofs.Matching.Faults
import NoteQuery.Proofs.Matching.PropertyExpression
import NoteQuery.Proofs.Matching.HalfTyped
import NoteQuery.Proofs.Yaml.Building
import NoteQuery.Proofs.Yaml.Lexing
import NoteQuery.Proofs.Yaml.Parsing
import NoteQuery.Proofs.Vault.Loading
import NoteQuery.Proofs.Vault.Order
import NoteQuery.Proofs.Text.CaseRun
import NoteQuery.Proofs.Query.Extending
import NoteQuery.Proofs.Query.Joining
import NoteQuery.Proofs.Query.Parentheses
import NoteQuery.Proofs.Matching.DefaultKey
import NoteQuery.Proofs.Matching.Substring
import NoteQuery.Proofs.Pattern.AsWritten
import NoteQuery.Proofs.Matching.Tags
import NoteQuery.Proofs.Query.Selection
import NoteQuery.Proofs.Query.Remaining
import NoteQuery.Proofs.Query.TermShape
import NoteQuery.Proofs.Settings.NormalForm
import NoteQuery.Proofs.Output.Writers
import NoteQuery.Proofs.Command.ResultFiles
import NoteQuery.Proofs.Query.ClauseCount
import NoteQuery.Proofs.Note.Fences
import NoteQuery.Proofs.Query.Brackets
import NoteQuery.Proofs.Query.ClosingQuote
import NoteQuery.Proofs.Query.Decoding
import NoteQuery.Proofs.Vault.Location
import NoteQuery.Proofs.Command.Search
import NoteQuery.Proofs.Note.TagForm
import NoteQuery.Proofs.Note.Links
import NoteQuery.Proofs.Query.Runs
import NoteQuery.Proofs.Query.Nesting
import NoteQuery.Proofs.Pattern.Shape
import NoteQuery.Proofs.Matching.TagSegments
import NoteQuery.Proofs.Note.WrittenLinks
import NoteQuery.Proofs.Note.CodeBlocks
import NoteQuery.Proofs.Query.OpenBrackets
import NoteQuery.Proofs.Query.Leftovers
import NoteQuery.Proofs.Settings.Layering
import NoteQuery.Proofs.Output.ReadBack
import NoteQuery.Proofs.Query.Positions
import NoteQuery.Proofs.Query.Verbatim
