import ApiContract.CommandLine.Command
import ApiContract.CommandLine.Failure
import ApiContract.CommandLine.Files
import ApiContract.CommandLine.Path
import ApiContract.CommandLine.Run
import ApiContract.Config
import ApiContract.Decimal.Double
import ApiContract.Decimal.Shortest
import ApiContract.Document.Basic
import ApiContract.Document.Load
import ApiContract.Document.Operation
import ApiContract.Document.Parameter
import ApiContract.Document.Reading
import ApiContract.Document.Schema
import ApiContract.Document.Summary
import ApiContract.Document.Writing
import ApiContract.Extraction.Apply
import ApiContract.Extraction.Rule
import ApiContract.Extraction.Slot
import ApiContract.GoClient.Client
import ApiContract.GoClient.Declaration
import ApiContract.GoClient.Emit
import ApiContract.GoClient.Fault
import ApiContract.GoClient.File
import ApiContract.GoClient.Lexical
import ApiContract.GoClient.Operation
import ApiContract.GoClient.Rendering
import ApiContract.GoClient.Type
import ApiContract.GoClient.Types
import ApiContract.Json.Basic
import ApiContract.Json.Fault
import ApiContract.Json.Numeral
import ApiContract.Json.Text
import ApiContract.Json.Token
import ApiContract.Main
import ApiContract.Members
import ApiContract.Message
import ApiContract.Naming
import ApiContract.PathTemplate
import ApiContract.Proofs.Decimal.Rounding
import ApiContract.Proofs.Decimal.Shortest
import ApiContract.Proofs.Document.Carried
import ApiContract.Proofs.Document.Decoded
import ApiContract.Proofs.Document.EffectiveParameters
import ApiContract.Proofs.Document.Faithful
import ApiContract.Proofs.Document.Layouts
import ApiContract.Proofs.Document.Place
import ApiContract.Proofs.Document.Reread
import ApiContract.Proofs.Document.RoundTrip
import ApiContract.Proofs.Document.StatusCodes
import ApiContract.Proofs.Extraction.Addressing
import ApiContract.Proofs.Extraction.Authority
import ApiContract.Proofs.Extraction.Conflict
import ApiContract.Proofs.Extraction.Descent
import ApiContract.Proofs.Extraction.Effect
import ApiContract.Proofs.Extraction.Exchange
import ApiContract.Proofs.Extraction.Factored
import ApiContract.Proofs.Extraction.Lockstep
import ApiContract.Proofs.Extraction.Meaning
import ApiContract.Proofs.Extraction.Path
import ApiContract.Proofs.Extraction.Relocation
import ApiContract.Proofs.Extraction.Revisit
import ApiContract.Proofs.Extraction.Rounds
import ApiContract.Proofs.Extraction.RuleOrder
import ApiContract.Proofs.Extraction.SecondRun
import ApiContract.Proofs.Extraction.Step
import ApiContract.Proofs.Extraction.Traced
import ApiContract.Proofs.Extraction.Walk
import ApiContract.Proofs.Filling
import ApiContract.Proofs.GoClient.Acceptance
import ApiContract.Proofs.GoClient.Additions
import ApiContract.Proofs.GoClient.Arguments
import ApiContract.Proofs.GoClient.Concatenation
import ApiContract.Proofs.GoClient.DeclarationOrder
import ApiContract.Proofs.GoClient.DeclarationUsages
import ApiContract.Proofs.GoClient.Declarations
import ApiContract.Proofs.GoClient.Emission
import ApiContract.Proofs.GoClient.Extracted
import ApiContract.Proofs.GoClient.FaultLocation
import ApiContract.Proofs.GoClient.FieldNames
import ApiContract.Proofs.GoClient.FreeText
import ApiContract.Proofs.GoClient.Generatable
import ApiContract.Proofs.GoClient.Headings
import ApiContract.Proofs.GoClient.Hygiene
import ApiContract.Proofs.GoClient.Identifier
import ApiContract.Proofs.GoClient.Imports
import ApiContract.Proofs.GoClient.InventedNames
import ApiContract.Proofs.GoClient.Literal
import ApiContract.Proofs.GoClient.LiteralGrammar
import ApiContract.Proofs.GoClient.Lookups
import ApiContract.Proofs.GoClient.MethodUsages
import ApiContract.Proofs.GoClient.Offences
import ApiContract.Proofs.GoClient.OperationTypes
import ApiContract.Proofs.GoClient.Origins
import ApiContract.Proofs.GoClient.Packages
import ApiContract.Proofs.GoClient.ReferenceLookup
import ApiContract.Proofs.GoClient.References
import ApiContract.Proofs.GoClient.Reordering
import ApiContract.Proofs.GoClient.Responses
import ApiContract.Proofs.GoClient.Rewording
import ApiContract.Proofs.GoClient.Room
import ApiContract.Proofs.GoClient.SchemaTypes
import ApiContract.Proofs.GoClient.Signature
import ApiContract.Proofs.GoClient.Silence
import ApiContract.Proofs.GoClient.Spellings
import ApiContract.Proofs.GoClient.Statements
import ApiContract.Proofs.GoClient.StructFields
import ApiContract.Proofs.GoClient.StructTags
import ApiContract.Proofs.GoClient.Structs
import ApiContract.Proofs.GoClient.Tag
import ApiContract.Proofs.GoClient.Tokens
import ApiContract.Proofs.GoClient.Usages
import ApiContract.Proofs.GoClient.Warnings
import ApiContract.Proofs.Json.Alike
import ApiContract.Proofs.Json.Nearest
import ApiContract.Proofs.Json.Numeral
import ApiContract.Proofs.Json.Reordering
import ApiContract.Proofs.Json.Text
import ApiContract.Proofs.Json.Tokens
import ApiContract.Proofs.Members
import ApiContract.Proofs.PathTemplate
import ApiContract.Proofs.Placement
import ApiContract.Proofs.Schema.Agreement
import ApiContract.Proofs.Schema.Everywhere
import ApiContract.Proofs.Schema.Layout
import ApiContract.Proofs.Schema.SortedText
import ApiContract.Proofs.Schema.Unrepeated
import ApiContract.Proofs.Source.Faithful
import ApiContract.Proofs.Source.FieldOf
import ApiContract.Proofs.Source.JsonText
import ApiContract.Proofs.Source.Layout
import ApiContract.Proofs.Source.Plain
import ApiContract.Proofs.Source.Reading
import ApiContract.Proofs.Text.Ascii
import ApiContract.Proofs.Text.ByteOrder
import ApiContract.Proofs.Text.Digits
import ApiContract.Proofs.Text.Letter
import ApiContract.Proofs.Text.Occurrence
import ApiContract.Proofs.Text.Range
import ApiContract.Proofs.Text.SnakeCase
import ApiContract.Proofs.Text.Spelling
import ApiContract.Source.Basic
import ApiContract.Source.JsonText
import ApiContract.Source.YamlText
import ApiContract.Text.Alphanumeric
import ApiContract.Text.Diff.Compaction
import ApiContract.Text.Diff.Edit
import ApiContract.Text.Diff.Script
import ApiContract.Text.Diff.Unified
import ApiContract.Text.Escape
import ApiContract.Text.LetterCase
import ApiContract.Text.Lines
import ApiContract.Text.Search
import ApiContract.Text.Stretch
import ApiContract.Text.Unprintable
import ApiContract.Text.Words
import ApiContract.Yaml.Block
import ApiContract.Yaml.Cursor
import ApiContract.Yaml.Event
import ApiContract.Yaml.Fault
import ApiContract.Yaml.Gap
import ApiContract.Yaml.Node
import ApiContract.Yaml.Quoted
import ApiContract.Yaml.Scalar
import ApiContract.Yaml.Tag
import ApiContract.Yaml.Token
import ApiContract.Yaml.Unquoted
import ApiContract.Yaml.Writing
