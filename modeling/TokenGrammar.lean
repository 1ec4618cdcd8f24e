import TokenGrammar.CommandLine.Argument
import TokenGrammar.CommandLine.Invocation
import TokenGrammar.CommandLine.Option
import TokenGrammar.CommandLine.Run
import TokenGrammar.Constraint
import TokenGrammar.Directive
import TokenGrammar.Entries
import TokenGrammar.Grammar.Basic
import TokenGrammar.Grammar.Draft
import TokenGrammar.Grammar.Parse
import TokenGrammar.Json.Lexer
import TokenGrammar.Json.Printer
import TokenGrammar.Json.Quoted
import TokenGrammar.Json.StringLiteral
import TokenGrammar.Json.Value
import TokenGrammar.Language.Basic
import TokenGrammar.Language.Compile
import TokenGrammar.Language.Document
import TokenGrammar.Language.Json
import TokenGrammar.Language.Sexpr
import TokenGrammar.Language.Sjson
import TokenGrammar.Layout
import TokenGrammar.Lexer.Error
import TokenGrammar.Lexer.Regex
import TokenGrammar.Lexer.Table
import TokenGrammar.Log
import TokenGrammar.Main
import TokenGrammar.Number.Binary64
import TokenGrammar.Number.Shortest
import TokenGrammar.Number.Text
import TokenGrammar.ParseError
import TokenGrammar.Parser.Basic
import TokenGrammar.Parser.Cursor
import TokenGrammar.Parser.Rule
import TokenGrammar.Parser.Trace
import TokenGrammar.Pattern.Basic
import TokenGrammar.Pattern.CharSet
import TokenGrammar.Pattern.Reader
import TokenGrammar.Record
import TokenGrammar.Proofs.Parser.Performance
import TokenGrammar.Repetition
import TokenGrammar.Rule.Catalog
import TokenGrammar.Rule.Declaration
import TokenGrammar.Rule.Descriptor
import TokenGrammar.Session
import TokenGrammar.Session.Engine
import TokenGrammar.Session.Routine
import TokenGrammar.Settings.Basic
import TokenGrammar.Settings.Convert
import TokenGrammar.Settings.Path
import TokenGrammar.Settings.Setting
import TokenGrammar.Text.Bytes
import TokenGrammar.Text.CaseFolding
import TokenGrammar.Text.CodeRanges
import TokenGrammar.Text.Natural
import TokenGrammar.Text.Printable
import TokenGrammar.Text.Quoted
import TokenGrammar.Text.Reader
import TokenGrammar.Text.Space
import TokenGrammar.Text.Split
import TokenGrammar.Text.WordCharacter
import TokenGrammar.Token
import TokenGrammar.Token.Json
import TokenGrammar.Token.Stream
import TokenGrammar.Toml.Document
import TokenGrammar.Toml.Quoted
import TokenGrammar.Toml.Scalar
import TokenGrammar.Toml.Space
import TokenGrammar.Toml.Table
import TokenGrammar.Toml.Value
import TokenGrammar.Tree
import TokenGrammar.Yaml.Printer
import TokenGrammar.Yaml.Scalar
import TokenGrammar.Proofs.Parser.Adequacy
import TokenGrammar.Proofs.Parser.Backtracking
import TokenGrammar.Proofs.ParseError.Arbitration
import TokenGrammar.Proofs.Parser.Record
import TokenGrammar.Proofs.Parser.FurthestError
import TokenGrammar.Proofs.Parser.Account
import TokenGrammar.Proofs.Parser.Consumption
import TokenGrammar.Proofs.Parser.Conformance
import TokenGrammar.Proofs.Grammar.LeftRecursion
import TokenGrammar.Proofs.Parser.Reach
import TokenGrammar.Proofs.Parser.Termination
import TokenGrammar.Proofs.Parser.Correspondence
import TokenGrammar.Proofs.Parser.SideBySide
import TokenGrammar.Proofs.Grammar.Ranking
import TokenGrammar.Proofs.Parser.Locality
import TokenGrammar.Proofs.Parser.Absorption
import TokenGrammar.Proofs.Parser.Transparency
import TokenGrammar.Proofs.Parser.Diagnosis
import TokenGrammar.Proofs.Parser.Inheritance
import TokenGrammar.Proofs.Parser.Bounds
import TokenGrammar.Proofs.Language.Json.Tree
import TokenGrammar.Proofs.Language.Json.Grammar
import TokenGrammar.Proofs.Json.Numeral
import TokenGrammar.Proofs.Json.Members
import TokenGrammar.Proofs.Json.Source
import TokenGrammar.Proofs.Json.Lexing
import TokenGrammar.Proofs.Json.Decoding
import TokenGrammar.Proofs.Language.Json.Reading
import TokenGrammar.Proofs.Language.Json.Literals
import TokenGrammar.Proofs.Json.Printing
import TokenGrammar.Proofs.Language.Json.RoundTrip
import TokenGrammar.Proofs.Pattern.Locality
import TokenGrammar.Proofs.Pattern.Naming
import TokenGrammar.Proofs.Pattern.Grouping
import TokenGrammar.Proofs.Pattern.Branches
import TokenGrammar.Proofs.Pattern.Match
import TokenGrammar.Proofs.Pattern.Runs
import TokenGrammar.Proofs.Lexer.Choice
import TokenGrammar.Proofs.Lexer.Steps
import TokenGrammar.Proofs.Language.Sjson.Grammar
import TokenGrammar.Proofs.Language.Sjson.Patterns
import TokenGrammar.Proofs.Language.Sjson.Lexing
import TokenGrammar.Proofs.Language.Sjson.Agreement
import TokenGrammar.Proofs.Parser.Skipping
import TokenGrammar.Proofs.Language.Sexpr.Grammar
import TokenGrammar.Proofs.Parser.EndOfInput
import TokenGrammar.Proofs.Rule.Faithful
import TokenGrammar.Proofs.Lexer.Safety
import TokenGrammar.Proofs.Parser.CompleteParse
import TokenGrammar.Proofs.Parser.OrderedChoice
import TokenGrammar.Proofs.Parser.Peeking
import TokenGrammar.Proofs.Layout.Legible
import TokenGrammar.Proofs.ParseError.Survivor
import TokenGrammar.Proofs.Lexer.Separation
import TokenGrammar.Proofs.Lexer.OneMode
import TokenGrammar.Proofs.Json.Separation
import TokenGrammar.Proofs.Language.Kinds
import TokenGrammar.Proofs.Language.Separation
import TokenGrammar.Proofs.Language.Node
import TokenGrammar.Proofs.Language.Evaluation
import TokenGrammar.Proofs.Language.Preservation
import TokenGrammar.Proofs.Constraint.Directive
import TokenGrammar.Proofs.Parser.Translation
import TokenGrammar.Proofs.Parser.Greedy
import TokenGrammar.Proofs.Grammar.Filling
import TokenGrammar.Proofs.Rule.Caching
import TokenGrammar.Proofs.Parser.CallTree
import TokenGrammar.Proofs.Repetition.Directive
import TokenGrammar.Proofs.Pattern.Spelling
import TokenGrammar.Proofs.Json.Patterns
import TokenGrammar.Proofs.Grammar.Blank
import TokenGrammar.Proofs.Layout.Separators
import TokenGrammar.Proofs.Parser.Threading
