import Bilisp.CommandLine.Arguments
import Bilisp.CommandLine.Disk
import Bilisp.CommandLine.Run
import Bilisp.Diagnostic.Basic
import Bilisp.Diagnostic.Excerpt
import Bilisp.Diagnostic.Message
import Bilisp.Editor
import Bilisp.Feed
import Bilisp.Form.Basic
import Bilisp.Form.OfNode
import Bilisp.Form.Printer
import Bilisp.Form.Reader
import Bilisp.Literal.Basic
import Bilisp.Literal.Character
import Bilisp.Literal.Error
import Bilisp.Literal.StringText
import Bilisp.Main
import Bilisp.Node.Basic
import Bilisp.Node.Display
import Bilisp.Node.OfForm
import Bilisp.Node.Outline
import Bilisp.Node.Parts
import Bilisp.Number.Basic
import Bilisp.Number.Double
import Bilisp.Number.Integer
import Bilisp.Number.Printer
import Bilisp.Number.Reader
import Bilisp.Position
import Bilisp.Proofs.CanonicalNodes
import Bilisp.Proofs.CharClasses
import Bilisp.Proofs.CitedForms
import Bilisp.Proofs.CodeEscapes
import Bilisp.Proofs.Composition
import Bilisp.Proofs.Constants
import Bilisp.Proofs.ConversionFaults
import Bilisp.Proofs.Conversions
import Bilisp.Proofs.EditorRanges
import Bilisp.Proofs.Endings
import Bilisp.Proofs.Escaping
import Bilisp.Proofs.Excerpts
import Bilisp.Proofs.FaultPlaces
import Bilisp.Proofs.FilledForms
import Bilisp.Proofs.FirstTokens
import Bilisp.Proofs.FormGrammar
import Bilisp.Proofs.HostNames
import Bilisp.Proofs.JoinedSymbols
import Bilisp.Proofs.Layouts
import Bilisp.Proofs.MacroArguments
import Bilisp.Proofs.MadeForms
import Bilisp.Proofs.NodeRoundTrip
import Bilisp.Proofs.NormalNodes
import Bilisp.Proofs.Numerals
import Bilisp.Proofs.PathWritings
import Bilisp.Proofs.Paths
import Bilisp.Proofs.PrintedCalls
import Bilisp.Proofs.PrintedNodes
import Bilisp.Proofs.ProperNodes
import Bilisp.Proofs.RadixNumbers
import Bilisp.Proofs.Reachability
import Bilisp.Proofs.ReadableForms
import Bilisp.Proofs.Readings
import Bilisp.Proofs.RefusedClosers
import Bilisp.Proofs.Reports
import Bilisp.Proofs.RespelledNames
import Bilisp.Proofs.Rounding
import Bilisp.Proofs.Rows
import Bilisp.Proofs.RunInvariants
import Bilisp.Proofs.Runs
import Bilisp.Proofs.Scanning
import Bilisp.Proofs.SettledArguments
import Bilisp.Proofs.SettledNodes
import Bilisp.Proofs.SettledPaths
import Bilisp.Proofs.SettledPrograms
import Bilisp.Proofs.Slices
import Bilisp.Proofs.Spans
import Bilisp.Proofs.Spelling
import Bilisp.Proofs.StackMachine
import Bilisp.Proofs.SymbolGrammar
import Bilisp.Proofs.SymbolNodes
import Bilisp.Proofs.SymbolSpellings
import Bilisp.Proofs.TakenTokens
import Bilisp.Proofs.Tiling
import Bilisp.Proofs.UnendedStrings
import Bilisp.Proofs.UnwritableNodes
import Bilisp.Proofs.Visits
import Bilisp.Proofs.Writable
import Bilisp.Proofs.WrittenDoubles
import Bilisp.Proofs.WrittenForms
import Bilisp.Proofs.WrittenLiterals
import Bilisp.Proofs.WrittenMembers
import Bilisp.Proofs.WrittenNumbers
import Bilisp.Proofs.WrittenPrograms
import Bilisp.Settings.Basic
import Bilisp.Settings.Toml
import Bilisp.Source
import Bilisp.Symbol.Grammar
import Bilisp.Symbol.HostName
import Bilisp.Text.Alphanumeric
import Bilisp.Text.Basic
import Bilisp.Text.Blank
import Bilisp.Text.Digit
import Bilisp.Text.Line
import Bilisp.Text.Numeral
import Bilisp.Text.Printable
import Bilisp.Text.Quoted
import Bilisp.Text.Range
import Bilisp.Token.Basic
import Bilisp.Token.CharClass
import Bilisp.Token.Scan
import Bilisp.Token.Stream
