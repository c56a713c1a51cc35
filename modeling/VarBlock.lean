import VarBlock.Main
import VarBlock.Token.Pattern
import VarBlock.Proofs.Run
import VarBlock.Proofs.Grammar
import VarBlock.Proofs.Repair
import VarBlock.Proofs.Resync
import VarBlock.Proofs.Exchange
import VarBlock.Proofs.Consistency
import VarBlock.Proofs.Continuation
import VarBlock.Proofs.Stray
import VarBlock.Proofs.Layout
import VarBlock.Proofs.Spelling
import VarBlock.Proofs.Matching
import VarBlock.Proofs.Coverage
import VarBlock.Proofs.DiagnosticRange
import VarBlock.Proofs.Spacing
import VarBlock.Proofs.Lines
import VarBlock.Proofs.PrintedPlace
import VarBlock.Proofs.Reading
import VarBlock.Proofs.JsonGrammar
import VarBlock.Proofs.JsonReader
import VarBlock.Proofs.JsonPrinting
import VarBlock.Proofs.JsonReport
import VarBlock.Proofs.Joining
import VarBlock.Proofs.OneLine
import VarBlock.Proofs.LowerCase
import VarBlock.Proofs.Merging
import VarBlock.Proofs.Decoding
import VarBlock.Proofs.Setting
import VarBlock.Proofs.Loading
import VarBlock.Proofs.Precedence
import VarBlock.Proofs.TokensCommand
import VarBlock.Proofs.ExitStatus
import VarBlock.Proofs.Counting
import VarBlock.Proofs.Cursor
import VarBlock.Proofs.PathArgument
import VarBlock.Proofs.ReportLayouts
import VarBlock.Proofs.SourceReading
import VarBlock.Proofs.Alike
import VarBlock.Proofs.AnyOrder
import VarBlock.Proofs.Environment
import VarBlock.Proofs.Overriding
import VarBlock.Proofs.ExtraOption
import VarBlock.Proofs.Relayering
import VarBlock.Proofs.Formats
import VarBlock.Proofs.FirstFailure
import VarBlock.Proofs.Opening
import VarBlock.Proofs.Lookahead
import VarBlock.Proofs.Quoting
import VarBlock.Proofs.TokenListing
import VarBlock.Proofs.MessageContent
import VarBlock.Proofs.LanguageCodes
