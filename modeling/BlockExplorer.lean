import BlockExplorer.Codec.Bits
import BlockExplorer.Codec.ByteList
import BlockExplorer.Codec.Decoding
import BlockExplorer.Codec.Encoding
import BlockExplorer.Codec.Error
import BlockExplorer.Codec.WellFormed
import BlockExplorer.Command.Arguments
import BlockExplorer.Command.Failure
import BlockExplorer.Command.Run
import BlockExplorer.Config.Basic
import BlockExplorer.Config.Loading
import BlockExplorer.Config.Reader
import BlockExplorer.Decimal.Floating
import BlockExplorer.Files.Basic
import BlockExplorer.Files.Tree
import BlockExplorer.Interval
import BlockExplorer.Json.Fault
import BlockExplorer.Json.Lexer
import BlockExplorer.Json.Number
import BlockExplorer.Json.Writer
import BlockExplorer.Log.Event
import BlockExplorer.Log.Level
import BlockExplorer.Log.Logged
import BlockExplorer.Log.Logger
import BlockExplorer.Main
import BlockExplorer.Proofs.Codec.Bits
import BlockExplorer.Proofs.Codec.Boundary
import BlockExplorer.Proofs.Codec.ByteList
import BlockExplorer.Proofs.Codec.ByteLiteral
import BlockExplorer.Proofs.Codec.Cut
import BlockExplorer.Proofs.Codec.Encoding
import BlockExplorer.Proofs.Codec.Fault
import BlockExplorer.Proofs.Codec.Lenient
import BlockExplorer.Proofs.Codec.Order
import BlockExplorer.Proofs.Codec.Rendering
import BlockExplorer.Proofs.Codec.RoundTrip
import BlockExplorer.Proofs.Codec.Sequence
import BlockExplorer.Proofs.Codec.Size
import BlockExplorer.Proofs.Codec.WellFormed
import BlockExplorer.Proofs.Command.Outcome
import BlockExplorer.Proofs.Command.Polling
import BlockExplorer.Proofs.Command.Printing
import BlockExplorer.Proofs.Command.Records
import BlockExplorer.Proofs.Command.Redaction
import BlockExplorer.Proofs.Command.RoundTrip
import BlockExplorer.Proofs.Command.Settings
import BlockExplorer.Proofs.Command.Verbosity
import BlockExplorer.Proofs.Config.Acceptance
import BlockExplorer.Proofs.Config.RoundTrip
import BlockExplorer.Proofs.Config.Validity
import BlockExplorer.Proofs.Except
import BlockExplorer.Proofs.Interval
import BlockExplorer.Proofs.Json.Acceptance
import BlockExplorer.Proofs.Json.Grammar
import BlockExplorer.Proofs.Json.Object
import BlockExplorer.Proofs.Json.RoundTrip
import BlockExplorer.Proofs.Request.CacheBuster
import BlockExplorer.Proofs.Request.Cleaning
import BlockExplorer.Proofs.Request.OnePass
import BlockExplorer.Proofs.Request.Pairs
import BlockExplorer.Proofs.Request.Params
import BlockExplorer.Proofs.Request.Percent
import BlockExplorer.Proofs.Request.Reading
import BlockExplorer.Proofs.Request.Redaction
import BlockExplorer.Proofs.Request.Reporting
import BlockExplorer.Proofs.Request.Spelling
import BlockExplorer.Proofs.Session.Panics
import BlockExplorer.Proofs.Text.OneLine
import BlockExplorer.Proofs.Text.Split
import BlockExplorer.Proofs.Text.Words
import BlockExplorer.Request.Params
import BlockExplorer.Request.Percent
import BlockExplorer.Request.Url
import BlockExplorer.Session
import BlockExplorer.Text.Basic
import BlockExplorer.Text.Class
import BlockExplorer.Text.Numeral
import BlockExplorer.Proofs.Files.Path
import BlockExplorer.Proofs.Files.Tree
