import SimpleLedger.Bytes
import SimpleLedger.Bytes.Base64
import SimpleLedger.Bytes.Hex
import SimpleLedger.Bytes.Percent
import SimpleLedger.Command
import SimpleLedger.Command.Address
import SimpleLedger.Command.Arguments
import SimpleLedger.Corpus.Body
import SimpleLedger.Corpus.Category
import SimpleLedger.Corpus.Indexer
import SimpleLedger.Corpus.Query
import SimpleLedger.Corpus.Sampling
import SimpleLedger.Decimal
import SimpleLedger.Decimal.Binary64
import SimpleLedger.Decimal.Leading
import SimpleLedger.Endpoint
import SimpleLedger.Failure
import SimpleLedger.Json
import SimpleLedger.Json.Reader
import SimpleLedger.Json.Token
import SimpleLedger.Json.Written
import SimpleLedger.Main
import SimpleLedger.Message
import SimpleLedger.Message.Cursor
import SimpleLedger.Message.Error
import SimpleLedger.Message.Field
import SimpleLedger.Message.Marker
import SimpleLedger.Message.Reader
import SimpleLedger.Message.Rule
import SimpleLedger.Message.Writer
import SimpleLedger.Script.Element
import SimpleLedger.Script.Push
import SimpleLedger.Script.Token
import SimpleLedger.Script.Tokenizer
import SimpleLedger.Settings
import SimpleLedger.Settings.Environment
import SimpleLedger.Settings.Moment
import SimpleLedger.Settings.Path
import SimpleLedger.Settings.Toml
import SimpleLedger.Settings.Toml.Blank
import SimpleLedger.Settings.Toml.Content
import SimpleLedger.Settings.Toml.Draft
import SimpleLedger.Settings.Toml.Key
import SimpleLedger.Settings.Toml.Number
import SimpleLedger.Settings.Toml.Quoted
import SimpleLedger.Settings.Value
import SimpleLedger.Text.Blank
import SimpleLedger.Text.Extending
import SimpleLedger.Text.Numeral
import SimpleLedger.Text.Range
import SimpleLedger.Text.Shown
import SimpleLedger.Text.Unprinted
import SimpleLedger.Verdict
import SimpleLedger.Proofs.Script.Spelling
import SimpleLedger.Proofs.Script.Reading
import SimpleLedger.Proofs.Message.Marked
import SimpleLedger.Proofs.Message.Rule
import SimpleLedger.Proofs.Message.Validity
import SimpleLedger.Proofs.Message.Grammar
import SimpleLedger.Proofs.Script.Shortest
import SimpleLedger.Proofs.Script.Boundary
import SimpleLedger.Proofs.Message.Canonical
import SimpleLedger.Proofs.Message.Demand
import SimpleLedger.Proofs.Message.Written
import SimpleLedger.Proofs.Message.Reason
import SimpleLedger.Proofs.Message.Marker
import SimpleLedger.Proofs.Bytes.Hex
import SimpleLedger.Proofs.Text.Numeral
import SimpleLedger.Proofs.Message.Error
import SimpleLedger.Proofs.Verdict
import SimpleLedger.Proofs.Message.Malformed
import SimpleLedger.Proofs.Message.Appended
import SimpleLedger.Proofs.Corpus.Lines
import SimpleLedger.Proofs.Corpus.Sampling
import SimpleLedger.Proofs.Message.Parallel
import SimpleLedger.Proofs.Message.Payload
import SimpleLedger.Proofs.Message.Truncated
import SimpleLedger.Proofs.Text.Printable
import SimpleLedger.Proofs.Text.Utf8
import SimpleLedger.Proofs.Message.Plain
import SimpleLedger.Proofs.Message.Respelled
import SimpleLedger.Proofs.Json.Scanning
import SimpleLedger.Proofs.Json.Printing
import SimpleLedger.Proofs.Json.Reading
import SimpleLedger.Proofs.Json.Line
import SimpleLedger.Proofs.Bytes.HexSpelling
import SimpleLedger.Proofs.Text.Blank
import SimpleLedger.Proofs.Endpoint
import SimpleLedger.Proofs.Command
import SimpleLedger.Proofs.Script.Beginning
import SimpleLedger.Proofs.Script.Drive
import SimpleLedger.Proofs.Script.Partition
import SimpleLedger.Proofs.Script.Concatenation
import SimpleLedger.Proofs.Message.Position
import SimpleLedger.Proofs.Message.Injective
import SimpleLedger.Proofs.Bytes.HexFault
import SimpleLedger.Proofs.Verdict.Hexadecimal
import SimpleLedger.Proofs.Bytes.Percent
import SimpleLedger.Proofs.Endpoint.Location
import SimpleLedger.Proofs.Bytes.Base64
import SimpleLedger.Proofs.Corpus.Query
import SimpleLedger.Proofs.Json.Accepted
import SimpleLedger.Proofs.Corpus.Body
import SimpleLedger.Proofs.Script.Pushed
import SimpleLedger.Proofs.Message.Cursor
import SimpleLedger.Proofs.Command.Flags
import SimpleLedger.Proofs.Command.Sampling
import SimpleLedger.Proofs.Settings.Distinct
import SimpleLedger.Proofs.Settings.Path
import SimpleLedger.Proofs.Settings.Toml
import SimpleLedger.Proofs.Settings.Variable
import SimpleLedger.Proofs.Settings.Layers
import SimpleLedger.Proofs.Settings
import SimpleLedger.Proofs.Settings.Key
