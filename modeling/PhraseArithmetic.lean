import PhraseArithmetic.Text.Blank
import PhraseArithmetic.Text.Numeral
import PhraseArithmetic.Text.Octets
import PhraseArithmetic.Text.Parts
import PhraseArithmetic.Text.Hexadecimal
import PhraseArithmetic.Text.Double
import PhraseArithmetic.Text.Alphanumeric
import PhraseArithmetic.Text.Terminal
import PhraseArithmetic.Fault
import PhraseArithmetic.Operator
import PhraseArithmetic.Token
import PhraseArithmetic.Evaluation
import PhraseArithmetic.Evaluation.Chain
import PhraseArithmetic.Evaluation.Cursor
import PhraseArithmetic.Validation
import PhraseArithmetic.Log
import PhraseArithmetic.Ledger
import PhraseArithmetic.Endpoint
import PhraseArithmetic.Service
import PhraseArithmetic.Session
import PhraseArithmetic.Json.Quoted
import PhraseArithmetic.Json.Spelling
import PhraseArithmetic.Json.Lexeme
import PhraseArithmetic.Json.Magnitude
import PhraseArithmetic.Json.Written
import PhraseArithmetic.Wire.Format
import PhraseArithmetic.Wire.Ignored
import PhraseArithmetic.Wire.Reading
import PhraseArithmetic.Wire.Message
import PhraseArithmetic.Wire.Written
import PhraseArithmetic.Http.MediaType
import PhraseArithmetic.Http.Target
import PhraseArithmetic.Http.Message
import PhraseArithmetic.Server
import PhraseArithmetic.Toml.Layout
import PhraseArithmetic.Toml.Quotation
import PhraseArithmetic.Toml.Key
import PhraseArithmetic.Toml.Number
import PhraseArithmetic.Toml.Moment
import PhraseArithmetic.Toml.Table
import PhraseArithmetic.Toml.Value
import PhraseArithmetic.Toml.Document
import PhraseArithmetic.Files
import PhraseArithmetic.Settings
import PhraseArithmetic.Launch.Address
import PhraseArithmetic.Launch.Arguments
import PhraseArithmetic.Launch.Pattern
import PhraseArithmetic.Launch.Directive
import PhraseArithmetic.Launch.Filter
import PhraseArithmetic.Launch.Run
import PhraseArithmetic.Main
import PhraseArithmetic.Proofs.Scanning.Words
import PhraseArithmetic.Proofs.Scanning.Numerals
import PhraseArithmetic.Proofs.Evaluation.Ending
import PhraseArithmetic.Proofs.Evaluation.Accepted
import PhraseArithmetic.Proofs.Evaluation.Pairs
import PhraseArithmetic.Proofs.Evaluation.Landing
import PhraseArithmetic.Proofs.Evaluation.Wrapping
import PhraseArithmetic.Proofs.Validation.Agreement
import PhraseArithmetic.Proofs.Validation.Followers
import PhraseArithmetic.Proofs.Evaluation.Stages
import PhraseArithmetic.Proofs.Evaluation.Extension
import PhraseArithmetic.Proofs.Ledger.History
import PhraseArithmetic.Proofs.Ledger.Announcing
import PhraseArithmetic.Proofs.Ledger.Counting
import PhraseArithmetic.Proofs.Ledger.Views
import PhraseArithmetic.Proofs.Service.Effect
import PhraseArithmetic.Proofs.Session.Groups
import PhraseArithmetic.Proofs.Session.Isolation
import PhraseArithmetic.Proofs.Session.Interleaving
import PhraseArithmetic.Proofs.Session.Reproducible
import PhraseArithmetic.Proofs.Session.Announcements
import PhraseArithmetic.Proofs.Json.Seams
import PhraseArithmetic.Proofs.Json.Grammar
import PhraseArithmetic.Proofs.Json.Cutting
import PhraseArithmetic.Proofs.Json.Finite
import PhraseArithmetic.Proofs.Wire.RoundTrip
import PhraseArithmetic.Proofs.Wire.FirstMessage
import PhraseArithmetic.Proofs.Wire.Passing
import PhraseArithmetic.Proofs.Wire.Collecting
import PhraseArithmetic.Proofs.Wire.Occurrences
import PhraseArithmetic.Proofs.Wire.Acceptance
import PhraseArithmetic.Proofs.Server.Ruling
import PhraseArithmetic.Proofs.Server.Accounting
import PhraseArithmetic.Proofs.Server.Thinning
import PhraseArithmetic.Proofs.Server.Limit
import PhraseArithmetic.Proofs.Server.Length
import PhraseArithmetic.Proofs.Server.Front
import PhraseArithmetic.Proofs.Server.FixedPoint
import PhraseArithmetic.Proofs.Server.Logging
import PhraseArithmetic.Proofs.Toml.Insertion
import PhraseArithmetic.Proofs.Toml.LineEnds
import PhraseArithmetic.Proofs.Toml.FurtherLines
import PhraseArithmetic.Proofs.Toml.Lines
import PhraseArithmetic.Proofs.Toml.Grammar
import PhraseArithmetic.Proofs.Toml.Numerals
import PhraseArithmetic.Proofs.Toml.Strings
import PhraseArithmetic.Proofs.Toml.SpelledLines
import PhraseArithmetic.Proofs.Settings.Choices
import PhraseArithmetic.Proofs.Settings.Defaulting
import PhraseArithmetic.Proofs.Settings.Loading
import PhraseArithmetic.Proofs.Launch.Starting
import PhraseArithmetic.Proofs.Launch.Arguments
import PhraseArithmetic.Proofs.Launch.Listening
