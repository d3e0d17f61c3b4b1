import JsonLayout.CommandLine.Run
import JsonLayout.CommandLine.Settings
import JsonLayout.CommandLine.Word
import JsonLayout.Crash
import JsonLayout.Datum.Access
import JsonLayout.Datum.Basic
import JsonLayout.Datum.Conversion
import JsonLayout.Datum.Decide
import JsonLayout.Datum.Describe
import JsonLayout.Datum.Draft
import JsonLayout.Datum.Equality
import JsonLayout.Datum.Error
import JsonLayout.Datum.Hash
import JsonLayout.Datum.Lookup
import JsonLayout.Decimal
import JsonLayout.Double.Basic
import JsonLayout.Double.Shortest
import JsonLayout.Files.Encoding
import JsonLayout.Files.Store
import JsonLayout.Layout.Options
import JsonLayout.Layout.Render
import JsonLayout.Layout.Scalar
import JsonLayout.Main
import JsonLayout.Members
import JsonLayout.Number
import JsonLayout.Reading.Error
import JsonLayout.Reading.Plain
import JsonLayout.Reading.Read
import JsonLayout.Reading.State
import JsonLayout.Session.Basic
import JsonLayout.Session.Log
import JsonLayout.Shell
import JsonLayout.Text.Blank
import JsonLayout.Text.CodePoint
import JsonLayout.Text.Lines
import JsonLayout.Text.Numeral
import JsonLayout.Text.Printable
import JsonLayout.Text.Quoted
import JsonLayout.Text.Utf8
import JsonLayout.Token.NumberLiteral
import JsonLayout.Token.Scan
import JsonLayout.Token.StringBody
import JsonLayout.Proofs.Grammar
import JsonLayout.Proofs.Json
import JsonLayout.Proofs.Attempt
import JsonLayout.Proofs.Token.StringBody
import JsonLayout.Proofs.Decimal
import JsonLayout.Proofs.Token.NumberLiteral
import JsonLayout.Proofs.Token.Scan
import JsonLayout.Proofs.Reading.Complete
import JsonLayout.Proofs.Reading.Sound
import JsonLayout.Proofs.Reading.Accepts
import JsonLayout.Proofs.Double.Rounding
import JsonLayout.Proofs.Number.Written
import JsonLayout.Proofs.Layout.Assemble
import JsonLayout.Proofs.Layout.Recursive
import JsonLayout.Proofs.Layout.Format
import JsonLayout.Proofs.AsWritten
import JsonLayout.Proofs.Layout.Derives
import JsonLayout.Proofs.RoundTrip
import JsonLayout.Proofs.Number.Equality
import JsonLayout.Proofs.Canonical
import JsonLayout.Proofs.NonFinite
import JsonLayout.Proofs.Unescaped
import JsonLayout.Proofs.Reading.Ends
import JsonLayout.Proofs.Layout.Ends
import JsonLayout.Proofs.Layout.Indented
import JsonLayout.Proofs.Files.Store
import JsonLayout.Proofs.Files.Encoding
import JsonLayout.Proofs.Shell.Role
import JsonLayout.Proofs.Shell.Step
import JsonLayout.Proofs.Shell.Run
import JsonLayout.Proofs.Shell.Conservation
import JsonLayout.Proofs.Shell.Routing
import JsonLayout.Proofs.Shell.Interference
import JsonLayout.Proofs.Session
import JsonLayout.Proofs.Session.Runs
import JsonLayout.Proofs.Session.Result
import JsonLayout.Proofs.Session.Answers
import JsonLayout.Proofs.Shell.Paste
import JsonLayout.Proofs.Text.Utf8
import JsonLayout.Proofs.Text.LineEnds
import JsonLayout.Proofs.Reading.LineEnds
import JsonLayout.Proofs.CommandLine.Items
import JsonLayout.Proofs.Files.Paths
import JsonLayout.Proofs.CommandLine.Run
import JsonLayout.Proofs.CommandLine.Output
import JsonLayout.Proofs.CommandLine.Sources
import JsonLayout.Proofs.Alike
import JsonLayout.Proofs.CommandLine.InPlace
import JsonLayout.Proofs.CommandLine.Ending
import JsonLayout.Proofs.Shell.Ending
import JsonLayout.Proofs.Layout.Rules
import JsonLayout.Proofs.Layout.Faults
import JsonLayout.Proofs.Layout.Escaping
import JsonLayout.Proofs.Layout.Realigned
import JsonLayout.Proofs.Datum.ToValue
import JsonLayout.Proofs.Members
import JsonLayout.Proofs.Shell.Commands
import JsonLayout.Proofs.Datum.Filling
import JsonLayout.Proofs.Datum.ToPlain
import JsonLayout.Proofs.Datum.RoundTrip
import JsonLayout.Proofs.Datum.Collapse
import JsonLayout.Proofs.Datum.Mixed
import JsonLayout.Proofs.Reading.Beginnings
import JsonLayout.Proofs.Reading.PrefixFree
import JsonLayout.Proofs.Shell.CompleteLine
import JsonLayout.Proofs.Text.Utf8Syntax
import JsonLayout.Proofs.Session.Line
import JsonLayout.Proofs.CommandLine.Spelling
import JsonLayout.Proofs.CommandLine.Arrangement
import JsonLayout.Proofs.CommandLine.Interactive
import JsonLayout.Proofs.Session.Listing
import JsonLayout.Proofs.Number.Exact
import JsonLayout.Proofs.Datum.Hash
import JsonLayout.Proofs.Datum.Limits
import JsonLayout.Proofs.Datum.Classes
import JsonLayout.Proofs.Reading.Plain
