import RecordFilter.Pipeline
import RecordFilter.Settings.Basic
import RecordFilter.CommandLine.Run
import RecordFilter.Main
import RecordFilter.Yaml.Cursor
import RecordFilter.Yaml.Scalar
import RecordFilter.Yaml.Layout
import RecordFilter.Yaml.Document
import RecordFilter.Proofs.Grammar.Derivation
import RecordFilter.Proofs.Grammar.Descent
import RecordFilter.Proofs.Lexing.Forms
import RecordFilter.Proofs.Lexing.Sequence
import RecordFilter.Proofs.Grammar.Recognition
import RecordFilter.Proofs.Grammar.FirstFault
import RecordFilter.Proofs.Grammar.Frame
import RecordFilter.Proofs.Binary64.Nearest
import RecordFilter.Proofs.Decimal.Exact
import RecordFilter.Proofs.Decimal.ReadBack
import RecordFilter.Proofs.Decimal.Overflow
import RecordFilter.Proofs.Printing.Tokens
import RecordFilter.Proofs.Printing.Canonical
import RecordFilter.Proofs.Printing.Chain
import RecordFilter.Proofs.Printing.RoundTrip
import RecordFilter.Proofs.Lexing.Spelling
import RecordFilter.Proofs.Lexing.Layout
import RecordFilter.Proofs.Lexing.Extent
import RecordFilter.Proofs.Lexing.Fit
import RecordFilter.Proofs.Pipeline.LineFilter
import RecordFilter.Proofs.Binary64.Whole
import RecordFilter.Proofs.Json.Exact
import RecordFilter.Proofs.Json.OneMember
import RecordFilter.Proofs.Records.NumberField
import RecordFilter.Proofs.Binary64.Monotone
import RecordFilter.Proofs.Values.Order
import RecordFilter.Proofs.Values.Numerals
import RecordFilter.Proofs.Conditions.Interchange
import RecordFilter.Proofs.Lexing.Append
import RecordFilter.Proofs.Grammar.Composition
import RecordFilter.Proofs.Grammar.Segments
import RecordFilter.Proofs.Grammar.Variants
import RecordFilter.Proofs.Text.Encoded
import RecordFilter.Proofs.Json.SpaceAfter
import RecordFilter.Proofs.Json.TrailingSpace
import RecordFilter.Proofs.Pipeline.Sequence
import RecordFilter.Proofs.Lexing.Calls
import RecordFilter.Proofs.Evaluators.History
import RecordFilter.Proofs.Pipeline.BrokenLine
import RecordFilter.Proofs.Json.Finite
import RecordFilter.Proofs.Json.Scalars
import RecordFilter.Proofs.Json.Documents
import RecordFilter.Proofs.Records.IntegerField
import RecordFilter.Proofs.Records.Members
import RecordFilter.Proofs.Conditions.ExcludedMiddle
import RecordFilter.Proofs.Pipeline.Completion
import RecordFilter.Proofs.Pipeline.FailingSink
import RecordFilter.Proofs.CommandLine.Stages
import RecordFilter.Proofs.CommandLine.Refusal
import RecordFilter.Proofs.CommandLine.Batches
import RecordFilter.Proofs.CommandLine.Filtering
import RecordFilter.Proofs.Values.StrictOrder
import RecordFilter.Proofs.Conditions.Leaves
import RecordFilter.Proofs.Conditions.Locality
import RecordFilter.Proofs.Conditions.Passes
import RecordFilter.Proofs.Grammar.InOrder
import RecordFilter.Proofs.Lexing.Folding
import RecordFilter.Proofs.Settings.FlatText
