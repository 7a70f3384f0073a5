import ExporterRecords.Address.Basic
import ExporterRecords.Address.Packed
import ExporterRecords.Address.Text
import ExporterRecords.ByteOrder
import ExporterRecords.Bytes
import ExporterRecords.CodeMap
import ExporterRecords.Document.Basic
import ExporterRecords.Document.Format
import ExporterRecords.Document.Ledger
import ExporterRecords.Document.Record
import ExporterRecords.FamilyCodes
import ExporterRecords.Fault
import ExporterRecords.Field
import ExporterRecords.Header
import ExporterRecords.Hex
import ExporterRecords.Ledger
import ExporterRecords.Proofs.Fields
import ExporterRecords.Proofs.Stream.Framing
import ExporterRecords.Record.Basic
import ExporterRecords.Record.Counters
import ExporterRecords.Record.Exporter
import ExporterRecords.Record.Foreign
import ExporterRecords.Record.Layout
import ExporterRecords.Record.Sampler
import ExporterRecords.RecordKind
import ExporterRecords.Registry
import ExporterRecords.Sample
import ExporterRecords.Stream.Cursor
import ExporterRecords.Stream.Framer
import ExporterRecords.Stream.Recode
import ExporterRecords.Stream.Writer
import ExporterRecords.WireFormat
import ExporterRecords.WireFormat.Text
import ExporterRecords.Yaml.Glyph
import ExporterRecords.Yaml.Node
import ExporterRecords.Yaml.Reading
import ExporterRecords.Yaml.Scalar
import ExporterRecords.Yaml.Token
import ExporterRecords.Proofs.Stream.Calls
import ExporterRecords.Proofs.Stream.Chunks
import ExporterRecords.Proofs.Stream.Sessions
import ExporterRecords.Proofs.Packing
import ExporterRecords.Proofs.Layouts
import ExporterRecords.Proofs.Records
import ExporterRecords.Proofs.Faults
import ExporterRecords.Proofs.Stream.RoundTrip
import ExporterRecords.Proofs.Stream.Rewriting
import ExporterRecords.Proofs.Stream.Boundaries
import ExporterRecords.Proofs.Ledger.Notices
import ExporterRecords.Proofs.Ledger.Events
import ExporterRecords.Proofs.Ledger.Sessions
import ExporterRecords.Proofs.Ledger.Chains
import ExporterRecords.Proofs.Ledger.Regressions
import ExporterRecords.Proofs.Ledger.Lifecycle
import ExporterRecords.Proofs.Ledger.Independence
import ExporterRecords.Proofs.Ledger.Replay
import ExporterRecords.Proofs.Stream.Headers
import ExporterRecords.Proofs.Stream.Relaying
import ExporterRecords.Proofs.Stream.Pieces
import ExporterRecords.Proofs.Stream.Batches
import ExporterRecords.Proofs.Stream.Writing
import ExporterRecords.Proofs.Settled
import ExporterRecords.Proofs.Incomplete
import ExporterRecords.Proofs.Selectors
import ExporterRecords.Proofs.Places
import ExporterRecords.Proofs.Acceptance
import ExporterRecords.Proofs.Kinds
import ExporterRecords.Proofs.Stream.Verdicts
import ExporterRecords.Proofs.Stream.Dispatch
import ExporterRecords.Proofs.Stream.Attribution
import ExporterRecords.Proofs.Limits
import ExporterRecords.Proofs.Families
import ExporterRecords.Proofs.Stream.Orders
import ExporterRecords.Proofs.InPlace
import ExporterRecords.Proofs.Requests
import ExporterRecords.Proofs.Sizing
import ExporterRecords.Proofs.Sample.Streams
import ExporterRecords.Proofs.Sample.Rounds
