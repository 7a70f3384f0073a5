import ExporterRecords.Record.Counters
import ExporterRecords.Record.Exporter
import ExporterRecords.Record.Foreign
import ExporterRecords.Record.Sampler

/-!
# Records

What a stream is made of: the three metadata kinds, and foreign records for everything else.
-/
namespace ExporterRecords

inductive Record where
  | exporter (exporter : Exporter)
  | counters (batch : CounterBatch)
  | sampler (sampler : Sampler)
  | foreign (record : ForeignRecord)
  deriving DecidableEq, Repr

namespace Record

def code : Record → UInt16
  | exporter _ => Layout.code Exporter
  | counters _ => Layout.code CounterBatch
  | sampler _ => Layout.code Sampler
  | foreign record => record.recordType

def isForeign : Record → Bool
  | foreign _ => true
  | _ => false

def encode (format : WireFormat) : Record → Except Fault Bytes
  | exporter e => Layout.encode format e
  | counters batch => Layout.encode format batch
  | sampler s => Layout.encode format s
  | foreign record => .ok (record.encode format)

end Record

end ExporterRecords
