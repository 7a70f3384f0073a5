import ExporterRecords.Hex

/-!
# Faults

The causes for which a record cannot be read or written, their wording, and what a user may do
about each. Only a fault that more input may cure counts as incomplete, and only one that the
caller's own values cause counts as the caller's mistake.
-/
namespace ExporterRecords

inductive Fault where
  | truncatedHeader (available : Nat)
  | truncatedBody (recordType : UInt16) (needed available : Nat)
  | truncatedStream (recordType : UInt16) (offset needed available : Nat)
  | invalidSize (recordType size : UInt16) (minimum : Nat)
  | sizeMismatch (recordType : UInt16) (declared consumed : Nat)
  | countMismatch (declared : UInt32) (actual : Nat)
  | invalidFamily (code : UInt16)
  | invalidSelector (id : Int64)
  | unexpectedKind (expected found : UInt16)
  | recordTooLarge (recordType : UInt16) (length : Nat)
  | configuration (details : String)
  | transport (details : String)
  deriving DecidableEq, Repr

namespace Fault

def message : Fault → String
  | truncatedHeader available => s!"Truncated record header: need 4 bytes, have {available}"
  | truncatedBody recordType needed available =>
    s!"Truncated body of record type {Hex.code recordType}: need {needed} bytes, have {available}"
  | truncatedStream recordType offset needed available =>
    s!"Stream ended inside record type {Hex.code recordType} at offset {offset}: " ++
      s!"need {needed} bytes, have {available}"
  | invalidSize recordType size minimum =>
    s!"Invalid size {size} for record type {Hex.code recordType}: minimum is {minimum}"
  | sizeMismatch recordType declared consumed =>
    s!"Size mismatch in record type {Hex.code recordType}: " ++
      s!"declared {declared} bytes, layout uses {consumed}"
  | countMismatch declared actual =>
    s!"Stat count mismatch: declared {declared}, got {actual} entries"
  | invalidFamily code => s!"Invalid address family {code}"
  | invalidSelector id =>
    s!"Invalid sampler id {id}: negative ids other than -1, -2, -3 are reserved"
  | unexpectedKind expected found =>
    s!"Unexpected record type {Hex.code found}, expected {Hex.code expected}"
  | recordTooLarge recordType length =>
    s!"Record type {Hex.code recordType} would encode to {length} bytes, " ++
      "exceeding the 16-bit size field"
  | configuration details => s!"Configuration error: {details}"
  | transport _ => "I/O error while framing records"

/-- The fault underneath, for the one kind that wraps another. -/
def cause? : Fault → Option String
  | transport details => some details
  | _ => none

def isIncomplete : Fault → Bool
  | truncatedHeader .. | truncatedBody .. => true
  | _ => false

def isCallerMistake : Fault → Bool
  | countMismatch .. | recordTooLarge .. => true
  | _ => false

def advice : Fault → List String
  | truncatedHeader .. | truncatedBody .. =>
    ["Supply the remaining bytes of the record",
      "Check the block framing that delimits the record buffer"]
  | truncatedStream .. =>
    ["Check the file or socket was not cut short",
      "Verify the block size reported by the file framing layer"]
  | invalidSize .. | sizeMismatch .. =>
    ["Verify writer and reader agree on byte order",
      "Check the stream for corruption before this offset",
      "Confirm the record type code registry matches the writer"]
  | countMismatch .. =>
    ["Pass a stat count equal to the number of entries",
      "Build the stats record from its entry list"]
  | invalidFamily .. =>
    ["Configure the address family codes used by the writing host",
      "Verify writer and reader agree on byte order"]
  | invalidSelector .. =>
    ["Use SamplerId::Generic, Default or Overwrite for reserved ids",
      "Check the exporter template for a corrupted selector id"]
  | unexpectedKind .. => ["Dispatch records through RecordStream instead of a fixed decoder"]
  | recordTooLarge .. => ["Split stats entries across several records"]
  | configuration .. =>
    ["Check the configuration field names and values",
      "Use CodecConfig::default() as a reference"]
  | transport .. =>
    ["Check the underlying reader or writer", "Retry at the file or network layer"]

end Fault

end ExporterRecords
