import ExporterRecords.Record.Basic

/-!
# Writing a stream

A writer collects records in their written form. Each request is answered along with the writer that
its caller goes on with. A record is encoded before anything is appended, so one that cannot be
written leaves the writer as it was.
-/
namespace ExporterRecords.Stream

structure Writer where
  format : WireFormat
  written : Array Bytes

namespace Writer

def new (format : WireFormat) : Writer := ⟨format, #[]⟩

/-- The stream so far. -/
def bytes (writer : Writer) : Bytes := writer.written.toList.flatten

def length (writer : Writer) : Nat := writer.bytes.length

def recordCount (writer : Writer) : Nat := writer.written.size

def append (writer : Writer) (record : Bytes) : Writer :=
  { writer with written := writer.written.push record }

/-- Appends what a record was encoded to and returns its length. -/
def appendEncoded (writer : Writer) : Except Fault Bytes → Except Fault Nat × Writer
  | .ok record => (.ok record.length, writer.append record)
  | .error fault => (.error fault, writer)

/-- Writes one record of a known kind and returns its length. -/
def writeLayout {α : Type} [Layout α] (writer : Writer) (a : α) : Except Fault Nat × Writer :=
  writer.appendEncoded (Layout.encode writer.format a)

/-- Writes one record of any kind and returns its length. -/
def write (writer : Writer) (record : Record) : Except Fault Nat × Writer :=
  writer.appendEncoded (record.encode writer.format)

/-- Writes the batches in order until one of them fails; those before it stay written. -/
def writeBatches (writer : Writer) : List CounterBatch → Except Fault Nat × Writer
  | [] => (.ok 0, writer)
  | batch :: batches => match writer.writeLayout batch with
    | (.error fault, writer) => (.error fault, writer)
    | (.ok _, writer) =>
      let (result, writer) := writer.writeBatches batches
      (result.map (· + 1), writer)

/-- Writes counters of any number in as many records as they need and returns how many. -/
def writeCounters (writer : Writer) (entries : List CounterSnapshot) : Except Fault Nat × Writer :=
  writer.writeBatches (CounterBatch.split entries)

/-- Writes one record for a caller who gives up the writer if that fails. -/
def extend (writer : Writer) (record : Record) : Except Fault Writer :=
  let (result, writer) := writer.write record
  result.map fun _ => writer

/-- Writes records in order, up to the first that fails. -/
def writeAll (writer : Writer) (records : List Record) : Except Fault Writer :=
  records.foldlM extend writer

@[simp] theorem bytes_append (writer : Writer) (record : Bytes) :
    (writer.append record).bytes = writer.bytes ++ record := by
  simp [bytes, append]

@[simp] theorem recordCount_append (writer : Writer) (record : Bytes) :
    (writer.append record).recordCount = writer.recordCount + 1 := by
  simp [recordCount, append]

theorem length_append (writer : Writer) (record : Bytes) :
    (writer.append record).length = writer.length + record.length := by
  simp [length]

end Writer

end ExporterRecords.Stream
