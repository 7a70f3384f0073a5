import ExporterRecords.Record.Layout

/-!
# Counters

A record of this kind holds one snapshot of the counters for each of several exporters, with the
number of snapshots in front. A list too long for one record is split into batches.
-/
namespace ExporterRecords

/-- The counters of one exporter at one time. The exporter's number takes four bytes here. -/
structure CounterSnapshot where
  sysid : UInt32
  sequenceFailures : UInt32
  packets : UInt64
  flows : UInt64
  deriving DecidableEq, Repr

namespace CounterSnapshot

/-- The number of bytes of one snapshot. -/
def length : Nat := 24

def fields (snapshot : CounterSnapshot) : List Field :=
  [.u32 snapshot.sysid, .u32 snapshot.sequenceFailures, .u64 snapshot.packets, .u64 snapshot.flows]

def read : BodyReader CounterSnapshot := do
  let sysid ← BodyReader.u32
  let sequenceFailures ← BodyReader.u32
  let packets ← BodyReader.u64
  let flows ← BodyReader.u64
  return { sysid, sequenceFailures, packets, flows }

/-- The next `count` snapshots. -/
def readMany : Nat → BodyReader (List CounterSnapshot)
  | 0 => return []
  | count + 1 => do
    let snapshot ← read
    return snapshot :: (← readMany count)

end CounterSnapshot

structure CounterBatch where
  entries : List CounterSnapshot
  deriving DecidableEq, Repr

namespace CounterBatch

/-- The most snapshots that one record can hold. -/
def capacity : Nat := (Header.largestSize - Header.length - 4) / CounterSnapshot.length

/-- A batch whose length its sender has announced. -/
def ofCounted (count : UInt32) (entries : List CounterSnapshot) : Except Fault CounterBatch :=
  if count.toNat = entries.length then .ok ⟨entries⟩
  else .error (.countMismatch count entries.length)

/-- The number of snapshots as it is written; one beyond 32 bits as the largest. -/
def count (batch : CounterBatch) : UInt32 :=
  UInt32.ofNat (min batch.entries.length (UInt32.size - 1))

/-- Full batches with the entries in order; only the last may hold fewer, and none is empty. -/
def split (entries : List CounterSnapshot) : List CounterBatch :=
  match entries with
  | [] => []
  | entry :: rest => ⟨entry :: rest.take (capacity - 1)⟩ :: split (rest.drop (capacity - 1))
termination_by entries.length
decreasing_by
  rw [List.length_drop, List.length_cons]
  omega

def fields (batch : CounterBatch) : List Field :=
  .u32 batch.count :: batch.entries.flatMap CounterSnapshot.fields

/-- The announced number of snapshots has to be there before the first of them is read. -/
def read : BodyReader CounterBatch := do
  let count ← BodyReader.u32
  BodyReader.require (count.toNat * CounterSnapshot.length)
  return ⟨← CounterSnapshot.readMany count.toNat⟩

instance : Layout CounterBatch where
  code := RecordKind.countersCode
  minimumSize := 8
  bodyLength batch := 4 + batch.entries.length * CounterSnapshot.length
  appendBody format batch := do
    BodyWriter.field format.order (.u32 batch.count)
    batch.entries.forM fun entry => BodyWriter.fields format.order entry.fields
  readBody _ := read

/-- The record of a list whose length its sender has announced. -/
def encodeCounted (format : WireFormat) (count : UInt32) (entries : List CounterSnapshot) :
    Except Fault Bytes := do
  Layout.encode format (← ofCounted count entries)

end CounterBatch

end ExporterRecords
