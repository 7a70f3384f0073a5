import ExporterRecords.CodeMap
import ExporterRecords.Record.Basic

/-!
# The exporter ledger

A ledger folds records into what is known about each exporter now: the device behind its number,
its latest counters and its chain of samplers. Every change that a collector has to know of is
reported as an event.
-/
namespace ExporterRecords

inductive Counter where
  | sequenceFailures
  | packets
  | flows
  deriving DecidableEq, Repr

namespace Ledger

inductive Event where
  | exporterAdded (sysid : UInt16)
  | versionChanged (sysid : UInt16) (previous current : UInt32)
  | exporterReplaced (sysid : UInt16) (previous : Exporter)
  | counterRegression (sysid : UInt16) (counter : Counter) (previous current : UInt64)
  | unknownExporter (sysid : UInt32) (recordType : UInt16)
  | samplersCleared (sysid : UInt16) (dropped : Nat)
  deriving DecidableEq, Repr

/-- What is known about one exporter. -/
structure Entry where
  exporter : Exporter
  counters : Option CounterSnapshot
  /-- The samplers in the order in which they were announced last. -/
  samplers : List Sampler
  deriving DecidableEq, Repr

namespace Entry

def ofExporter (exporter : Exporter) : Entry := ⟨exporter, none, []⟩

def currentSampler? (entry : Entry) : Option Sampler := entry.samplers.getLast?

/-- The latest sampler, or the latest with this explicit id. -/
def sampler? (entry : Entry) : Option Int64 → Option Sampler
  | none => entry.currentSampler?
  | some id => entry.samplers.reverse.find? (·.selector.explicit? = some id)

/-- The exporter's next record. A different device takes the number over with nothing of what was
known; the same device keeps its counters and samplers, also in a new version. -/
def announce (entry : Entry) (exporter : Exporter) : Entry × List Event :=
  let previous := entry.exporter
  if previous.sameDevice exporter then
    ({ entry with exporter }, if previous.version = exporter.version then []
      else [.versionChanged exporter.sysid previous.version exporter.version])
  else
    (.ofExporter exporter, [.exporterReplaced exporter.sysid previous])

/-- A report if a counter went backwards. -/
def regression (sysid : UInt16) (counter : Counter) (previous current : UInt64) : List Event :=
  if current < previous then [.counterRegression sysid counter previous current] else []

/-- The counters that are smaller than before, in the order of the record's fields. -/
def regressions (sysid : UInt16) (previous current : CounterSnapshot) : List Event :=
  regression sysid .sequenceFailures previous.sequenceFailures.toUInt64
      current.sequenceFailures.toUInt64 ++
    regression sysid .packets previous.packets current.packets ++
    regression sysid .flows previous.flows current.flows

/-- The latest snapshot replaces the one before as a whole. -/
def count (entry : Entry) (snapshot : CounterSnapshot) : Entry × List Event :=
  ({ entry with counters := some snapshot },
    match entry.counters with
    | none => []
    | some previous => regressions entry.exporter.sysid previous snapshot)

/-- A sampler goes to the end of the chain, from its earlier place if it has one. The overwriting
selector empties the chain first. -/
def sample (entry : Entry) (sampler : Sampler) : Entry × List Event :=
  let clears := sampler.selector = .overwrite ∧ entry.samplers ≠ []
  let kept := if clears then [] else entry.samplers
  ({ entry with samplers := kept.filter (·.selector ≠ sampler.selector) ++ [sampler] },
    if clears then [.samplersCleared sampler.exporterSysid entry.samplers.length] else [])

end Entry

end Ledger

structure Ledger where
  entries : CodeMap Ledger.Entry

namespace Ledger

def empty : Ledger := ⟨.empty⟩

def get? (ledger : Ledger) (sysid : UInt16) : Option Entry := ledger.entries.get? sysid

def size (ledger : Ledger) : Nat := ledger.entries.size

/-- The entries in ascending order of their numbers. -/
def toList (ledger : Ledger) : List Entry := ledger.entries.values

def sampler? (ledger : Ledger) (sysid : UInt16) (id : Option Int64) : Option Sampler :=
  (ledger.get? sysid).bind (·.sampler? id)

/-- Replaces an entry by what a record makes of it. -/
def update (ledger : Ledger) (sysid : UInt16) (change : Entry × List Event) :
    Ledger × List Event :=
  (⟨ledger.entries.insert sysid change.1⟩, change.2)

def applyExporter (ledger : Ledger) (exporter : Exporter) : Ledger × List Event :=
  match ledger.get? exporter.sysid with
  | none => ledger.update exporter.sysid
      (.ofExporter exporter, [.exporterAdded exporter.sysid])
  | some entry => ledger.update exporter.sysid (entry.announce exporter)

/-- Counters name their exporter in four bytes; a number beyond two is nobody's. -/
def applySnapshot (ledger : Ledger) (snapshot : CounterSnapshot) : Ledger × List Event :=
  let sysid := snapshot.sysid.toUInt16
  let known := if sysid.toUInt32 = snapshot.sysid then ledger.get? sysid else none
  match known with
  | none => (ledger, [.unknownExporter snapshot.sysid RecordKind.countersCode])
  | some entry => ledger.update sysid (entry.count snapshot)

def applySnapshots (ledger : Ledger) : List CounterSnapshot → Ledger × List Event
  | [] => (ledger, [])
  | snapshot :: snapshots =>
    let (ledger, events) := ledger.applySnapshot snapshot
    let (ledger, later) := ledger.applySnapshots snapshots
    (ledger, events ++ later)

def applySampler (ledger : Ledger) (sampler : Sampler) : Ledger × List Event :=
  match ledger.get? sampler.exporterSysid with
  | none =>
    (ledger, [.unknownExporter sampler.exporterSysid.toUInt32 RecordKind.samplerCode])
  | some entry => ledger.update sampler.exporterSysid (entry.sample sampler)

/-- Takes in one record and reports what changed. -/
def apply (ledger : Ledger) : Record → Ledger × List Event
  | .exporter exporter => ledger.applyExporter exporter
  | .counters batch => ledger.applySnapshots batch.entries
  | .sampler sampler => ledger.applySampler sampler
  | .foreign _ => (ledger, [])

/-- Takes in records in order and reports all changes in order. -/
def applyAll (ledger : Ledger) : List Record → Ledger × List Event
  | [] => (ledger, [])
  | record :: records =>
    let (ledger, events) := ledger.apply record
    let (ledger, later) := ledger.applyAll records
    (ledger, events ++ later)

end Ledger

end ExporterRecords
