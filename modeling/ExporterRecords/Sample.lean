import ExporterRecords.Stream.Writer

/-!
# Sample sessions

Streams with known contents for any number of exporters. Exporters with an even number have short
addresses, those with an odd number long ones; their counters are multiples of the round.
-/
namespace ExporterRecords.Sample

def exporter (sysid : UInt16) : Exporter :=
  let id := 1000 + sysid.toUInt32
  if sysid % 2 = 0 then
    { version := 9, address := .v4 (0x0a000000 + sysid.toUInt32), sysid, id }
  else
    { version := 10, address := .v6 0x20010db800000000 sysid.toUInt64, sysid, id }

def snapshot (sysid : UInt16) (round : UInt64) : CounterSnapshot where
  sysid := sysid.toUInt32
  sequenceFailures := round.toUInt32
  packets := 1000 * round + sysid.toUInt64
  flows := 10 * round

/-- A generic sampler of one packet in `interval`. -/
def sampler (sysid : UInt16) (interval : UInt32) : Sampler where
  exporterSysid := sysid
  algorithm := 1
  selector := .generic
  packetInterval := interval
  spaceInterval := 0

/-- The length of a sample flow record's body. -/
def flowLength : Nat := 60

/-- A flow record, which is foreign here, with ascending bytes from `seed` on. -/
def flow (seed : UInt8) : ForeignRecord where
  recordType := RecordKind.flowCode
  body := (List.range flowLength).map fun i => seed + UInt8.ofNat i
  fits := by simp [flowLength, Header.length, Header.largestSize]

/-- What one exporter adds to a session. -/
def exporterRecords (sysid : UInt16) (flows : Nat) : List Record :=
  .exporter (exporter sysid) :: .sampler (sampler sysid (100 + sysid.toUInt32)) ::
    (List.range flows).map fun seed => .foreign (flow (UInt8.ofNat seed))

/-- A session of the exporters below `count`: each of them with its sampler and its flows, and the
counters of all of them at the end. -/
def records (count : UInt16) (flows : Nat) : List Record :=
  let sysids := (List.range count.toNat).map UInt16.ofNat
  sysids.flatMap (exporterRecords · flows) ++
    [.counters ⟨sysids.map (snapshot · 1)⟩]

/-- The session in its written form. -/
def stream (format : WireFormat) (count : UInt16) (flows : Nat) : Except Fault Bytes :=
  ((Stream.Writer.new format).writeAll (records count flows)).map (·.bytes)

end ExporterRecords.Sample
