import ExporterRecords.Address.Packed
import ExporterRecords.Record.Layout

/-!
# Exporters

A record of this kind introduces a device that sends flows. The collector gives it the number
`sysid`, by which all other records name it; the device reports its own observation domain `id`.
-/
namespace ExporterRecords

structure Exporter where
  version : UInt32
  address : Address
  sysid : UInt16
  id : UInt32
  deriving DecidableEq, Repr

namespace Exporter

def family (exporter : Exporter) : Address.Family := exporter.address.family

/-- Two records speak of one device if its address and its own id agree; the version may change
while the device stays. -/
def sameDevice (a b : Exporter) : Bool := a.address = b.address ∧ a.id = b.id

def fields (format : WireFormat) (exporter : Exporter) : List Field :=
  [.u32 exporter.version,
    .raw (PackedAddress.pack format.order exporter.address).bytes,
    .u16 (format.families.code exporter.family),
    .u16 exporter.sysid,
    .u32 exporter.id]

/-- All fields are read before the family code is looked up. -/
def read (format : WireFormat) : BodyReader Exporter := do
  format.validate
  let version ← BodyReader.u32
  let block ← BodyReader.raw PackedAddress.length
  let code ← BodyReader.u16
  let sysid ← BodyReader.u16
  let id ← BodyReader.u32
  let address ← PackedAddress.decode ⟨block.1, block.2⟩ format.order format.families code
  return { version, address, sysid, id }

instance : Layout Exporter where
  code := RecordKind.exporterCode
  minimumSize := 32
  bodyLength _ := 28
  appendBody format exporter := do
    format.validate
    BodyWriter.fields format.order (exporter.fields format)
  readBody := read

end Exporter

end ExporterRecords
