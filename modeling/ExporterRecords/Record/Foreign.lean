import ExporterRecords.Header
import ExporterRecords.WireFormat

/-!
# Foreign records

A record of a kind that nobody here reads is carried whole: its code and the bytes of its body. The
header is written anew each time, so it follows the order of the stream it goes to.
-/
namespace ExporterRecords

structure ForeignRecord where
  recordType : UInt16
  body : Bytes
  fits : Header.length + body.length ≤ Header.largestSize
  deriving DecidableEq, Repr

namespace ForeignRecord

/-- The record with this body, unless it is longer than a header can declare. -/
def ofBody (recordType : UInt16) (body : Bytes) : Except Fault ForeignRecord :=
  if fits : Header.length + body.length ≤ Header.largestSize then .ok ⟨recordType, body, fits⟩
  else .error (.recordTooLarge recordType (Header.length + body.length))

def kind (record : ForeignRecord) : RecordKind := .ofCode record.recordType

/-- The size that the header declares. -/
def size (record : ForeignRecord) : UInt16 := UInt16.ofNat (Header.length + record.body.length)

theorem toNat_size (record : ForeignRecord) :
    record.size.toNat = Header.length + record.body.length := by
  have := record.fits
  rw [size, UInt16.toNat_ofNat']
  simp only [Header.length, Header.largestSize] at *
  omega

def encode (format : WireFormat) (record : ForeignRecord) : Bytes :=
  Header.encode format.order ⟨record.recordType, record.size⟩ ++ record.body

end ForeignRecord

end ExporterRecords
