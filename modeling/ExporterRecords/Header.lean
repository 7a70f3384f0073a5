import ExporterRecords.Field
import ExporterRecords.RecordKind

/-!
# Record headers

Every record starts with its type code and its size. The size counts the header, so the next
record starts that many bytes further on.
-/
namespace ExporterRecords

structure Header where
  recordType : UInt16
  size : UInt16
  deriving DecidableEq, Repr

namespace Header

/-- The number of bytes of a header. -/
def length : Nat := 4

/-- The largest size that a header can declare. -/
def largestSize : Nat := 65535

def kind (header : Header) : RecordKind := .ofCode header.recordType

def encode (order : ByteOrder) (header : Header) : Bytes :=
  Field.encodeAll order [.u16 header.recordType, .u16 header.size]

@[simp] theorem length_encode (order : ByteOrder) (header : Header) :
    (header.encode order).length = length := by
  simp [encode, Field.encodeAll, Field.width, length]

/-- The header at the front of a buffer. -/
def decode (order : ByteOrder) (bytes : Bytes) : Except Fault Header :=
  match bytes.split? length with
  | some (front, _) => .ok
    { recordType := UInt16.ofNat (order.decode (front.1.take 2))
      size := UInt16.ofNat (order.decode (front.1.drop 2)) }
  | none => .error (.truncatedHeader bytes.length)

/-- The size without the header, unless it is too small to count the header in. -/
def bodyLength (header : Header) : Except Fault Nat :=
  if header.size.toNat < length then
    .error (.invalidSize header.recordType header.size length)
  else
    .ok (header.size.toNat - length)

end Header

end ExporterRecords
