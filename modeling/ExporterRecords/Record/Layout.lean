import ExporterRecords.Header
import ExporterRecords.WireFormat

/-!
# Record layouts

A kind of record with a fixed type code says how its body is written and read. What all kinds
share stands here: a record is its header and its body, it must fit the 16-bit size, and reading it
uses exactly the bytes that its header declares.
-/
namespace ExporterRecords

class Layout (α : Type) where
  /-- The type code under which this kind is written. -/
  code : UInt16
  /-- The smallest size that a record of this kind can have, header included. -/
  minimumSize : Nat
  bodyLength : α → Nat
  appendBody : WireFormat → α → BodyWriter
  readBody : WireFormat → BodyReader α

namespace Layout

variable {α : Type} [Layout α]

/-- The length of the record in bytes, header included. -/
def encodedLength (a : α) : Nat := Header.length + bodyLength a

/-- The body alone, as it is written to an empty buffer. -/
def encodeBody (format : WireFormat) (a : α) : Except Fault Bytes :=
  match (appendBody format a).appendTo #[] with
  | (.ok (), out) => .ok out.toList
  | (.error fault, _) => .error fault

/-- Header and body, unless they are longer than a header can declare. -/
def encode (format : WireFormat) (a : α) : Except Fault Bytes := do
  if Header.largestSize < encodedLength a then
    throw (.recordTooLarge (code α) (encodedLength a))
  let body ← encodeBody format a
  return Header.encode format.order ⟨code α, UInt16.ofNat (encodedLength a)⟩ ++ body

/-- The value at the front of a body and the number of bytes it takes there. -/
def decodeBody (format : WireFormat) (body : Bytes) : Except Fault (α × Nat) :=
  ((readBody format).run (.ofBody (code α) format.order body)).map fun (a, input) =>
    (a, input.consumed)

/-- The value of a record whose header is known already; its bytes are not read as a header. -/
def decodeFramed (format : WireFormat) (header : Header) (bytes : Bytes) : Except Fault α := do
  let bodyLength ← header.bodyLength
  let size := header.size.toNat
  if size < minimumSize α then
    throw (.invalidSize header.recordType header.size (minimumSize α))
  match bytes.split? size with
  | none => throw (.truncatedBody header.recordType size bytes.length)
  | some (record, _) =>
    let (a, consumed) ← decodeBody format (record.1.drop Header.length)
    if consumed = bodyLength then
      return a
    else
      throw (.sizeMismatch header.recordType size (Header.length + consumed))

/-- The value of the record at the front of a buffer; what follows it is not looked at. -/
def decode (format : WireFormat) (bytes : Bytes) : Except Fault α := do
  let header ← Header.decode format.order bytes
  if header.recordType = code α then
    decodeFramed format header bytes
  else
    throw (.unexpectedKind (code α) header.recordType)

end Layout

end ExporterRecords
