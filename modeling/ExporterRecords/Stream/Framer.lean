import ExporterRecords.Registry

/-!
# Reading as bytes arrive

A framer takes records off the front of a buffer to which its caller appends. It keeps a header
that it has read until the whole record is there; the bytes of that header stay in the buffer. The
end of the input is announced by asking for the last records in another way.
-/
namespace ExporterRecords.Stream

structure Framer where
  format : WireFormat
  registry : Registry
  /-- The header of the record at the front of the buffer, once it was read. -/
  header? : Option Header
  /-- The number of bytes taken off the buffer so far. -/
  offset : Nat

namespace Framer

def new (format : WireFormat) (registry : Registry) : Framer := ⟨format, registry, none, 0⟩

/-- What a call comes to: a record or a fault, or nothing before more bytes arrive. -/
structure Step where
  result : Except Fault (Option Record)
  framer : Framer
  buffer : Bytes

/-- Takes the record of a known header off the buffer, if it is all there. -/
def takeRecord (framer : Framer) (header : Header) (buffer : Bytes) : Step :=
  match buffer.split? header.size.toNat with
  | none => ⟨.ok none, { framer with header? := some header }, buffer⟩
  | some (span, rest) =>
    ⟨(framer.registry.decode framer.format header span.1).map some,
      { framer with header? := none, offset := framer.offset + header.size.toNat }, rest⟩

/-- The next record of the buffer. -/
def decode (framer : Framer) (buffer : Bytes) : Step :=
  match framer.header? with
  | some header => framer.takeRecord header buffer
  | none =>
    if (buffer.split? Header.length).isNone then ⟨.ok none, framer, buffer⟩
    else match Header.decode framer.format.order buffer with
      | .error fault => ⟨.error fault, framer, buffer⟩
      | .ok header => match header.bodyLength with
        | .error fault => ⟨.error fault, framer, buffer⟩
        | .ok _ => framer.takeRecord header buffer

/-- The next record of a buffer to which nothing will be added: what is left must be whole. -/
def decodeEnd (framer : Framer) (buffer : Bytes) : Step :=
  let step := framer.decode buffer
  match step.result with
  | .ok none => match step.framer.header? with
    | none =>
      if step.buffer.isEmpty then step
      else { step with result := .error (.truncatedHeader step.buffer.length) }
    | some header => { step with result := .error (.truncatedStream header.recordType
        step.framer.offset header.size.toNat step.buffer.length) }
  | _ => step

/-- Appends a record in its written form to a buffer of outgoing bytes. -/
def encode (framer : Framer) (record : Record) (out : Bytes) : Except Fault Unit × Bytes :=
  match record.encode framer.format with
  | .ok bytes => (.ok (), out ++ bytes)
  | .error fault => (.error fault, out)

end Framer

end ExporterRecords.Stream
