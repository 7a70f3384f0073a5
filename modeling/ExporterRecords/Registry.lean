import ExporterRecords.CodeMap
import ExporterRecords.Record.Basic

/-!
# Registries of decoders

A registry says which type codes are read and how. A record under any other code comes out as a
foreign record, so a reader that knows fewer kinds than the writer loses nothing.
-/
namespace ExporterRecords

/-- A record from its header and the bytes that the header delimits, header included. -/
abbrev Decoder := WireFormat → Header → Bytes → Except Fault Record

/-- Reads the layout of one kind, under whatever code it is registered. -/
def Decoder.ofLayout (α : Type) [Layout α] (wrap : α → Record) : Decoder :=
  fun format header span => (Layout.decodeFramed format header span).map wrap

structure Registry where
  decoders : CodeMap Decoder

namespace Registry

def empty : Registry := ⟨.empty⟩

/-- Registers a decoder under a code, and returns the one that it replaces. -/
def register (registry : Registry) (code : UInt16) (decoder : Decoder) :
    Option Decoder × Registry :=
  (registry.decoders.get? code, ⟨registry.decoders.insert code decoder⟩)

/-- Drops the decoder of a code, and returns it. -/
def unregister (registry : Registry) (code : UInt16) : Option Decoder × Registry :=
  (registry.decoders.get? code, ⟨registry.decoders.erase code⟩)

def isRegistered (registry : Registry) (code : UInt16) : Bool :=
  registry.decoders.contains code

/-- Registers the layout of one kind under its own code. -/
def registerLayout (registry : Registry) (α : Type) [Layout α] (wrap : α → Record) :
    Option Decoder × Registry :=
  registry.register (Layout.code α) (.ofLayout α wrap)

/-- The metadata kinds under their own codes. -/
def standard : Registry :=
  let registry := (empty.registerLayout Exporter .exporter).2
  let registry := (registry.registerLayout CounterBatch .counters).2
  (registry.registerLayout Sampler .sampler).2

/-- The record in `span`, whose header is known already. -/
def decode (registry : Registry) (format : WireFormat) (header : Header) (span : Bytes) :
    Except Fault Record := do
  let _ ← header.bodyLength
  match registry.decoders.get? header.recordType with
  | some decoder => decoder format header span
  | none =>
    match span.split? header.size.toNat with
    | some (record, _) =>
      .foreign <$> ForeignRecord.ofBody header.recordType (record.1.drop Header.length)
    | none => throw (.truncatedBody header.recordType header.size.toNat span.length)

/-- The registered codes in ascending order, as a debugger prints them. -/
def describe (registry : Registry) : String :=
  let codes := ", ".intercalate (registry.decoders.keys.map toString)
  "DecoderRegistry \x7b record_types: [" ++ codes ++ "] \x7d"

end Registry

end ExporterRecords
