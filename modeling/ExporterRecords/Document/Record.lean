import ExporterRecords.Document.Format
import ExporterRecords.Record.Basic

/-!
# Documents of records

A foreign record is described by its code and the bytes of its body; one that is too long for a
header is refused.
-/
namespace ExporterRecords

open Document

instance : Documented Exporter where
  toDocument exporter := .object
    [("version", toDocument exporter.version), ("address", toDocument exporter.address),
      ("sysid", toDocument exporter.sysid), ("id", toDocument exporter.id)]
  ofDocument? document := do
    let members ← document.members? ["version", "address", "sysid", "id"]
    return { version := ← members.required "version"
             address := ← members.required "address"
             sysid := ← members.required "sysid"
             id := ← members.required "id" }

instance : Documented CounterSnapshot where
  toDocument snapshot := .object
    [("sysid", toDocument snapshot.sysid),
      ("sequence_failures", toDocument snapshot.sequenceFailures),
      ("packets", toDocument snapshot.packets), ("flows", toDocument snapshot.flows)]
  ofDocument? document := do
    let members ← document.members? ["sysid", "sequence_failures", "packets", "flows"]
    return { sysid := ← members.required "sysid"
             sequenceFailures := ← members.required "sequence_failures"
             packets := ← members.required "packets"
             flows := ← members.required "flows" }

instance : Documented CounterBatch where
  toDocument batch := .object [("entries", toDocument batch.entries)]
  ofDocument? document := do
    let members ← document.members? ["entries"]
    return { entries := ← members.required "entries" }

instance : Documented Sampler.Selector where
  toDocument
    | .overwrite => .text "Overwrite"
    | .deviceDefault => .text "DeviceDefault"
    | .generic => .text "Generic"
    | .explicit id => choice "Explicit" (toDocument id)
  ofDocument? document :=
    match document.choice? with
    | some ("Explicit", some id) => (ofDocument? id).map .explicit
    | _ => document.plainChoice? [("Overwrite", .overwrite), ("DeviceDefault", .deviceDefault),
        ("Generic", .generic)]

instance : Documented Sampler where
  toDocument sampler := .object
    [("exporter_sysid", toDocument sampler.exporterSysid),
      ("algorithm", toDocument sampler.algorithm), ("id", toDocument sampler.selector),
      ("packet_interval", toDocument sampler.packetInterval),
      ("space_interval", toDocument sampler.spaceInterval)]
  ofDocument? document := do
    let members ← document.members?
      ["exporter_sysid", "algorithm", "id", "packet_interval", "space_interval"]
    return { exporterSysid := ← members.required "exporter_sysid"
             algorithm := ← members.required "algorithm"
             selector := ← members.required "id"
             packetInterval := ← members.required "packet_interval"
             spaceInterval := ← members.required "space_interval" }

instance : Documented ForeignRecord where
  toDocument record := .object
    [("record_type", toDocument record.recordType), ("body", toDocument record.body)]
  ofDocument? document := do
    let members ← document.members? ["record_type", "body"]
    let recordType ← members.required "record_type"
    let body ← members.required "body"
    (ForeignRecord.ofBody recordType body).toOption

instance : Documented Record where
  toDocument
    | .exporter exporter => choice "ExporterInfo" (toDocument exporter)
    | .counters batch => choice "ExporterStats" (toDocument batch)
    | .sampler sampler => choice "Sampler" (toDocument sampler)
    | .foreign record => choice "Unknown" (toDocument record)
  ofDocument? document :=
    match document.choice? with
    | some ("ExporterInfo", some content) => (ofDocument? content).map .exporter
    | some ("ExporterStats", some content) => (ofDocument? content).map .counters
    | some ("Sampler", some content) => (ofDocument? content).map .sampler
    | some ("Unknown", some content) => (ofDocument? content).map .foreign
    | _ => none

end ExporterRecords
