import ExporterRecords.Document.Record
import ExporterRecords.Ledger

/-!
# Documents of ledgers

A ledger is an object with one member for each exporter, named by the exporter's number in plain
decimal. Nothing ties that name to the number in the entry.
-/
namespace ExporterRecords

open Document

instance : Documented Counter where
  toDocument
    | .sequenceFailures => .text "SequenceFailures"
    | .packets => .text "Packets"
    | .flows => .text "Flows"
  ofDocument? := plainChoice?
    [("SequenceFailures", .sequenceFailures), ("Packets", .packets), ("Flows", .flows)]

namespace Ledger

instance : Documented Event where
  toDocument
    | .exporterAdded sysid => choice "ExporterAdded" (.object [("sysid", toDocument sysid)])
    | .versionChanged sysid previous current => choice "VersionChanged" (.object
        [("sysid", toDocument sysid), ("previous", toDocument previous),
          ("current", toDocument current)])
    | .exporterReplaced sysid previous => choice "ExporterReplaced" (.object
        [("sysid", toDocument sysid), ("previous", toDocument previous)])
    | .counterRegression sysid counter previous current => choice "CounterRegression" (.object
        [("sysid", toDocument sysid), ("counter", toDocument counter),
          ("previous", toDocument previous), ("current", toDocument current)])
    | .unknownExporter sysid recordType => choice "UnknownExporter" (.object
        [("sysid", toDocument sysid), ("record_type", toDocument recordType)])
    | .samplersCleared sysid dropped => choice "SamplersCleared" (.object
        [("sysid", toDocument sysid), ("dropped", toDocument dropped)])
  ofDocument? document :=
    match document.choice? with
    | some ("ExporterAdded", some content) => do
      let members ← content.namedMembers?
      return .exporterAdded (← members.required "sysid")
    | some ("VersionChanged", some content) => do
      let members ← content.namedMembers?
      return .versionChanged (← members.required "sysid") (← members.required "previous")
        (← members.required "current")
    | some ("ExporterReplaced", some content) => do
      let members ← content.namedMembers?
      return .exporterReplaced (← members.required "sysid") (← members.required "previous")
    | some ("CounterRegression", some content) => do
      let members ← content.namedMembers?
      return .counterRegression (← members.required "sysid") (← members.required "counter")
        (← members.required "previous") (← members.required "current")
    | some ("UnknownExporter", some content) => do
      let members ← content.namedMembers?
      return .unknownExporter (← members.required "sysid") (← members.required "record_type")
    | some ("SamplersCleared", some content) => do
      let members ← content.namedMembers?
      return .samplersCleared (← members.required "sysid") (← members.required "dropped")
    | _ => none

/-- An absent snapshot may be left out. -/
instance : Documented Entry where
  toDocument entry := .object
    [("identity", toDocument entry.exporter), ("stats", toDocument entry.counters),
      ("samplers", toDocument entry.samplers)]
  ofDocument? document := do
    let members ← document.members? ["identity", "stats", "samplers"]
    return { exporter := ← members.required "identity"
             counters := ← members.withDefault "stats" none
             samplers := ← members.required "samplers" }

/-- A number in plain decimal: no sign, no blank, no zero in front. -/
def sysid? (name : String) : Option UInt16 :=
  match name.toList with
  | [] => none
  | cs =>
    if ¬ cs.all Char.isDigit ∨ 5 < cs.length ∨ (cs.head? = some '0' ∧ 1 < cs.length) then none
    else
      let n := Address.ofDigits 10 (cs.map fun c => c.toNat - '0'.toNat)
      if n < UInt16.size then some (.ofNat n) else none

instance : Documented Ledger where
  toDocument ledger := .object [("exporters", .object
    (ledger.entries.entries.map fun (sysid, entry) => (toString sysid, toDocument entry)))]
  ofDocument? document := do
    let members ← document.members? ["exporters"]
    match members "exporters" with
    | some (.object entries) =>
      let entries ← entries.mapM fun (name, entry) => do
        return (← sysid? name, ← ofDocument? entry)
      return ⟨.ofList entries⟩
    | _ => none

end Ledger

end ExporterRecords
