import ExporterRecords.Address.Text
import ExporterRecords.Document.Basic
import ExporterRecords.RecordKind
import ExporterRecords.WireFormat

/-!
# Documents of formats, addresses and kinds

Addresses are described by their text. A wire format may leave members out and takes no others;
its family codes may leave members out too.
-/
namespace ExporterRecords

open Document

instance : Documented ByteOrder where
  toDocument order := .text order.name
  ofDocument? := plainChoice? [("little", .little), ("big", .big), ("native", .native)]

instance : Documented Address.Family where
  toDocument
    | .inet => .text "Inet"
    | .inet6 => .text "Inet6"
  ofDocument? := plainChoice? [("Inet", .inet), ("Inet6", .inet6)]

instance : Documented Address where
  toDocument address :=
    match address with
    | .v4 _ => choice "V4" (.text address.print)
    | .v6 .. => choice "V6" (.text address.print)
  ofDocument? document :=
    match document.choice? with
    | some ("V4", some (.text printed)) => Address.parseV4? printed
    | some ("V6", some (.text printed)) => Address.parseV6? printed
    | _ => none

instance : Documented RecordKind where
  toDocument
    | .exporter => .text "ExporterInfo"
    | .counters => .text "ExporterStats"
    | .legacySampler => .text "SamplerLegacy"
    | .sampler => .text "Sampler"
    | .other code => choice "Other" (toDocument code)
  ofDocument? document :=
    match document.choice? with
    | some ("Other", some code) => (ofDocument? code).map .other
    | _ => document.plainChoice? [("ExporterInfo", .exporter), ("ExporterStats", .counters),
        ("SamplerLegacy", .legacySampler), ("Sampler", .sampler)]

instance : Documented FamilyCodes where
  toDocument codes := .object [("inet", toDocument codes.inet), ("inet6", toDocument codes.inet6)]
  ofDocument? document := do
    let members ← document.members? ["inet", "inet6"]
    let standard : FamilyCodes := {}
    return { inet := ← members.withDefault "inet" standard.inet
             inet6 := ← members.withDefault "inet6" standard.inet6 }

instance : Documented WireFormat where
  toDocument format := .object
    [("byte_order", toDocument format.order), ("family_codes", toDocument format.families)]
  ofDocument? document := do
    let members ← document.knownMembers? ["byte_order", "family_codes"]
    let standard : WireFormat := {}
    return { order := ← members.withDefault "byte_order" standard.order
             families := ← members.withDefault "family_codes" standard.families }

end ExporterRecords
