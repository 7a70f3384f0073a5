/-!
# Record kinds

A record's kind is a 16-bit code on the wire. The codes of the metadata records have names; every
other code stands for itself, so no code is lost.
-/
namespace ExporterRecords

inductive RecordKind where
  | exporter
  | counters
  | legacySampler
  | sampler
  | other (code : UInt16)
  deriving DecidableEq, Repr

namespace RecordKind

def exporterCode : UInt16 := 7
def countersCode : UInt16 := 8
def legacySamplerCode : UInt16 := 9
def flowCode : UInt16 := 11
def samplerCode : UInt16 := 15

def ofCode (code : UInt16) : RecordKind :=
  if code = exporterCode then exporter
  else if code = countersCode then counters
  else if code = legacySamplerCode then legacySampler
  else if code = samplerCode then sampler
  else other code

def code : RecordKind → UInt16
  | exporter => exporterCode
  | counters => countersCode
  | legacySampler => legacySamplerCode
  | sampler => samplerCode
  | other code => code

@[simp] theorem code_ofCode (c : UInt16) : (ofCode c).code = c := by
  unfold ofCode
  repeat' split
  all_goals simp_all [code]

end RecordKind

end ExporterRecords
