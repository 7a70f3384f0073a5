import ExporterRecords.Record.Layout

/-!
# Samplers

A record of this kind tells at which rate an exporter samples its packets. Its selector is the id
from the exporter's own template, or one of three reserved negative numbers.
-/
namespace ExporterRecords

namespace Sampler

inductive Selector where
  | overwrite
  | deviceDefault
  | generic
  | explicit (id : Int64)
  deriving DecidableEq, Repr

namespace Selector

def overwriteId : Int64 := -3
def deviceDefaultId : Int64 := -2
def genericId : Int64 := -1

def toInt64 : Selector → Int64
  | overwrite => overwriteId
  | deviceDefault => deviceDefaultId
  | generic => genericId
  | explicit id => id

/-- The selector that travels as this number; negative ones are reserved. -/
def ofInt64 (id : Int64) : Except Fault Selector :=
  if id = overwriteId then .ok overwrite
  else if id = deviceDefaultId then .ok deviceDefault
  else if id = genericId then .ok generic
  else if 0 ≤ id then .ok (explicit id)
  else .error (.invalidSelector id)

def explicit? : Selector → Option Int64
  | explicit id => some id
  | _ => none

theorem toInt64_of_ofInt64 {id : Int64} {selector : Selector} (h : ofInt64 id = .ok selector) :
    selector.toInt64 = id := by
  unfold ofInt64 at h
  split at h
  · next hid =>
    cases h
    exact hid.symm
  · split at h
    · next hid =>
      cases h
      exact hid.symm
    · split at h
      · next hid =>
        cases h
        exact hid.symm
      · split at h <;> cases h
        rfl

end Selector

end Sampler

structure Sampler where
  exporterSysid : UInt16
  algorithm : UInt16
  selector : Sampler.Selector
  packetInterval : UInt32
  spaceInterval : UInt32
  deriving DecidableEq, Repr

namespace Sampler

/-- One packet in this many is sampled; none where sampling is off. -/
def interval? (sampler : Sampler) : Option UInt32 :=
  if sampler.packetInterval = 0 then none else some sampler.packetInterval

def isDisabled (sampler : Sampler) : Bool := sampler.packetInterval = 0

def fields (sampler : Sampler) : List Field :=
  [.u16 sampler.exporterSysid,
    .u16 sampler.algorithm,
    .i64 sampler.selector.toInt64,
    .u32 sampler.packetInterval,
    .u32 sampler.spaceInterval]

/-- A reserved id is refused before the intervals are read. -/
def read : BodyReader Sampler := do
  let exporterSysid ← BodyReader.u16
  let algorithm ← BodyReader.u16
  let selector ← Selector.ofInt64 (← BodyReader.i64)
  let packetInterval ← BodyReader.u32
  let spaceInterval ← BodyReader.u32
  return { exporterSysid, algorithm, selector, packetInterval, spaceInterval }

/-- Only a selector whose number can be read back is written. -/
instance : Layout Sampler where
  code := RecordKind.samplerCode
  minimumSize := 24
  bodyLength _ := 20
  appendBody format sampler := do
    let selector ← Selector.ofInt64 sampler.selector.toInt64
    BodyWriter.fields format.order { sampler with selector }.fields
  readBody _ := read

end Sampler

end ExporterRecords
