import ExporterRecords.ByteOrder
import ExporterRecords.FamilyCodes

/-!
# Wire format

What the writer and the readers of a stream have to agree on beside the record layouts.
-/
namespace ExporterRecords

structure WireFormat where
  order : ByteOrder := .little
  families : FamilyCodes := {}
  deriving DecidableEq, Repr

namespace WireFormat

def validate (format : WireFormat) : Except Fault Unit :=
  format.families.validate

end WireFormat

end ExporterRecords
