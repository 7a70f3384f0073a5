import ExporterRecords.WireFormat
import ExporterRecords.Yaml.Reading

/-!
# Wire formats as text

A wire format stands in configuration files. Members that are left out have their standard values;
a text names each member at most once, and the format itself has no other members.
-/
namespace ExporterRecords

def FamilyCodes.ofNode? (tree : Yaml.Tree) (node : Yaml.Node) : Option FamilyCodes := do
  let members ← tree.members? node
  let code? (node : Yaml.Node) : Option UInt16 := do
    let n ← tree.natural? node
    if n < UInt16.size then some (UInt16.ofNat n) else none
  let standard : FamilyCodes := {}
  return { inet := ← Yaml.readMember? members "inet" standard.inet code?
           inet6 := ← Yaml.readMember? members "inet6" standard.inet6 code? }

namespace WireFormat

def ofTree? (tree : Yaml.Tree) : Option WireFormat := do
  let members ← tree.members? tree.root
  if !members.all (["byte_order", "family_codes"].contains ·.1) then none
  let standard : WireFormat := {}
  let order? (node : Yaml.Node) : Option ByteOrder := tree.choice? node >>= ByteOrder.ofName?
  return { order := ← Yaml.readMember? members "byte_order" standard.order order?
           families := ← Yaml.readMember? members "family_codes" standard.families
             (FamilyCodes.ofNode? tree) }

/-- The format that a text describes, if it can be used. -/
def ofText (text : String) : Except Fault WireFormat :=
  match Yaml.Tree.ofText? text >>= ofTree? with
  | none => .error (.configuration "invalid codec configuration")
  | some format => format.validate.map fun _ => format

def toText (format : WireFormat) : String :=
  s!"byte_order: {format.order.name}\nfamily_codes:\n  inet: {format.families.inet}\n" ++
    s!"  inet6: {format.families.inet6}\n"

end WireFormat

end ExporterRecords
