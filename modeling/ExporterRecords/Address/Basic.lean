/-!
# Exporter addresses

An address is a 32-bit or a 128-bit number, the longer one kept as two words. Its family is the
form it has.
-/
namespace ExporterRecords

inductive Address where
  | v4 (bits : UInt32)
  | v6 (high low : UInt64)
  deriving DecidableEq, Repr

namespace Address

inductive Family where
  | inet
  | inet6
  deriving DecidableEq, Repr

def family : Address → Family
  | v4 _ => .inet
  | v6 .. => .inet6

/-- Parts of a number of the given count, highest first, each below `base`. -/
def digits (base : Nat) : Nat → Nat → List Nat
  | 0, _ => []
  | count + 1, n => digits base count (n / base) ++ [n % base]

/-- The number with these parts, highest first. -/
def ofDigits (base : Nat) (parts : List Nat) : Nat :=
  parts.foldl (fun n part => n * base + part) 0

/-- The octets of a 32-bit address. -/
def octets (bits : UInt32) : List Nat := digits 256 4 bits.toNat

/-- The sixteen-bit groups of a 128-bit address. -/
def groups (high low : UInt64) : List Nat :=
  digits 65536 4 high.toNat ++ digits 65536 4 low.toNat

end Address

end ExporterRecords
