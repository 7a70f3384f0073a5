import ExporterRecords.ByteOrder
import ExporterRecords.FamilyCodes

/-!
# Packed addresses

On the wire an address of either family takes a block of sixteen bytes: a short address is one
word at offset eight with zeros around it, a long one is two words. The block does not say which
of the two it holds; a family code beside it does.
-/
namespace ExporterRecords

/-- The number of bytes of a packed address. -/
def PackedAddress.length : Nat := 16

structure PackedAddress where
  bytes : Bytes
  length_eq : bytes.length = PackedAddress.length
  deriving DecidableEq, Repr

namespace PackedAddress

/-- Where a short address stands in the block. -/
def shortOffset : Nat := 8

def pack (order : ByteOrder) : Address → PackedAddress
  | .v4 bits =>
    ⟨List.replicate shortOffset 0 ++ order.encode 4 bits.toNat ++ List.replicate 4 0,
      by simp [shortOffset, length]⟩
  | .v6 high low => ⟨order.encode 8 high.toNat ++ order.encode 8 low.toNat, by simp [length]⟩

/-- Reads the bytes that the family uses and no others. -/
def unpack (block : PackedAddress) (order : ByteOrder) (family : Address.Family) : Address :=
  match family with
  | .inet => .v4 (UInt32.ofNat (order.decode ((block.bytes.drop shortOffset).take 4)))
  | .inet6 =>
    .v6 (UInt64.ofNat (order.decode (block.bytes.take 8)))
      (UInt64.ofNat (order.decode (block.bytes.drop 8)))

def decode (block : PackedAddress) (order : ByteOrder) (codes : FamilyCodes) (code : UInt16) :
    Except Fault Address :=
  (codes.family code).map fun family => block.unpack order family

/-- Nothing but zeros around the place of a short address. -/
def hasCleanPadding (block : PackedAddress) : Bool :=
  (block.bytes.take shortOffset ++ block.bytes.drop (shortOffset + 4)).all (· == 0)

end PackedAddress

end ExporterRecords
