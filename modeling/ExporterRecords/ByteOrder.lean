import ExporterRecords.Bytes

/-!
# Byte order

Both orders are one fixed-width number format, reversed or not. The host's own order is a third
choice, since a stream may be declared to follow the machine that writes it.
-/
namespace ExporterRecords

inductive ByteOrder where
  | little
  | big
  | native
  deriving DecidableEq, Repr

namespace ByteOrder

def name : ByteOrder → String
  | little => "little"
  | big => "big"
  | native => "native"

def ofName? (name : String) : Option ByteOrder :=
  [little, big, native].find? (·.name = name)

theorem ofName?_name (order : ByteOrder) : ofName? order.name = some order := by
  cases order <;> rfl

/-- The order meant. A program is built for hosts of one order, which `native` stands for. Here that
is the order with the lowest byte first; a build for hosts with the highest byte first, in which
`native` means `big`, is not described. -/
def resolved : ByteOrder → ByteOrder
  | native => little
  | order => order

/-- Turns bytes that stand lowest first into this order, and back. -/
def arrange (order : ByteOrder) (bs : Bytes) : Bytes :=
  match order.resolved with
  | big => bs.reverse
  | _ => bs

@[simp] theorem arrange_arrange (order : ByteOrder) (bs : Bytes) :
    order.arrange (order.arrange bs) = bs := by
  cases order <;> simp [arrange, resolved]

@[simp] theorem length_arrange (order : ByteOrder) (bs : Bytes) :
    (order.arrange bs).length = bs.length := by
  cases order <;> simp [arrange, resolved]

/-- A number in `width` bytes. -/
def encode (order : ByteOrder) (width n : Nat) : Bytes :=
  order.arrange (Bytes.littleEndian width n)

/-- The number that the bytes stand for. -/
def decode (order : ByteOrder) (bs : Bytes) : Nat :=
  Bytes.ofLittleEndian (order.arrange bs)

@[simp] theorem length_encode (order : ByteOrder) (width n : Nat) :
    (order.encode width n).length = width := by
  simp [encode]

theorem decode_encode (order : ByteOrder) (width n : Nat) :
    order.decode (order.encode width n) = n % Bytes.range width := by
  simp [decode, encode, Bytes.ofLittleEndian_littleEndian]

theorem encode_decode (order : ByteOrder) (bs : Bytes) :
    order.encode bs.length (order.decode bs) = bs := by
  have h := Bytes.littleEndian_ofLittleEndian (order.arrange bs)
  rw [length_arrange] at h
  rw [encode, decode, h, arrange_arrange]

end ByteOrder

end ExporterRecords
