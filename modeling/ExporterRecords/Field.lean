import ExporterRecords.ByteOrder
import ExporterRecords.Fault

/-!
# Fields of a record body

A body is a sequence of fields without gaps. Writing turns each field into its bytes; reading
takes as many bytes as the field is wide or reports how many the body would have to hold. A read
that fails takes nothing. A body is written behind what a buffer holds already, and what was written
of it stays there even if the rest cannot be written.
-/
namespace ExporterRecords

inductive Field where
  | u16 (value : UInt16)
  | u32 (value : UInt32)
  | u64 (value : UInt64)
  | i64 (value : Int64)
  | raw (bytes : Bytes)
  deriving DecidableEq, Repr

namespace Field

def width : Field → Nat
  | u16 _ => 2
  | u32 _ => 4
  | u64 _ => 8
  | i64 _ => 8
  | raw bytes => bytes.length

/-- Signed numbers travel as their two's complement. -/
def encode (order : ByteOrder) : Field → Bytes
  | u16 value => order.encode 2 value.toNat
  | u32 value => order.encode 4 value.toNat
  | u64 value => order.encode 8 value.toNat
  | i64 value => order.encode 8 value.toUInt64.toNat
  | raw bytes => bytes

@[simp] theorem length_encode (order : ByteOrder) (field : Field) :
    (field.encode order).length = field.width := by
  cases field <;> simp [encode, width]

def encodeAll (order : ByteOrder) (fields : List Field) : Bytes :=
  fields.flatMap (encode order)

/-- The width of several fields, which stand without gaps. -/
def widthAll : List Field → Nat
  | [] => 0
  | field :: fields => field.width + widthAll fields

@[simp] theorem length_encodeAll (order : ByteOrder) (fields : List Field) :
    (encodeAll order fields).length = widthAll fields := by
  induction fields with
  | nil => rfl
  | cons field fields ih =>
    have hcons : encodeAll order (field :: fields) =
        field.encode order ++ encodeAll order fields := rfl
    rw [hcons, List.length_append, length_encode, ih, widthAll]

end Field

/-- A body that is being read: what was taken from its front and what is left. Faults name
`recordType`, the code of the kind whose layout is read. -/
structure BodyInput where
  recordType : UInt16
  order : ByteOrder
  consumed : Nat
  rest : Bytes

namespace BodyInput

def ofBody (recordType : UInt16) (order : ByteOrder) (body : Bytes) : BodyInput :=
  ⟨recordType, order, 0, body⟩

/-- Lengths are reported in 64 bits; one beyond them as the largest. -/
def largestLength : Nat := UInt64.size - 1

/-- The fault of a body that has no `width` bytes left. -/
def shortage (input : BodyInput) (width : Nat) : Fault :=
  .truncatedBody input.recordType (min (input.consumed + width) largestLength)
    (input.consumed + input.rest.length)

end BodyInput

abbrev BodyReader (α : Type) := StateT BodyInput (Except Fault) α

namespace BodyReader

/-- The next `width` bytes. -/
def raw (width : Nat) : BodyReader { bytes : Bytes // bytes.length = width } := fun input =>
  match input.rest.split? width with
  | some (bytes, rest) => .ok (bytes, { input with consumed := input.consumed + width, rest })
  | none => .error (input.shortage width)

/-- Checks that `width` bytes are left and takes none of them. -/
def require (width : Nat) : BodyReader Unit := fun input =>
  if width ≤ input.rest.length then .ok ((), input) else .error (input.shortage width)

def number (width : Nat) : BodyReader Nat := do
  let bytes ← raw width
  return (← get).order.decode bytes.1

def u16 : BodyReader UInt16 := UInt16.ofNat <$> number 2

def u32 : BodyReader UInt32 := UInt32.ofNat <$> number 4

def u64 : BodyReader UInt64 := UInt64.ofNat <$> number 8

def i64 : BodyReader Int64 := UInt64.toInt64 <$> u64

end BodyReader

/-- Writes to the end of a buffer. -/
abbrev BodyWriter := ExceptT Fault (StateM (Array UInt8)) Unit

namespace BodyWriter

def field (order : ByteOrder) (field : Field) : BodyWriter :=
  modify fun (out : Array UInt8) => out ++ field.encode order

def fields (order : ByteOrder) (fields : List Field) : BodyWriter :=
  fields.forM (field order)

/-- What comes of writing to this buffer, and the buffer afterwards. -/
def appendTo (writer : BodyWriter) (out : Array UInt8) : Except Fault Unit × Array UInt8 :=
  (ExceptT.run writer).run out

end BodyWriter

end ExporterRecords
