import ExporterRecords.Proofs.Fields

/-!
# Fields at their places

The fields of a record stand without gaps, so each has its own offset. That a buffer starts with the
written form of several fields says no more than that each of them is found at its offset.
-/
namespace ExporterRecords

namespace ByteOrder

/-- The number that the `width` bytes from this offset on stand for. -/
def numberAt (order : ByteOrder) (width : Nat) (bytes : Bytes) (offset : Nat) : Nat :=
  order.decode ((bytes.drop offset).take width)

def u16At (order : ByteOrder) (bytes : Bytes) (offset : Nat) : UInt16 :=
  UInt16.ofNat (order.numberAt 2 bytes offset)

def u32At (order : ByteOrder) (bytes : Bytes) (offset : Nat) : UInt32 :=
  UInt32.ofNat (order.numberAt 4 bytes offset)

def u64At (order : ByteOrder) (bytes : Bytes) (offset : Nat) : UInt64 :=
  UInt64.ofNat (order.numberAt 8 bytes offset)

/-- Signed numbers stand as their two's complement. -/
def i64At (order : ByteOrder) (bytes : Bytes) (offset : Nat) : Int64 :=
  (order.u64At bytes offset).toInt64

/-- Offsets count from the front, and what stands behind a number does not matter to it. -/
theorem numberAt_append (order : ByteOrder) {width offset : Nat} {front bytes : Bytes}
    (h : offset + width ≤ bytes.length) (rest : Bytes) :
    order.numberAt width (front ++ (bytes ++ rest)) (front.length + offset) =
      order.numberAt width bytes offset := by
  have hroom : width ≤ (bytes.drop offset).length := by
    rw [List.length_drop]
    omega
  rw [numberAt, numberAt, ← List.drop_drop, List.drop_left,
    List.drop_append_of_le_length (by omega), List.take_append_of_le_length hroom]

end ByteOrder

namespace Field

variable {order : ByteOrder} {bytes : Bytes} {offset : Nat} {field : Field} {fields : List Field}

/-- The field has the value that is found at this offset. -/
def IsAt (order : ByteOrder) (bytes : Bytes) (offset : Nat) : Field → Prop
  | u16 value => order.u16At bytes offset = value
  | u32 value => order.u32At bytes offset = value
  | u64 value => order.u64At bytes offset = value
  | i64 value => order.i64At bytes offset = value
  | raw block => (bytes.drop offset).take block.length = block

/-- The fields have the values that are found from this offset on, one behind the other. -/
def AllAt (order : ByteOrder) (bytes : Bytes) : Nat → List Field → Prop
  | _, [] => True
  | offset, field :: fields =>
    field.IsAt order bytes offset ∧ AllAt order bytes (offset + field.width) fields

theorem allAt_append {more : List Field} : AllAt order bytes offset (fields ++ more) ↔
    AllAt order bytes offset fields ∧ AllAt order bytes (offset + widthAll fields) more := by
  induction fields generalizing offset with
  | nil => simp [AllAt, widthAll]
  | cons field fields ih => simp [AllAt, widthAll, ih, Nat.add_assoc, and_assoc]

/-- Where there are bytes enough, a value is found exactly where its written form stands. -/
theorem isAt_iff (h : offset + field.width ≤ bytes.length) :
    field.IsAt order bytes offset ↔ field.encode order <+: bytes.drop offset := by
  have hlength : ((bytes.drop offset).take field.width).length = field.width := by
    rw [List.length_take, List.length_drop]
    omega
  rw [List.prefix_iff_eq_take, length_encode, eq_comm]
  cases field with
  | u16 value => exact IsWord.u16.ofNat_decode_eq_iff hlength
  | u32 value => exact IsWord.u32.ofNat_decode_eq_iff hlength
  | u64 value => exact IsWord.u64.ofNat_decode_eq_iff hlength
  | i64 value =>
    have hsigned (word : UInt64) : word.toInt64 = value ↔ word = value.toUInt64 :=
      ⟨fun h => h ▸ rfl, fun h => h ▸ rfl⟩
    exact (hsigned _).trans (IsWord.u64.ofNat_decode_eq_iff hlength)
  | raw block => rfl

theorem encodeAll_cons (order : ByteOrder) (field : Field) (fields : List Field) :
    encodeAll order (field :: fields) = field.encode order ++ encodeAll order fields := rfl

theorem encodeAll_cons_prefix_iff {rest : Bytes} :
    encodeAll order (field :: fields) <+: rest ↔
      field.encode order <+: rest ∧ encodeAll order fields <+: rest.drop field.width := by
  rw [encodeAll_cons]
  constructor
  · rintro ⟨behind, rfl⟩
    rw [List.append_assoc, List.drop_left' (length_encode ..)]
    exact ⟨List.prefix_append .., List.prefix_append ..⟩
  · rintro ⟨⟨behind, rfl⟩, hfields⟩
    rw [List.drop_left' (length_encode ..)] at hfields
    exact (List.prefix_append_right_inj _).mpr hfields

/-- A buffer goes on with the fields exactly if it is long enough and each is at its offset. -/
theorem encodeAll_prefix_drop_iff (h : offset ≤ bytes.length) :
    encodeAll order fields <+: bytes.drop offset ↔
      offset + widthAll fields ≤ bytes.length ∧ AllAt order bytes offset fields := by
  -- By induction on the fields; the offset moves on behind each of them.
  induction fields generalizing offset with
  | nil => simp [encodeAll, widthAll, AllAt, h]
  | cons field fields ih =>
    rw [encodeAll_cons_prefix_iff, List.drop_drop, widthAll, AllAt, ← Nat.add_assoc]
    by_cases hroom : offset + field.width ≤ bytes.length
    · rw [ih hroom, isAt_iff hroom, and_left_comm]
    · have hshort : ¬ field.encode order <+: bytes.drop offset := by
        intro hstart
        have := hstart.length_le
        rw [length_encode, List.length_drop] at this
        omega
      simp only [hshort, false_and, false_iff, not_and]
      omega

theorem encodeAll_prefix_iff : encodeAll order fields <+: bytes ↔
    widthAll fields ≤ bytes.length ∧ AllAt order bytes 0 fields := by
  have h := @encodeAll_prefix_drop_iff order bytes 0 fields (Nat.zero_le _)
  rwa [List.drop_zero, Nat.zero_add] at h

end Field

namespace BodyInput

variable {recordType : UInt16} {order : ByteOrder} {body : Bytes} {offset : Nat}

/-- A body of which everything in front of this offset was taken. -/
def behind (recordType : UInt16) (order : ByteOrder) (body : Bytes) (offset : Nat) : BodyInput :=
  ⟨recordType, order, offset, body.drop offset⟩

theorem behind_zero : behind recordType order body 0 = ofBody recordType order body := rfl

/-- The fields that are found at the offset are taken, if the body is long enough. -/
theorem takes_behind {fields : List Field} (h : offset + Field.widthAll fields ≤ body.length)
    (hfields : Field.AllAt order body offset fields) :
    (behind recordType order body offset).Takes fields
      (behind recordType order body (offset + Field.widthAll fields)) := by
  have hstart := (Field.encodeAll_prefix_drop_iff (Nat.le_of_add_right_le h)).mpr ⟨h, hfields⟩
  obtain ⟨rest, hrest⟩ := hstart
  refine ⟨rest, hrest.symm, ?_⟩
  simp only [behind, ← List.drop_drop, ← hrest]
  rw [List.drop_left' (Field.length_encodeAll ..)]

theorem length_block {width : Nat} (h : offset + width ≤ body.length) :
    ((body.drop offset).take width).length = width := by
  rw [List.length_take, List.length_drop]
  omega

/-- Whatever stands at the offset is taken as a block. -/
theorem takes_block {width : Nat} (h : offset + width ≤ body.length) :
    (behind recordType order body offset).Takes [.raw ((body.drop offset).take width)]
      (behind recordType order body (offset + width)) := by
  have hlength := length_block h
  have hwidth : Field.widthAll [.raw ((body.drop offset).take width)] = width := hlength
  have hplace : Field.AllAt order body offset [.raw ((body.drop offset).take width)] :=
    ⟨congrArg (body.drop offset).take hlength, trivial⟩
  have htakes := @takes_behind recordType order body offset _ (hwidth.symm ▸ h) hplace
  rwa [hwidth] at htakes

end BodyInput

namespace BodyReader

open BodyInput

variable {recordType : UInt16} {order : ByteOrder} {body : Bytes} {offset : Nat}

theorem u16_behind (h : offset + 2 ≤ body.length) : u16 (behind recordType order body offset) =
    .ok (order.u16At body offset, behind recordType order body (offset + 2)) :=
  u16_eq_ok_iff.mpr (takes_behind h ⟨rfl, trivial⟩)

theorem u32_behind (h : offset + 4 ≤ body.length) : u32 (behind recordType order body offset) =
    .ok (order.u32At body offset, behind recordType order body (offset + 4)) :=
  u32_eq_ok_iff.mpr (takes_behind h ⟨rfl, trivial⟩)

theorem u64_behind (h : offset + 8 ≤ body.length) : u64 (behind recordType order body offset) =
    .ok (order.u64At body offset, behind recordType order body (offset + 8)) :=
  u64_eq_ok_iff.mpr (takes_behind h ⟨rfl, trivial⟩)

theorem i64_behind (h : offset + 8 ≤ body.length) : i64 (behind recordType order body offset) =
    .ok (order.i64At body offset, behind recordType order body (offset + 8)) :=
  i64_eq_ok_iff.mpr (takes_behind h ⟨rfl, trivial⟩)

theorem raw_behind {width : Nat} (h : offset + width ≤ body.length) :
    ∃ block, raw width (behind recordType order body offset) =
      .ok (block, behind recordType order body (offset + width)) :=
  ⟨⟨_, length_block h⟩, raw_eq_ok_iff.mpr (takes_block h)⟩

theorem number_behind {width : Nat} (h : offset + width ≤ body.length) :
    number width (behind recordType order body offset) =
      .ok (order.numberAt width body offset, behind recordType order body (offset + width)) := by
  have hlength := length_block h
  have hlt := order.decode_lt ((body.drop offset).take width)
  have hencode := order.encode_decode ((body.drop offset).take width)
  rw [hlength] at hlt hencode
  apply number_eq_ok_iff.mpr
  refine ⟨hlt, ?_⟩
  have htakes := @takes_block recordType order body offset width h
  rwa [← hencode] at htakes

end BodyReader

end ExporterRecords
