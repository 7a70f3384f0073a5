import ExporterRecords.Proofs.Places
import ExporterRecords.Proofs.Records
import ExporterRecords.Proofs.Selectors

/-!
# What the readers accept

Each kind of record is read exactly from the buffers that start with its documented layout, and the
value has in each field what stands at the field's offset. Written again, the value gives back the
bytes it was read from, except for what stood around a short address.
-/
namespace ExporterRecords

namespace Layout

variable {α : Type} [Layout α] {format : WireFormat} {bytes : Bytes} {a : α}

/-- A buffer starts with a frame exactly if its header is right and the body stands behind it. -/
theorem encode_prefix_iff {frame : ForeignRecord} : frame.encode format <+: bytes ↔
    Header.length + frame.body.length ≤ bytes.length ∧
      format.order.u16At bytes 0 = frame.recordType ∧
      format.order.u16At bytes 2 = frame.size ∧
      (bytes.drop Header.length).take frame.body.length = frame.body := by
  have hencode : frame.encode format = Field.encodeAll format.order
      [.u16 frame.recordType, .u16 frame.size, .raw frame.body] := by
    rw [ForeignRecord.encode, Header.encode]
    simp [Field.encodeAll, Field.encode]
  have hwidth : Field.widthAll [.u16 frame.recordType, .u16 frame.size, .raw frame.body] =
      Header.length + frame.body.length := by
    simp only [Field.widthAll, Field.width, Header.length]
    omega
  rw [hencode, Field.encodeAll_prefix_iff, hwidth]
  simp only [Field.AllAt, Field.IsAt, Field.width, and_true, Header.length]

/-- A value is read exactly from a buffer that starts with a header of its kind and, as long as the
header says, a body that holds the value. -/
theorem decode_eq_ok_iff_at : decode format bytes = .ok a ↔ ∃ body, Accepts format body a ∧
    minimumSize α ≤ Header.length + body.length ∧ format.order.u16At bytes 0 = code α ∧
    (format.order.u16At bytes 2).toNat = Header.length + body.length ∧
    Header.length ≤ bytes.length ∧ body <+: bytes.drop Header.length := by
  simp only [decode_eq_ok_iff, decodeFramed_frame_eq_ok_iff]
  constructor
  · rintro ⟨frame, rest, hbytes, hcode, hminimum, haccepts⟩
    obtain ⟨hlength, htype, hsize, hbody⟩ := encode_prefix_iff.mp ⟨rest, hbytes.symm⟩
    rw [frame.toNat_size] at hminimum
    refine ⟨frame.body, haccepts, hminimum, htype.trans hcode, ?_, by omega, ?_⟩
    · rw [hsize, frame.toNat_size]
    · rw [List.prefix_iff_eq_take, hbody]
  · rintro ⟨body, haccepts, hminimum, htype, hsize, hheader, hbody⟩
    -- A header declares the size, so the body fits into a frame.
    have hfits : Header.length + body.length ≤ Header.largestSize := by
      rw [← hsize]
      exact Nat.le_of_lt_succ (UInt16.toNat_lt _)
    let frame : ForeignRecord := ⟨code α, body, hfits⟩
    have hroom := hbody.length_le
    rw [List.length_drop] at hroom
    have hstart : frame.encode format <+: bytes := by
      refine encode_prefix_iff.mpr ⟨?_, htype, ?_, (List.prefix_iff_eq_take.mp hbody).symm⟩
      · change Header.length + body.length ≤ bytes.length
        omega
      · rw [← UInt16.toNat_inj, frame.toNat_size, hsize]
    obtain ⟨rest, hrest⟩ := hstart
    refine ⟨frame, rest, hrest.symm, rfl, ?_, haccepts⟩
    rwa [frame.toNat_size]

/-- A value is read where one of the written forms that are accepted for it has its places. -/
theorem decode_eq_ok_iff_exists {ι : Type} {fields : ι → List Field} {P : ι → Prop}
    (h : ∀ body, Accepts format body a ↔
      ∃ i, body = Field.encodeAll format.order (fields i) ∧ P i) :
    decode format bytes = .ok a ↔ ∃ i,
      Header.length + Field.widthAll (fields i) ≤ bytes.length ∧
      minimumSize α ≤ Header.length + Field.widthAll (fields i) ∧
      format.order.u16At bytes 0 = code α ∧
      (format.order.u16At bytes 2).toNat = Header.length + Field.widthAll (fields i) ∧
      P i ∧ Field.AllAt format.order bytes Header.length (fields i) := by
  rw [decode_eq_ok_iff_at]
  constructor
  · rintro ⟨body, haccepts, hminimum, hcode, hsize, hheader, hstart⟩
    obtain ⟨i, rfl, hi⟩ := (h body).mp haccepts
    obtain ⟨hlength, hplaces⟩ := (Field.encodeAll_prefix_drop_iff hheader).mp hstart
    rw [Field.length_encodeAll] at hminimum hsize
    exact ⟨i, hlength, hminimum, hcode, hsize, hi, hplaces⟩
  · rintro ⟨i, hlength, hminimum, hcode, hsize, hi, hplaces⟩
    have hheader := Nat.le_of_add_right_le hlength
    have hstart := (Field.encodeAll_prefix_drop_iff hheader).mpr ⟨hlength, hplaces⟩
    refine ⟨_, (h _).mpr ⟨i, rfl, hi⟩, ?_, hcode, ?_, hheader, hstart⟩
    all_goals rwa [Field.length_encodeAll]

theorem decode_eq_ok_iff_of_accepts {fields : List Field} {P : Prop}
    (h : ∀ body, Accepts format body a ↔ body = Field.encodeAll format.order fields ∧ P) :
    decode format bytes = .ok a ↔ Header.length + Field.widthAll fields ≤ bytes.length ∧
      minimumSize α ≤ Header.length + Field.widthAll fields ∧
      format.order.u16At bytes 0 = code α ∧
      (format.order.u16At bytes 2).toNat = Header.length + Field.widthAll fields ∧
      P ∧ Field.AllAt format.order bytes Header.length fields := by
  have hexists := @decode_eq_ok_iff_exists α _ format bytes a Unit (fun _ => fields) fun _ => P
  simp only [exists_const] at hexists
  exact hexists h

/-- Where a value is read from, its frame can be cut. -/
theorem exists_frame_of_decode (h : decode format bytes = .ok a) :
    ∃ frame : Stream.Frame, frame.recordType = code α ∧ Accepts format frame.body a ∧
      bytes.take (Header.length + frame.body.length) = frame.encode format := by
  obtain ⟨frame, rest, rfl, hcode, hread⟩ := decode_eq_ok_iff.mp h
  refine ⟨frame, hcode, (decodeFramed_frame_eq_ok_iff.mp hread).2, ?_⟩
  rw [← frame.toNat_size, List.take_left' (frame.length_encode format)]

/-- A kind whose bodies are written as they were read gives back the front of the buffer. -/
theorem encode_of_decode (h : decode format bytes = .ok a)
    (hbody : ∀ body, Accepts format body a →
      encodeBody format a = .ok body ∧ body.length = bodyLength a) :
    encode format a = .ok (bytes.take (encodedLength a)) := by
  obtain ⟨frame, hcode, haccepts, hfront⟩ := exists_frame_of_decode h
  obtain ⟨hencode, hlength⟩ := hbody frame.body haccepts
  rw [encodedLength, ← hlength, hfront]
  exact encode_eq_frame hcode hlength hencode

end Layout

namespace Sampler

variable {format : WireFormat} {bytes : Bytes} {sampler : Sampler}

/-- The sampler of the numbers at the documented offsets; a reserved number is named. -/
def found (order : ByteOrder) (bytes : Bytes) : Sampler where
  exporterSysid := order.u16At bytes 4
  algorithm := order.u16At bytes 6
  selector := (Selector.explicit (order.i64At bytes 8)).named
  packetInterval := order.u32At bytes 16
  spaceInterval := order.u32At bytes 20

theorem allAt_fields_iff {order : ByteOrder} :
    sampler.selector.IsLegal ∧ Field.AllAt order bytes Header.length sampler.fields ↔
      Selector.overwriteId ≤ order.i64At bytes 8 ∧ sampler = found order bytes := by
  obtain ⟨sysid, algorithm, selector, packetInterval, spaceInterval⟩ := sampler
  have hselector := @Selector.isLegal_of_number_iff selector (order.i64At bytes 8)
  simp only [fields, Field.AllAt, Field.IsAt, Field.width, Header.length, found, mk.injEq]
  constructor
  · rintro ⟨hlegal, rfl, rfl, hnumber, rfl, rfl, -⟩
    obtain ⟨hfrom, hname⟩ := hselector.mp ⟨hnumber.symm, hlegal⟩
    exact ⟨hfrom, rfl, rfl, hname, rfl, rfl⟩
  · rintro ⟨hfrom, rfl, rfl, hname, rfl, rfl⟩
    obtain ⟨hnumber, hlegal⟩ := hselector.mpr ⟨hfrom, hname⟩
    exact ⟨hlegal, rfl, rfl, hnumber.symm, rfl, rfl, trivial⟩

theorem decode_eq_ok_iff : Layout.decode format bytes = .ok sampler ↔
    (24 ≤ bytes.length ∧ format.order.u16At bytes 0 = 15 ∧ format.order.u16At bytes 2 = 24 ∧
      -3 ≤ format.order.i64At bytes 8) ∧ sampler = found format.order bytes := by
  rw [Layout.decode_eq_ok_iff_of_accepts fun _ => accepts_iff, allAt_fields_iff, widthAll_fields]
  constructor
  · rintro ⟨hlength, -, hcode, hsize, hfrom, hfound⟩
    exact ⟨⟨hlength, hcode, UInt16.toNat_inj.mp hsize, hfrom⟩, hfound⟩
  · rintro ⟨⟨hlength, hcode, hsize, hfrom⟩, hfound⟩
    exact ⟨hlength, Nat.le_refl 24, hcode, congrArg UInt16.toNat hsize, hfrom, hfound⟩

theorem encode_of_decode (h : Layout.decode format bytes = .ok sampler) :
    Layout.encode format sampler = .ok (bytes.take 24) := by
  refine Layout.encode_of_decode h fun body haccepts => ?_
  obtain ⟨rfl, hlegal⟩ := accepts_iff.mp haccepts
  exact ⟨encodeBody_of_isLegal hlegal, Field.length_encodeAll ..⟩

end Sampler

namespace CounterSnapshot

variable {order : ByteOrder} {bytes : Bytes} {offset : Nat}

/-- The snapshot of the numbers from this offset on. -/
def found (order : ByteOrder) (bytes : Bytes) (offset : Nat) : CounterSnapshot where
  sysid := order.u32At bytes offset
  sequenceFailures := order.u32At bytes (offset + 4)
  packets := order.u64At bytes (offset + 8)
  flows := order.u64At bytes (offset + 16)

theorem allAt_fields_iff {snapshot : CounterSnapshot} :
    Field.AllAt order bytes offset snapshot.fields ↔ snapshot = found order bytes offset := by
  obtain ⟨sysid, sequenceFailures, packets, flows⟩ := snapshot
  simp only [fields, Field.AllAt, Field.IsAt, Field.width, found, mk.injEq, Nat.add_assoc]
  constructor
  · rintro ⟨rfl, rfl, rfl, rfl, -⟩
    exact ⟨rfl, rfl, rfl, rfl⟩
  · rintro ⟨rfl, rfl, rfl, rfl⟩
    exact ⟨rfl, rfl, rfl, rfl, trivial⟩

/-- The first of several snapshots stands at the offset and the others behind it. -/
theorem map_found_succ (order : ByteOrder) (bytes : Bytes) (offset count : Nat) :
    ((List.range (count + 1)).map fun i => found order bytes (offset + length * i)) =
      found order bytes offset ::
        (List.range count).map fun i => found order bytes (offset + length + length * i) := by
  have hplace (i : Nat) : offset + length * (i + 1) = offset + length + length * i := by
    rw [Nat.mul_succ]
    omega
  rw [List.range_succ_eq_map, List.map_cons, List.map_map]
  simp only [hplace, Function.comp_def, Nat.mul_zero, Nat.add_zero]

theorem allAt_flatMap_iff {entries : List CounterSnapshot} :
    Field.AllAt order bytes offset (entries.flatMap fields) ↔
      entries = (List.range entries.length).map fun i =>
        found order bytes (offset + length * i) := by
  induction entries generalizing offset with
  | nil => simp [Field.AllAt]
  | cons entry entries ih =>
    have hwidth : Field.widthAll entry.fields = length := rfl
    rw [List.flatMap_cons, Field.allAt_append, allAt_fields_iff, hwidth, ih, List.length_cons,
      map_found_succ, List.cons.injEq]

section Behind

open BodyReader

variable {recordType : UInt16}

theorem read_behind (h : offset + length ≤ bytes.length) :
    read (.behind recordType order bytes offset) =
      .ok (found order bytes offset, .behind recordType order bytes (offset + length)) := by
  rw [length] at h
  rw [read, bind_of_ok (u32_behind (by omega)), bind_of_ok (u32_behind (by omega)),
    bind_of_ok (u64_behind (by omega)), bind_of_ok (u64_behind (by omega))]
  rfl

/-- Where there is room for them, snapshots are always read. -/
theorem readMany_behind {count : Nat} (h : offset + count * length ≤ bytes.length) :
    readMany count (.behind recordType order bytes offset) =
      .ok ((List.range count).map fun i => found order bytes (offset + length * i),
        .behind recordType order bytes (offset + count * length)) := by
  induction count generalizing offset with
  | zero =>
    rw [Nat.zero_mul]
    rfl
  | succ count ih =>
    have hnext : offset + length + count * length = offset + (count + 1) * length := by
      rw [Nat.succ_mul]
      omega
    rw [readMany, bind_of_ok (read_behind (by omega)), bind_of_ok (ih (hnext ▸ h)), hnext,
      map_found_succ]
    rfl

end Behind

end CounterSnapshot

namespace CounterBatch

variable {format : WireFormat} {bytes : Bytes} {batch : CounterBatch}

/-- As many snapshots as the number at offset four says, one behind the other. -/
def found (order : ByteOrder) (bytes : Bytes) : CounterBatch where
  entries := (List.range (order.u32At bytes 4).toNat).map fun i =>
    .found order bytes (8 + CounterSnapshot.length * i)

theorem length_entries_found (order : ByteOrder) (bytes : Bytes) :
    (found order bytes).entries.length = (order.u32At bytes 4).toNat := by
  rw [found, List.length_map, List.length_range]

theorem allAt_fields_iff {order : ByteOrder} :
    batch.entries.length < UInt32.size ∧ Field.AllAt order bytes Header.length batch.fields ↔
      batch = found order bytes := by
  obtain ⟨entries⟩ := batch
  rw [fields, Field.AllAt, CounterSnapshot.allAt_flatMap_iff, Field.IsAt, found, mk.injEq]
  constructor
  · rintro ⟨hlt, hcount, hentries⟩
    have hlength : (order.u32At bytes 4).toNat = entries.length :=
      (congrArg UInt32.toNat hcount).trans (toNat_count hlt)
    rwa [hlength]
  · intro hentries
    have hlength : entries.length = (order.u32At bytes 4).toNat := by
      rw [hentries, List.length_map, List.length_range]
    have hlt : entries.length < UInt32.size := hlength ▸ UInt32.toNat_lt _
    refine ⟨hlt, ?_, ?_⟩
    · exact UInt32.toNat_inj.mp (hlength.symm.trans (toNat_count hlt).symm)
    · rwa [hlength]

theorem decode_eq_ok_iff : Layout.decode format bytes = .ok batch ↔
    ((format.order.u16At bytes 2).toNat ≤ bytes.length ∧ format.order.u16At bytes 0 = 8 ∧
      (format.order.u16At bytes 2).toNat = 8 + 24 * (format.order.u32At bytes 4).toNat) ∧
      batch = found format.order bytes := by
  rw [Layout.decode_eq_ok_iff_of_accepts fun _ => accepts_iff, allAt_fields_iff, widthAll_fields]
  have hsize (count : Nat) :
      Header.length + (4 + count * CounterSnapshot.length) = 8 + 24 * count := by
    simp only [Header.length, CounterSnapshot.length]
    omega
  rw [hsize]
  constructor
  · rintro ⟨hlength, -, hcode, htotal, rfl⟩
    rw [length_entries_found] at hlength htotal
    exact ⟨⟨htotal ▸ hlength, hcode, htotal⟩, rfl⟩
  · rintro ⟨⟨hlength, hcode, htotal⟩, rfl⟩
    rw [length_entries_found]
    exact ⟨htotal ▸ hlength, Nat.le_add_right .., hcode, htotal, rfl⟩

theorem encode_of_decode (h : Layout.decode format bytes = .ok batch) :
    Layout.encode format batch = .ok (bytes.take (format.order.u16At bytes 2).toNat) := by
  obtain ⟨⟨-, -, hsize⟩, hfound⟩ := decode_eq_ok_iff.mp h
  have hlength : Layout.encodedLength batch = (format.order.u16At bytes 2).toNat := by
    rw [hsize, ← length_entries_found, ← hfound]
    simp only [Layout.encodedLength, Layout.bodyLength, Header.length, CounterSnapshot.length]
    omega
  rw [← hlength]
  refine Layout.encode_of_decode h fun body haccepts => ?_
  obtain ⟨rfl, -⟩ := accepts_iff.mp haccepts
  exact ⟨encodeBody_eq .., length_of_encodeBody (encodeBody_eq ..)⟩

end CounterBatch

namespace PackedAddress

variable {order : ByteOrder} {bytes : Bytes} {offset : Nat} {block : PackedAddress}

/-- A short address is the word at its place in the buffer. -/
theorem unpack_inet_of_place (h : (bytes.drop offset).take length = block.bytes) :
    block.unpack order .inet = .v4 (order.u32At bytes (offset + shortOffset)) := by
  simp only [unpack, ByteOrder.u32At, ByteOrder.numberAt, ← h, List.drop_take, List.drop_drop,
    List.take_take, length, shortOffset]
  rfl

/-- A long address is the two words of the block. -/
theorem unpack_inet6_of_place (h : (bytes.drop offset).take length = block.bytes) :
    block.unpack order .inet6 =
      .v6 (order.u64At bytes offset) (order.u64At bytes (offset + 8)) := by
  simp only [unpack, ByteOrder.u64At, ByteOrder.numberAt, ← h, List.drop_take, List.drop_drop,
    List.take_take, length]
  rfl

end PackedAddress

namespace Exporter

variable {format : WireFormat} {bytes : Bytes} {exporter : Exporter}

/-- The exporter of the numbers at the documented offsets. Its address is read from the place that
the family code selects. -/
def found (format : WireFormat) (bytes : Bytes) : Exporter where
  version := format.order.u32At bytes 4
  address :=
    if format.order.u16At bytes 24 = format.families.inet then
      .v4 (format.order.u32At bytes 16)
    else .v6 (format.order.u64At bytes 8) (format.order.u64At bytes 16)
  sysid := format.order.u16At bytes 26
  id := format.order.u32At bytes 28

/-- The bytes of an exporter with zeros around the place of a short address. -/
def clearPadding (span : Bytes) : Bytes :=
  span.take 8 ++ List.replicate 8 0 ++ (span.drop 16).take 4 ++ List.replicate 4 0 ++ span.drop 24

theorem allAt_fieldsWith_iff {block : PackedAddress} :
    Field.AllAt format.order bytes Header.length (exporter.fieldsWith format block) ↔
      format.order.u32At bytes 4 = exporter.version ∧
      (bytes.drop 8).take PackedAddress.length = block.bytes ∧
      format.order.u16At bytes 24 = format.families.code exporter.family ∧
      format.order.u16At bytes 26 = exporter.sysid ∧
      format.order.u32At bytes 28 = exporter.id := by
  simp only [fieldsWith, Field.AllAt, Field.IsAt, Field.width, Header.length, block.length_eq,
    PackedAddress.length, and_true]

/-- The places of the fields determine the exporter and, where they hold the code of a family, are
those of one. -/
theorem exists_block_iff (hfamilies : format.families.inet ≠ format.families.inet6)
    (hlength : 32 ≤ bytes.length) :
    (∃ block : PackedAddress, block.unpack format.order exporter.family = exporter.address ∧
      Field.AllAt format.order bytes Header.length (exporter.fieldsWith format block)) ↔
      (format.order.u16At bytes 24 = format.families.inet ∨
        format.order.u16At bytes 24 = format.families.inet6) ∧
      exporter = found format bytes := by
  obtain ⟨version, address, sysid, id⟩ := exporter
  simp only [allAt_fieldsWith_iff, found, mk.injEq, family]
  constructor
  · rintro ⟨block, hunpack, rfl, hblock, hcode, rfl, rfl⟩
    cases address with
    | v4 bits =>
      have hinet : format.order.u16At bytes 24 = format.families.inet := hcode
      refine ⟨.inl hinet, rfl, ?_, rfl, rfl⟩
      rw [if_pos hinet, ← hunpack]
      exact PackedAddress.unpack_inet_of_place hblock
    | v6 high low =>
      have hinet6 : format.order.u16At bytes 24 = format.families.inet6 := hcode
      refine ⟨.inr hinet6, rfl, ?_, rfl, rfl⟩
      rw [if_neg (hinet6 ▸ hfamilies.symm), ← hunpack]
      exact PackedAddress.unpack_inet6_of_place hblock
  · rintro ⟨hcode, rfl, haddress, rfl, rfl⟩
    -- The block is whatever stands at its place, and the code says how it is unpacked.
    let block : PackedAddress := ⟨(bytes.drop 8).take PackedAddress.length, by
      rw [List.length_take, List.length_drop, PackedAddress.length]
      omega⟩
    have hblock : (bytes.drop 8).take PackedAddress.length = block.bytes := rfl
    refine ⟨block, ?_⟩
    rcases hcode with hinet | hinet6
    · rw [if_pos hinet] at haddress
      subst haddress
      exact ⟨PackedAddress.unpack_inet_of_place hblock, rfl, hblock, hinet, rfl, rfl⟩
    · rw [if_neg (hinet6 ▸ hfamilies.symm)] at haddress
      subst haddress
      exact ⟨PackedAddress.unpack_inet6_of_place hblock, rfl, hblock, hinet6, rfl, rfl⟩

theorem decode_eq_ok_iff (hfamilies : format.families.inet ≠ format.families.inet6) :
    Layout.decode format bytes = .ok exporter ↔
      (32 ≤ bytes.length ∧ format.order.u16At bytes 0 = 7 ∧ format.order.u16At bytes 2 = 32 ∧
        (format.order.u16At bytes 24 = format.families.inet ∨
          format.order.u16At bytes 24 = format.families.inet6)) ∧
      exporter = found format bytes := by
  have hformat : format.validate = .ok () := FamilyCodes.validate_eq_ok_iff.mpr hfamilies
  rw [Layout.decode_eq_ok_iff_exists fun _ => accepts_iff]
  simp only [widthAll_fieldsWith, hformat, true_and]
  constructor
  · rintro ⟨block, hlength, -, hcode, hsize, hunpack, hplaces⟩
    obtain ⟨hfamily, hfound⟩ := (exists_block_iff hfamilies hlength).mp ⟨block, hunpack, hplaces⟩
    exact ⟨⟨hlength, hcode, UInt16.toNat_inj.mp hsize, hfamily⟩, hfound⟩
  · rintro ⟨⟨hlength, hcode, hsize, hfamily⟩, hfound⟩
    obtain ⟨block, hunpack, hplaces⟩ := (exists_block_iff hfamilies hlength).mpr ⟨hfamily, hfound⟩
    exact ⟨block, hlength, Nat.le_refl 32, hcode, congrArg UInt16.toNat hsize, hunpack, hplaces⟩

/-- Clearing the bytes of a record clears the block that stands in it. -/
theorem clearPadding_append {front rest : Bytes} (hfront : front.length = 8)
    (block : PackedAddress) : clearPadding (front ++ (block.bytes ++ rest)) =
      front ++ (block.clear.bytes ++ rest) := by
  have hbehind (n : Nat) : (front ++ (block.bytes ++ rest)).drop (8 + n) =
      (block.bytes ++ rest).drop n := by
    rw [← List.drop_drop, List.drop_left' hfront]
  have hslot : ((block.bytes ++ rest).drop 8).take 4 = (block.bytes.drop 8).take 4 := by
    simp [List.drop_append, List.take_append, block.length_eq, PackedAddress.length]
  have hrest : (block.bytes ++ rest).drop 16 = rest := List.drop_left' block.length_eq
  rw [clearPadding, List.take_left' hfront, hbehind 8, hbehind 16, hslot, hrest,
    PackedAddress.bytes_clear]
  simp only [List.append_assoc, PackedAddress.shortOffset]

/-- On a record that holds a block, clearing its bytes is clearing its frame. -/
theorem clearPadding_encode {frame : Stream.Frame} {front rest : Bytes} {block : PackedAddress}
    (hfront : front.length = Stream.Frame.addressOffset)
    (hbody : frame.body = front ++ (block.bytes ++ rest)) :
    clearPadding (frame.encode format) = frame.clear.encode format := by
  have height : (frame.header.encode format.order ++ front).length = 8 := by
    rw [List.length_append, Header.length_encode, hfront]
    rfl
  have hclear : frame.clear.body = front ++ (block.clear.bytes ++ rest) := by
    rw [← Stream.Frame.clearFrom_zero_block hfront, ← hbody]
    rfl
  rw [ForeignRecord.encode_eq_append, ForeignRecord.encode_eq_append, Stream.Frame.header_clear,
    hclear, hbody, ← List.append_assoc, clearPadding_append height, List.append_assoc]

theorem encode_of_decode (h : Layout.decode format bytes = .ok exporter) :
    Layout.encode format exporter =
      .ok (if exporter.family = .inet then clearPadding (bytes.take 32) else bytes.take 32) := by
  obtain ⟨frame, hcode, haccepts, hspan⟩ := Layout.exists_frame_of_decode h
  have hlength := (lawful.read format frame.body exporter frame.fits haccepts).2
  rw [hlength] at hspan
  have hfront : bytes.take 32 = frame.encode format := hspan
  obtain ⟨block, hbody, -⟩ := accepts_iff.mp haccepts
  obtain ⟨front, rest, haddress, hfields⟩ := encodeAll_fieldsWith format exporter
  rw [hfields] at hbody
  rw [encode_of_accepts hcode haccepts, hfront, clearPadding_encode haddress hbody]
  split <;> rfl

end Exporter

/-- A buffer holds a value of a kind exactly if it starts with the documented layout of that kind.
The value has in its fields what stands at their offsets, and it is written as the bytes that it was
read from, with zeros around a short address. -/
theorem Layout.decode_documented (format : WireFormat)
    (hfamilies : format.families.inet ≠ format.families.inet6) (bytes : Bytes) :
    (∀ e : Exporter, decode format bytes = .ok e ↔
      (32 ≤ bytes.length ∧ format.order.u16At bytes 0 = 7 ∧ format.order.u16At bytes 2 = 32 ∧
        (format.order.u16At bytes 24 = format.families.inet ∨
          format.order.u16At bytes 24 = format.families.inet6)) ∧
      e = .found format bytes) ∧
    (∀ e : Exporter, decode format bytes = .ok e → encode format e =
      .ok (if e.family = .inet then Exporter.clearPadding (bytes.take 32) else bytes.take 32)) ∧
    (∀ s : Sampler, decode format bytes = .ok s ↔
      (24 ≤ bytes.length ∧ format.order.u16At bytes 0 = 15 ∧ format.order.u16At bytes 2 = 24 ∧
        -3 ≤ format.order.i64At bytes 8) ∧
      s = .found format.order bytes) ∧
    (∀ s : Sampler, decode format bytes = .ok s → encode format s = .ok (bytes.take 24)) ∧
    (∀ batch : CounterBatch, decode format bytes = .ok batch ↔
      ((format.order.u16At bytes 2).toNat ≤ bytes.length ∧ format.order.u16At bytes 0 = 8 ∧
        (format.order.u16At bytes 2).toNat = 8 + 24 * (format.order.u32At bytes 4).toNat) ∧
      batch = .found format.order bytes) ∧
    (∀ batch : CounterBatch, decode format bytes = .ok batch →
      encode format batch = .ok (bytes.take (format.order.u16At bytes 2).toNat)) :=
  ⟨fun _ => Exporter.decode_eq_ok_iff hfamilies, fun _ => Exporter.encode_of_decode,
    fun _ => Sampler.decode_eq_ok_iff, fun _ => Sampler.encode_of_decode,
    fun _ => CounterBatch.decode_eq_ok_iff, fun _ => CounterBatch.encode_of_decode⟩

/-- A short address with unclean padding, a sampler that overwrites and a batch of one snapshot. -/
theorem Layout.decode_documented_of_buffers :
    let ones (n : Nat) : Bytes := List.replicate n 1
    let exporter : Bytes := [7, 0, 32, 0, 5, 0, 0, 0] ++ ones 8 ++ [4, 3, 2, 1] ++ ones 4 ++
      [2, 0, 6, 0, 7, 0, 0, 0]
    let sampler : Bytes := [15, 0, 24, 0, 6, 0, 2, 0, 253] ++ List.replicate 7 255 ++
      [10, 0, 0, 0, 0, 0, 0, 0]
    let counters : Bytes := [8, 0, 32, 0, 1, 0, 0, 0] ++ ones 24
    (2 : UInt16) ≠ 10 ∧
    (decode {} (exporter ++ [9]) = .ok (⟨5, .v4 0x01020304, 6, 7⟩ : Exporter) ∧
      encode {} (⟨5, .v4 0x01020304, 6, 7⟩ : Exporter) = .ok ([7, 0, 32, 0, 5, 0, 0, 0] ++
        List.replicate 8 0 ++ [4, 3, 2, 1] ++ List.replicate 4 0 ++ [2, 0, 6, 0, 7, 0, 0, 0])) ∧
    (decode {} sampler = .ok (⟨6, 2, .overwrite, 10, 0⟩ : Sampler) ∧
      encode {} (⟨6, 2, .overwrite, 10, 0⟩ : Sampler) = .ok sampler) ∧
    ∃ batch : CounterBatch, decode {} counters = .ok batch ∧ encode {} batch = .ok counters := by
  intro ones exporter sampler counters
  have hexporter := decode_documented {} (by decide) (exporter ++ [9])
  have hsampler := decode_documented {} (by decide) sampler
  have hcounters := decode_documented {} (by decide) counters
  have hreadE : decode {} (exporter ++ [9]) = .ok (⟨5, .v4 0x01020304, 6, 7⟩ : Exporter) :=
    (hexporter.1 _).mpr (by decide)
  have hreadS : decode {} sampler = .ok (⟨6, 2, .overwrite, 10, 0⟩ : Sampler) :=
    (hsampler.2.2.1 _).mpr (by decide)
  have hreadC : decode {} counters = .ok (.found .little counters : CounterBatch) :=
    (hcounters.2.2.2.2.1 _).mpr ⟨by decide, rfl⟩
  exact ⟨by decide, ⟨hreadE, hexporter.2.1 _ hreadE⟩, ⟨hreadS, hsampler.2.2.2.1 _ hreadS⟩,
    _, hreadC, hcounters.2.2.2.2.2 _ hreadC⟩

end ExporterRecords
