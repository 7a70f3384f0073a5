import ExporterRecords.Proofs.Layouts
import ExporterRecords.Registry

/-!
# Records in frames

Under the standard registry a record is written as a frame that holds it, unless a reader would
take it for another one; and only such records are read. Written again in the same format, a frame
stays as it is, but for what stood around a short address.
-/
namespace ExporterRecords

namespace Registry

variable {registry : Registry} {format : WireFormat} {frame : Stream.Frame}

theorem get?_standard (code : UInt16) : standard.decoders.get? code =
    if code = RecordKind.samplerCode then some (.ofLayout Sampler .sampler)
    else if code = RecordKind.countersCode then some (.ofLayout CounterBatch .counters)
    else if code = RecordKind.exporterCode then some (.ofLayout Exporter .exporter)
    else none := by
  simp only [standard, registerLayout, register, CodeMap.get?_insert]
  rfl

theorem decodeFrame_of_get?_eq_some {decoder : Decoder}
    (h : registry.decoders.get? frame.recordType = some decoder) :
    registry.decodeFrame format frame = decoder format frame.header (frame.encode format) := by
  have hget : registry.decoders.get? frame.header.recordType = some decoder := h
  simp only [decodeFrame, decode, frame.bodyLength_header, hget, bind, Except.bind]

/-- A frame that nobody reads is carried as it is. -/
theorem decodeFrame_of_get?_eq_none (h : registry.decoders.get? frame.recordType = none) :
    registry.decodeFrame format frame = .ok (.foreign frame) := by
  have hget : registry.decoders.get? frame.header.recordType = none := h
  have hsplit : Bytes.split? frame.header.size.toNat (frame.encode format) =
      some (⟨_, frame.length_encode format⟩, []) :=
    Bytes.split?_eq_some_iff.mpr (List.append_nil _).symm
  have hbody : (frame.encode format).drop Header.length = frame.body := by
    rw [frame.encode_eq_append, List.drop_left' (Header.length_encode ..)]
  simp only [decodeFrame, decode, frame.bodyLength_header, hget, hsplit, hbody, bind, Except.bind]
  simp only [ForeignRecord.ofBody, frame.fits, ↓reduceDIte]
  rfl

end Registry

namespace Record

variable {format : WireFormat} {frame : Stream.Frame} {record : Record}

/-- The number of bytes behind the header. -/
def bodyLength : Record → Nat
  | exporter e => Layout.bodyLength e
  | counters batch => Layout.bodyLength batch
  | sampler s => Layout.bodyLength s
  | foreign record => record.body.length

/-- A record that can be written and is read as the same again: no more counters than fit, no
reserved number as a selector, and no foreign record under a code that has a layout. -/
def Writable : Record → Prop
  | exporter _ => True
  | counters batch => batch.entries.length ≤ CounterBatch.capacity
  | sampler s => s.selector.IsLegal
  | foreign record => record.recordType ≠ RecordKind.exporterCode ∧
      record.recordType ≠ RecordKind.countersCode ∧ record.recordType ≠ RecordKind.samplerCode

instance : DecidablePred Writable
  | exporter _ => .isTrue trivial
  | counters batch => inferInstanceAs (Decidable (batch.entries.length ≤ CounterBatch.capacity))
  | sampler s => inferInstanceAs (Decidable s.selector.IsLegal)
  | foreign record => inferInstanceAs (Decidable (record.recordType ≠ RecordKind.exporterCode ∧
      record.recordType ≠ RecordKind.countersCode ∧ record.recordType ≠ RecordKind.samplerCode))

/-- A frame under the code of a kind holds a value of that kind. -/
theorem decodeFrame_ofLayout_iff {α : Type} [Layout α] {wrap : α → Record}
    (hget : Registry.standard.decoders.get? (Layout.code α) = some (.ofLayout α wrap))
    (hcode : frame.recordType = Layout.code α) :
    Registry.standard.decodeFrame format frame = .ok record ↔
      ∃ a, Layout.decodeFramed format frame.header (frame.encode format) = .ok a ∧
        wrap a = record := by
  rw [← hcode] at hget
  rw [Registry.decodeFrame_of_get?_eq_some hget, Decoder.ofLayout]
  cases (Layout.decodeFramed format frame.header (frame.encode format) : Except Fault α) with
  | error fault => simp [Except.map]
  | ok a => simp [Except.map]

/-- Counters that fit are written and read back in any format. -/
theorem exists_frame_counters (format : WireFormat) {batch : CounterBatch}
    (h : batch.entries.length ≤ CounterBatch.capacity) :
    ∃ frame : Stream.Frame, (counters batch).encode format = .ok (frame.encode format) ∧
      Registry.standard.decodeFrame format frame = .ok (counters batch) := by
  obtain ⟨frame, hcode, hencode, hread⟩ := Layout.exists_frame_of_written
    (CounterBatch.lawful.minimumSize_le batch) (CounterBatch.lawful.encodedLength_le batch h)
    (CounterBatch.written_of_length_le format h)
  exact ⟨frame, hencode, (decodeFrame_ofLayout_iff rfl hcode).mpr ⟨batch, hread, rfl⟩⟩

theorem exists_frame (hformat : format.validate = .ok ()) (h : record.Writable) :
    ∃ frame : Stream.Frame, record.encode format = .ok (frame.encode format) ∧
      Registry.standard.decodeFrame format frame = .ok record := by
  cases record with
  | exporter e =>
    obtain ⟨frame, hcode, hencode, hread⟩ := Exporter.lawful.exists_frame hformat h
    exact ⟨frame, hencode, (decodeFrame_ofLayout_iff rfl hcode).mpr ⟨e, hread, rfl⟩⟩
  | counters batch => exact exists_frame_counters format h
  | sampler s =>
    obtain ⟨frame, hcode, hencode, hread⟩ := Sampler.lawful.exists_frame hformat h
    exact ⟨frame, hencode, (decodeFrame_ofLayout_iff rfl hcode).mpr ⟨s, hread, rfl⟩⟩
  | foreign r =>
    obtain ⟨hexporter, hcounters, hsampler⟩ := h
    refine ⟨r, rfl, Registry.decodeFrame_of_get?_eq_none ?_⟩
    rw [Registry.get?_standard, if_neg hsampler, if_neg hcounters, if_neg hexporter]

/-- Whatever is written is a frame, also where a reader refuses it or takes it for another one. -/
theorem exists_frame_of_encode {span : Bytes} (h : record.encode format = .ok span) :
    ∃ frame : Stream.Frame, frame.encode format = span ∧ frame.recordType = record.code ∧
      frame.body.length = record.bodyLength := by
  cases record with
  | exporter e => exact Layout.exists_frame_of_encode (fun _ => Exporter.length_of_encodeBody) h
  | counters batch =>
    exact Layout.exists_frame_of_encode (fun _ => CounterBatch.length_of_encodeBody) h
  | sampler s => exact Layout.exists_frame_of_encode (fun _ => Sampler.length_of_encodeBody) h
  | foreign r => exact ⟨r, Except.ok.inj h, rfl, rfl⟩

/-- What a frame can hold: a value of the kind whose code it has, or itself. -/
theorem cases_of_decodeFrame (h : Registry.standard.decodeFrame format frame = .ok record) :
    (∃ e, record = .exporter e ∧ frame.recordType = Layout.code Exporter ∧
      Layout.decodeFramed format frame.header (frame.encode format) = .ok e) ∨
    (∃ batch, record = .counters batch ∧ frame.recordType = Layout.code CounterBatch ∧
      Layout.decodeFramed format frame.header (frame.encode format) = .ok batch) ∨
    (∃ s, record = .sampler s ∧ frame.recordType = Layout.code Sampler ∧
      Layout.decodeFramed format frame.header (frame.encode format) = .ok s) ∨
    (record = .foreign frame ∧ (foreign frame).Writable) := by
  by_cases hexporter : frame.recordType = RecordKind.exporterCode
  · have hcode : frame.recordType = Layout.code Exporter := hexporter
    obtain ⟨e, hread, rfl⟩ := (decodeFrame_ofLayout_iff rfl hcode).mp h
    exact .inl ⟨e, rfl, hexporter, hread⟩
  · by_cases hcounters : frame.recordType = RecordKind.countersCode
    · have hcode : frame.recordType = Layout.code CounterBatch := hcounters
      obtain ⟨batch, hread, rfl⟩ := (decodeFrame_ofLayout_iff rfl hcode).mp h
      exact .inr (.inl ⟨batch, rfl, hcounters, hread⟩)
    · by_cases hsampler : frame.recordType = RecordKind.samplerCode
      · have hcode : frame.recordType = Layout.code Sampler := hsampler
        obtain ⟨s, hread, rfl⟩ := (decodeFrame_ofLayout_iff rfl hcode).mp h
        exact .inr (.inr (.inl ⟨s, rfl, hsampler, hread⟩))
      · have hget : Registry.standard.decoders.get? frame.recordType = none := by
          rw [Registry.get?_standard, if_neg hsampler, if_neg hcounters, if_neg hexporter]
        rw [Registry.decodeFrame_of_get?_eq_none hget] at h
        cases h
        exact .inr (.inr (.inr ⟨rfl, hexporter, hcounters, hsampler⟩))

/-- Whatever is read can be written, and its length depends on nothing else. -/
theorem of_decodeFrame (h : Registry.standard.decodeFrame format frame = .ok record) :
    record.Writable ∧ frame.body.length = record.bodyLength := by
  rcases cases_of_decodeFrame h with ⟨e, rfl, -, hread⟩ | ⟨batch, rfl, -, hread⟩ |
    ⟨s, rfl, -, hread⟩ | ⟨rfl, hwritable⟩
  · exact Exporter.lawful.of_decodeFramed hread
  · exact CounterBatch.lawful.of_decodeFramed hread
  · exact Sampler.lawful.of_decodeFramed hread
  · exact ⟨hwritable, rfl⟩

end Record

namespace Stream.Frame

variable {format : WireFormat} {frame : Frame}

/-- Where the packed address stands in the body of an exporter. -/
def addressOffset : Nat := 4

/-- Whether this place in the body of an exporter is one of the twelve in the packed address that a
short address leaves unused. -/
def isPadding (i : Nat) : Bool :=
  addressOffset ≤ i ∧ i < addressOffset + PackedAddress.length ∧
    ¬ (addressOffset + PackedAddress.shortOffset ≤ i ∧
      i < addressOffset + PackedAddress.shortOffset + 4)

/-- The bytes of a body from this place on, with zeros in the unused places. -/
def clearFrom (offset : Nat) (bytes : Bytes) : Bytes :=
  bytes.mapIdx fun i byte => if isPadding (i + offset) then 0 else byte

@[simp] theorem length_clearFrom (offset : Nat) (bytes : Bytes) :
    (clearFrom offset bytes).length = bytes.length := List.length_mapIdx

/-- The frame with zeros in the unused places. -/
def clear (frame : Frame) : Frame :=
  ⟨frame.recordType, clearFrom 0 frame.body, by
    rw [length_clearFrom]
    exact frame.fits⟩

@[simp] theorem header_clear (frame : Frame) : frame.clear.header = frame.header := by
  simp [clear, ForeignRecord.header, ForeignRecord.size]

/-- Whether the frame holds an exporter with a short address. -/
def isShortExporter (format : WireFormat) (frame : Frame) : Bool :=
  match Registry.standard.decodeFrame format frame with
  | .ok (.exporter e) => e.family = .inet
  | _ => false

/-- The frame without what stands around a short address. -/
def tidy (format : WireFormat) (frame : Frame) : Frame :=
  if frame.isShortExporter format then frame.clear else frame

theorem isPadding_iff {i : Nat} : isPadding i = true ↔ 4 ≤ i ∧ i < 12 ∨ 16 ≤ i ∧ i < 20 := by
  rw [isPadding, decide_eq_true_iff]
  simp only [addressOffset, PackedAddress.length, PackedAddress.shortOffset]
  omega

theorem clearFrom_append (offset : Nat) (bytes more : Bytes) :
    clearFrom offset (bytes ++ more) =
      clearFrom offset bytes ++ clearFrom (bytes.length + offset) more := by
  simp only [clearFrom, List.mapIdx_append, Nat.add_assoc]

theorem clearFrom_eq_self {offset : Nat} {bytes : Bytes} (h : offset + bytes.length ≤ 4 ∨
    12 ≤ offset ∧ offset + bytes.length ≤ 16 ∨ 20 ≤ offset) : clearFrom offset bytes = bytes := by
  apply List.ext_getElem
  · rw [length_clearFrom]
  · intro i _ hi
    have hkept : isPadding (i + offset) = false := by
      rw [← Bool.not_eq_true, isPadding_iff]
      omega
    simp only [clearFrom, List.getElem_mapIdx, hkept, Bool.false_eq_true, ↓reduceIte]

theorem clearFrom_eq_zeros {offset : Nat} {bytes : Bytes} (h : 4 ≤ offset ∧
    offset + bytes.length ≤ 12 ∨ 16 ≤ offset ∧ offset + bytes.length ≤ 20) :
    clearFrom offset bytes = List.replicate bytes.length 0 := by
  refine List.mapIdx_eq_replicate_iff.mpr fun i hi => if_pos ?_
  rw [isPadding_iff]
  omega

/-- Clearing a body that holds a block clears the block. -/
theorem clearFrom_zero_block {front rest : Bytes} (hfront : front.length = addressOffset)
    (block : PackedAddress) :
    clearFrom 0 (front ++ (block.bytes ++ rest)) = front ++ (block.clear.bytes ++ rest) := by
  have hlength := block.length_eq
  have hbefore : (block.bytes.take PackedAddress.shortOffset).length = 8 := by
    simp [hlength, PackedAddress.shortOffset, PackedAddress.length]
  have hslot : ((block.bytes.drop PackedAddress.shortOffset).take 4).length = 4 := by
    simp [hlength, PackedAddress.shortOffset, PackedAddress.length]
  have hafter : (block.bytes.drop (PackedAddress.shortOffset + 4)).length = 4 := by
    simp [hlength, PackedAddress.shortOffset, PackedAddress.length]
  rw [addressOffset] at hfront
  -- The body in five parts: before the block, its three parts, and behind it.
  conv => lhs; rw [block.bytes_eq_append]
  simp only [clearFrom_append, List.append_assoc, hfront, hbefore, hslot, hafter]
  rw [clearFrom_eq_self (.inl (by omega)), clearFrom_eq_zeros (.inl (by omega)),
    clearFrom_eq_self (.inr (.inl (by omega))), clearFrom_eq_zeros (.inr (by omega)),
    clearFrom_eq_self (.inr (.inr (by omega))), hbefore, hafter, PackedAddress.bytes_clear]
  simp only [List.append_assoc, PackedAddress.shortOffset]

/-- Whether the packed address in the frame has clean padding. -/
def HasCleanPadding (frame : Frame) : Prop :=
  ∃ block : PackedAddress,
    block.bytes = (frame.body.drop addressOffset).take PackedAddress.length ∧
      block.hasCleanPadding = true

theorem isShortExporter_iff : frame.isShortExporter format = true ↔
    ∃ e, Registry.standard.decodeFrame format frame = .ok (.exporter e) ∧ e.family = .inet := by
  unfold isShortExporter
  split
  · rename_i e hread
    simp [hread]
  · rename_i hother
    simp only [Bool.false_eq_true, false_iff]
    intro h
    obtain ⟨e, hread, -⟩ := h
    exact hother e hread

theorem tidy_of_not_exporter {record : Record}
    (h : Registry.standard.decodeFrame format frame = .ok record)
    (hother : ∀ e, record ≠ .exporter e) : frame.tidy format = frame := by
  refine if_neg fun hshort => ?_
  obtain ⟨e, hread, -⟩ := isShortExporter_iff.mp hshort
  rw [h] at hread
  exact hother e (Except.ok.inj hread)

/-- The body of a frame that holds an exporter. -/
theorem body_of_exporter {e : Exporter}
    (h : Registry.standard.decodeFrame format frame = .ok (.exporter e)) :
    frame.recordType = Layout.code Exporter ∧ Layout.Accepts format frame.body e := by
  rcases Record.cases_of_decodeFrame h with ⟨_, heq, hcode, hread⟩ | ⟨_, heq, -⟩ | ⟨_, heq, -⟩ |
    ⟨heq, -⟩
  · cases heq
    exact ⟨hcode, (Layout.decodeFramed_frame_eq_ok_iff.mp hread).2⟩
  all_goals cases heq

end Stream.Frame

namespace Exporter

variable {format : WireFormat} {body : Bytes} {exporter : Exporter}

theorem encodeAll_fieldsWith (format : WireFormat) (exporter : Exporter) :
    ∃ front rest : Bytes, front.length = Stream.Frame.addressOffset ∧
      ∀ block : PackedAddress, Field.encodeAll format.order (exporter.fieldsWith format block) =
        front ++ (block.bytes ++ rest) :=
  ⟨_, _, ByteOrder.length_encode format.order 4 exporter.version.toNat, fun _ => rfl⟩

/-- Written again, a body loses what stood around a short address and nothing else. -/
theorem encodeBody_of_accepts (h : Layout.Accepts format body exporter) :
    Layout.encodeBody format exporter =
      .ok (if exporter.family = .inet then Stream.Frame.clearFrom 0 body else body) := by
  obtain ⟨block, hbody, hformat, hunpack⟩ := accepts_iff.mp h
  obtain ⟨front, rest, hfront, hfields⟩ := encodeAll_fieldsWith format exporter
  rw [hfields] at hbody
  rw [encodeBody_of_validate hformat, fields_eq, hfields, ← hunpack, hbody]
  cases hfamily : exporter.family with
  | inet =>
    rw [if_pos rfl, PackedAddress.pack_unpack_inet, Stream.Frame.clearFrom_zero_block hfront]
  | inet6 => rw [if_neg nofun, PackedAddress.pack_unpack_inet6]

/-- An exporter that a frame holds is written as that frame, cleared if its address is short. -/
theorem encode_of_accepts {frame : Stream.Frame} (hcode : frame.recordType = Layout.code Exporter)
    (h : Layout.Accepts format frame.body exporter) : Layout.encode format exporter =
      .ok ((if exporter.family = .inet then frame.clear else frame).encode format) := by
  have hlength := (lawful.read format frame.body exporter frame.fits h).2
  have hbody := encodeBody_of_accepts h
  by_cases hfamily : exporter.family = .inet
  · rw [if_pos hfamily] at hbody ⊢
    have hcode' : frame.clear.recordType = Layout.code Exporter := hcode
    exact Layout.encode_eq_frame hcode' ((Stream.Frame.length_clearFrom ..).trans hlength) hbody
  · rw [if_neg hfamily] at hbody ⊢
    exact Layout.encode_eq_frame hcode hlength hbody

end Exporter

namespace Stream.Frame

variable {format : WireFormat} {frame : Frame} {record : Record}

/-- A record that was read from a frame is written as the same frame, tidied. -/
theorem encode_of_decodeFrame (h : Registry.standard.decodeFrame format frame = .ok record) :
    record.encode format = .ok ((frame.tidy format).encode format) := by
  have hlength := (Record.of_decodeFrame h).2
  rcases Record.cases_of_decodeFrame h with ⟨e, rfl, hcode, hread⟩ | ⟨batch, rfl, hcode, hread⟩ |
    ⟨s, rfl, hcode, hread⟩ | ⟨rfl, -⟩
  · have hshort : frame.isShortExporter format = decide (e.family = .inet) := by
      rw [isShortExporter, h]
    have hwritten :=
      Exporter.encode_of_accepts hcode (Layout.decodeFramed_frame_eq_ok_iff.mp hread).2
    rw [tidy, hshort]
    simp only [decide_eq_true_eq]
    exact hwritten
  · rw [tidy_of_not_exporter h nofun]
    obtain ⟨hbody, -⟩ :=
      CounterBatch.accepts_iff.mp (Layout.decodeFramed_frame_eq_ok_iff.mp hread).2
    exact Layout.encode_eq_frame hcode hlength
      ((CounterBatch.encodeBody_eq format batch).trans (congrArg Except.ok hbody.symm))
  · rw [tidy_of_not_exporter h nofun]
    obtain ⟨hbody, hlegal⟩ :=
      Sampler.accepts_iff.mp (Layout.decodeFramed_frame_eq_ok_iff.mp hread).2
    refine Layout.encode_eq_frame hcode hlength ?_
    rw [Sampler.encodeBody_of_isLegal hlegal, hbody]
  · rw [tidy_of_not_exporter h nofun]
    rfl

/-- Tidying leaves a frame alone unless it has a short address with unclean padding. -/
theorem tidy_eq_self_iff : frame.tidy format = frame ↔
    (frame.isShortExporter format = true → frame.HasCleanPadding) := by
  by_cases hshort : frame.isShortExporter format = true
  · obtain ⟨e, hread, -⟩ := isShortExporter_iff.mp hshort
    obtain ⟨block, hbody, -⟩ := Exporter.accepts_iff.mp (body_of_exporter hread).2
    obtain ⟨front, rest, hfront, hfields⟩ := Exporter.encodeAll_fieldsWith format e
    rw [hfields] at hbody
    have hblock : (frame.body.drop addressOffset).take PackedAddress.length = block.bytes := by
      rw [hbody, List.drop_left' hfront, List.take_left' block.length_eq]
    have hclean : frame.HasCleanPadding ↔ block.clear = block := by
      rw [HasCleanPadding, hblock, block.clear_eq_self_iff]
      constructor
      · intro h
        obtain ⟨other, hother, hclean⟩ := h
        rwa [PackedAddress.eq_iff.mpr hother] at hclean
      · intro hclean
        exact ⟨block, rfl, hclean⟩
    have hclear : frame.clear = frame ↔ clearFrom 0 frame.body = frame.body := by
      constructor
      · intro h
        exact congrArg ForeignRecord.body h
      · intro h
        simp only [clear, h]
    rw [tidy, if_pos hshort, hclear, hclean, hbody, clearFrom_zero_block hfront,
      List.append_cancel_left_eq, List.append_cancel_right_eq, PackedAddress.eq_iff]
    simp [hshort]
  · simp [tidy, hshort]

end Stream.Frame

end ExporterRecords
