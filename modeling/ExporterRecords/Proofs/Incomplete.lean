import ExporterRecords.Proofs.Faults
import ExporterRecords.Proofs.Places

/-!
# Faults that ask for more

An incomplete fault asks for more input. Of an exporter or a sampler it is reported only for a
buffer that ends before the record does. Counters are different: a record that is all there is
reported as incomplete too if it announces more snapshots than its size has room for.
-/
namespace ExporterRecords

/-- The buffer ends before its record does: in the header, or before the size that it declares. -/
def Header.IsShort (order : ByteOrder) (bytes : Bytes) : Prop :=
  bytes.length < length ∨
    ∃ header, decode order bytes = .ok header ∧ bytes.length < header.size.toNat

/-- Reading a value fails with a fault that asks for more input. -/
def Layout.AsksForMore (α : Type) [Layout α] (format : WireFormat) (bytes : Bytes) : Prop :=
  ∃ fault, (decode format bytes : Except Fault α) = .error fault ∧ fault.isIncomplete = true

/-- The buffer holds the whole of a record whose size has no room for the snapshots that it
announces. -/
def CounterBatch.Overcounts (format : WireFormat) (bytes : Bytes) : Prop :=
  ∃ header, Header.decode format.order bytes = .ok header ∧
    header.recordType = Layout.code CounterBatch ∧
    Layout.minimumSize CounterBatch ≤ header.size.toNat ∧ header.size.toNat ≤ bytes.length ∧
    header.size.toNat <
      Header.length + 4 + (format.order.u32At bytes 4).toNat * CounterSnapshot.length

/-- Of the bodies that are no shorter than their kind demands, only those of counters can be too
short all the same. -/
theorem MetadataKind.BadBody.isIncomplete_eq {kind : MetadataKind} {format : WireFormat}
    {body : Bytes} {fault : Fault} (h : BadBody format body kind fault) :
    fault.isIncomplete = decide (kind = .counters) := by
  cases h with
  | table hformat =>
    obtain ⟨-, rfl⟩ := FamilyCodes.validate_eq_error_iff.mp hformat
    rfl
  | family | room | selector => rfl

/-- Where there are as many bytes as the fields take, an exporter does not ask for more. -/
theorem Exporter.isIncomplete_eq_of_read (format : WireFormat) {body : Bytes} {fault : Fault}
    (h : 28 ≤ body.length)
    (hread : read format (.ofBody (Layout.code Exporter) format.order body) = .error fault) :
    fault.isIncomplete = false :=
  (read_eq_error_iff h |>.mp hread).isIncomplete_eq

theorem Sampler.isIncomplete_eq_of_read {format : WireFormat} {body : Bytes} {fault : Fault}
    (h : 20 ≤ body.length)
    (hread : read (.ofBody (Layout.code Sampler) format.order body) = .error fault) :
    fault.isIncomplete = false :=
  (read_eq_error_iff h |>.mp hread).isIncomplete_eq

namespace Layout

variable {α : Type} [Layout α] {format : WireFormat} {bytes : Bytes}

/-- More is asked for where the buffer is cut, and where the body of a whole record is too short for
what is read of it. -/
theorem asksForMore_iff : AsksForMore α format bytes ↔ IsCut α format bytes ∨
    ∃ (frame : Stream.Frame) (rest : Bytes), bytes = frame.encode format ++ rest ∧
      frame.recordType = code α ∧ minimumSize α ≤ frame.size.toNat ∧
      ∃ fault, (readBody format : BodyReader α) (.ofBody (code α) format.order frame.body) =
        .error fault ∧ fault.isIncomplete = true := by
  constructor
  · rintro ⟨fault, hfault, hincomplete⟩
    have houtcome : Outcome format bytes (decode format bytes : Except Fault α) :=
      outcome_decode format bytes
    generalize (decode format bytes : Except Fault α) = outcome at hfault houtcome
    cases houtcome with
    | noHeader hlength => exact .inl (.inl hlength)
    | otherKind | impossible | small =>
      cases hfault
      cases hincomplete
    | cut hdecode hcode hsize hminimum hlength =>
      exact .inl (.inr ⟨_, hdecode, hcode, hsize, hminimum, hlength⟩)
    | @whole frame rest hbytes hcode hminimum =>
      refine .inr ⟨frame, rest, hbytes, hcode, hminimum, fault, ?_, hincomplete⟩
      rw [← decodeBody_eq_error_iff]
      rw [decodeFramed_frame, if_neg (Nat.not_lt.mpr hminimum)] at hfault
      split at hfault
      · cases hfault
        assumption
      · split at hfault
        · cases hfault
        · cases hfault
          cases hincomplete
  · rintro (hcut | ⟨frame, rest, hbytes, hcode, hminimum, fault, hfault, hincomplete⟩)
    · exact exists_incomplete_of_isCut hcut
    · refine ⟨fault, ?_, hincomplete⟩
      rw [(Outcome.whole hbytes hcode hminimum).decode_eq, decodeFramed_frame,
        if_neg (Nat.not_lt.mpr hminimum), decodeBody_eq_error_iff.mpr hfault]

/-- A kind of fixed size asks for more only of a buffer that is cut. -/
theorem asksForMore_iff_of_width {width : Nat}
    (hread : ∀ {body fault}, width ≤ body.length →
      (readBody format : BodyReader α) (.ofBody (code α) format.order body) = .error fault →
        fault.isIncomplete = false)
    (hwidth : Header.length + width ≤ minimumSize α) :
    AsksForMore α format bytes ↔ IsCut α format bytes := by
  rw [asksForMore_iff, or_iff_left]
  rintro ⟨frame, rest, -, -, hminimum, fault, hfault, hincomplete⟩
  rw [hread _ hfault] at hincomplete
  · cases hincomplete
  · rw [frame.toNat_size] at hminimum
    exact Nat.le_of_add_le_add_left (Nat.le_trans hwidth hminimum)

theorem IsCut.isShort (h : IsCut α format bytes) : Header.IsShort format.order bytes := by
  rcases h with hlength | ⟨header, hdecode, -, -, -, hlength⟩
  · exact .inl hlength
  · exact .inr ⟨header, hdecode, hlength⟩

end Layout

namespace CounterBatch

variable {format : WireFormat} {bytes : Bytes}

/-- A body asks for more exactly if it has no room for the snapshots that it announces. -/
theorem read_incomplete_iff {body : Bytes} (h : 4 ≤ body.length) :
    (∃ fault, read (.ofBody (Layout.code CounterBatch) format.order body) = .error fault ∧
      fault.isIncomplete = true) ↔
        body.length < 4 + (format.order.u32At body 0).toNat * CounterSnapshot.length := by
  simp only [read_eq_error_iff h]
  constructor
  · rintro ⟨fault, hbad, -⟩
    cases hbad with
    | room hroom => exact hroom
  · intro hroom
    exact ⟨_, .room hroom, rfl⟩

theorem u32At_encode_append (format : WireFormat) (frame : Stream.Frame) (rest : Bytes)
    (h : 4 ≤ frame.body.length) :
    format.order.u32At (frame.encode format ++ rest) 4 = format.order.u32At frame.body 0 := by
  have hroom : 0 + 4 ≤ frame.body.length := h
  rw [ByteOrder.u32At, ByteOrder.u32At, frame.encode_eq_append, List.append_assoc,
    ← format.order.numberAt_append hroom rest, Header.length_encode]
  rfl

/-- A frame of the size that counters have at least holds their number. -/
theorem four_le_length {frame : Stream.Frame}
    (h : Layout.minimumSize CounterBatch ≤ frame.size.toNat) : 4 ≤ frame.body.length := by
  rw [frame.toNat_size] at h
  exact Nat.le_of_add_le_add_left h

theorem overcounts_iff : Overcounts format bytes ↔
    ∃ (frame : Stream.Frame) (rest : Bytes), bytes = frame.encode format ++ rest ∧
      frame.recordType = Layout.code CounterBatch ∧
      Layout.minimumSize CounterBatch ≤ frame.size.toNat ∧
      frame.body.length < 4 + (format.order.u32At frame.body 0).toNat * CounterSnapshot.length := by
  constructor
  · rintro ⟨header, hdecode, hcode, hminimum, hlength, hover⟩
    obtain ⟨frame, rest, rfl, rfl⟩ :=
      Stream.Frame.exists_of_size_le hdecode (Nat.le_trans (by decide) hminimum) hlength
    rw [u32At_encode_append format frame rest (four_le_length hminimum)] at hover
    refine ⟨frame, rest, rfl, hcode, hminimum, ?_⟩
    change frame.size.toNat < _ at hover
    rw [frame.toNat_size] at hover
    omega
  · rintro ⟨frame, rest, rfl, hcode, hminimum, hover⟩
    refine ⟨frame.header, frame.decode_encode_append format rest, hcode, hminimum, ?_, ?_⟩
    · rw [List.length_append, frame.length_encode]
      exact Nat.le_add_right ..
    · rw [u32At_encode_append format frame rest (four_le_length hminimum)]
      change frame.size.toNat < _
      rw [frame.toNat_size]
      omega

theorem Overcounts.not_isShort (h : Overcounts format bytes) :
    ¬ Header.IsShort format.order bytes := by
  obtain ⟨header, hdecode, -, -, hlength, -⟩ := h
  rintro (hshort | ⟨other, hother, hshort⟩)
  · have := Header.length_le_of_decode hdecode
    omega
  · rw [hdecode, Except.ok.injEq] at hother
    subst hother
    omega

end CounterBatch

/-- An exporter or a sampler asks for more exactly where the buffer is cut. Counters ask for more
there and of the whole records that announce too many snapshots, and only of the latter although the
buffer is not short. -/
theorem Layout.asksForMore_where (format : WireFormat) (bytes : Bytes) :
    (AsksForMore Exporter format bytes ↔ IsCut Exporter format bytes) ∧
    (AsksForMore Sampler format bytes ↔ IsCut Sampler format bytes) ∧
    (AsksForMore CounterBatch format bytes ↔
      IsCut CounterBatch format bytes ∨ CounterBatch.Overcounts format bytes) ∧
    (AsksForMore CounterBatch format bytes ∧ ¬ Header.IsShort format.order bytes ↔
      CounterBatch.Overcounts format bytes) := by
  have hcounters : AsksForMore CounterBatch format bytes ↔
      IsCut CounterBatch format bytes ∨ CounterBatch.Overcounts format bytes := by
    rw [asksForMore_iff, CounterBatch.overcounts_iff]
    refine or_congr_right (exists_congr fun frame => exists_congr fun rest => ?_)
    refine and_congr_right fun _ => and_congr_right fun _ => and_congr_right fun hminimum => ?_
    exact CounterBatch.read_incomplete_iff (CounterBatch.four_le_length hminimum)
  refine ⟨asksForMore_iff_of_width (Exporter.isIncomplete_eq_of_read format) (Nat.le_refl 32),
    asksForMore_iff_of_width Sampler.isIncomplete_eq_of_read (Nat.le_refl 24), hcounters, ?_⟩
  constructor
  · rintro ⟨hasks, hlong⟩
    exact (hcounters.mp hasks).resolve_left fun hcut => hlong hcut.isShort
  · intro hover
    exact ⟨hcounters.mpr (.inr hover), hover.not_isShort⟩

/-- One snapshot announced in a record of eight bytes: no later input cures the fault, which is the
same as that of a record of twenty-eight bytes of which only the header is there. -/
theorem Layout.asksForMore_of_whole :
    let bytes : Bytes := [8, 0, 8, 0, 1, 0, 0, 0]
    let fault : Fault := .truncatedBody 8 28 4
    Header.decode .little bytes = .ok ⟨8, 8⟩ ∧ bytes.length = 8 ∧ fault.isIncomplete = true ∧
      (∀ more, (decode {} (bytes ++ more) : Except Fault CounterBatch) = .error fault) ∧
      (decode {} [8, 0, 28, 0] : Except Fault CounterBatch) = .error fault := by
  intro bytes fault
  have hdecode : Header.decode .little bytes = .ok ⟨8, 8⟩ := rfl
  have hcut : ¬ IsCut CounterBatch {} bytes := not_isCut_of_size_le hdecode (by decide)
  exact ⟨hdecode, rfl, rfl, decode_append_of_not_isCut hcut, rfl⟩

end ExporterRecords
