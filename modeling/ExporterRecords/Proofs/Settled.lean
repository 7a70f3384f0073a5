import ExporterRecords.Proofs.Layouts

/-!
# Settled outcomes

Reading a value of one kind from the front of a buffer ends in one of six ways. Two of them say that
the buffer ends before its record does. The others are settled: none of them looks behind the
record, so whatever arrives later changes nothing.
-/
namespace ExporterRecords

/-- A buffer that holds as many bytes as its header declares starts with a frame. -/
theorem Stream.Frame.exists_of_size_le {format : WireFormat} {bytes : Bytes} {header : Header}
    (hdecode : Header.decode format.order bytes = .ok header)
    (hsize : Header.length ≤ header.size.toNat) (hlength : header.size.toNat ≤ bytes.length) :
    ∃ (frame : Frame) (rest : Bytes), frame.header = header ∧
      bytes = frame.encode format ++ rest := by
  cases hcut : cut? format bytes with
  | none =>
    rcases cut?_eq_none_iff.mp hcut header hdecode with hlt | hlt
    · exact absurd hsize (Nat.not_le.mpr hlt)
    · exact absurd hlength (Nat.not_le.mpr hlt)
  | some parts =>
    obtain ⟨frame, rest⟩ := parts
    have hbytes := cut?_eq_some_iff.mp hcut
    refine ⟨frame, rest, ?_, hbytes⟩
    rwa [hbytes, ForeignRecord.decode_encode_append, Except.ok.injEq] at hdecode

namespace Layout

variable {α : Type} [Layout α] {format : WireFormat} {bytes : Bytes} {outcome : Except Fault α}

/-- The buffer ends before its record does: in the header, or behind a header of this kind that
declares a possible size. -/
def IsCut (α : Type) [Layout α] (format : WireFormat) (bytes : Bytes) : Prop :=
  bytes.length < Header.length ∨
    ∃ header, Header.decode format.order bytes = .ok header ∧ header.recordType = code α ∧
      Header.length ≤ header.size.toNat ∧ minimumSize α ≤ header.size.toNat ∧
      bytes.length < header.size.toNat

/-- How reading a value ends, in the order in which the ways to end are tried. -/
inductive Outcome (format : WireFormat) (bytes : Bytes) : Except Fault α → Prop
  | noHeader (hlength : bytes.length < Header.length) :
    Outcome format bytes (.error (.truncatedHeader bytes.length))
  | otherKind {header : Header} (hdecode : Header.decode format.order bytes = .ok header)
    (hcode : header.recordType ≠ code α) :
    Outcome format bytes (.error (.unexpectedKind (code α) header.recordType))
  | impossible {header : Header} (hdecode : Header.decode format.order bytes = .ok header)
    (hcode : header.recordType = code α) (hsize : header.size.toNat < Header.length) :
    Outcome format bytes (.error (.invalidSize header.recordType header.size Header.length))
  | small {header : Header} (hdecode : Header.decode format.order bytes = .ok header)
    (hcode : header.recordType = code α) (hsize : Header.length ≤ header.size.toNat)
    (hminimum : header.size.toNat < minimumSize α) :
    Outcome format bytes (.error (.invalidSize header.recordType header.size (minimumSize α)))
  | cut {header : Header} (hdecode : Header.decode format.order bytes = .ok header)
    (hcode : header.recordType = code α) (hsize : Header.length ≤ header.size.toNat)
    (hminimum : minimumSize α ≤ header.size.toNat) (hlength : bytes.length < header.size.toNat) :
    Outcome format bytes
      (.error (.truncatedBody header.recordType header.size.toNat bytes.length))
  | whole {frame : Stream.Frame} {rest : Bytes} (hbytes : bytes = frame.encode format ++ rest)
    (hcode : frame.recordType = code α) (hminimum : minimumSize α ≤ frame.size.toNat) :
    Outcome format bytes (decodeFramed format frame.header (frame.encode format))

theorem decode_of_header {header : Header} (hdecode : Header.decode format.order bytes = .ok header)
    (hcode : header.recordType = code α) :
    (decode format bytes : Except Fault α) = decodeFramed format header bytes := by
  simp only [decode, hdecode, hcode, bind, Except.bind, ↓reduceIte]

/-- What stands behind the size of a header is not looked at. -/
theorem decodeFramed_append (format : WireFormat) {header : Header}
    (hlength : header.size.toNat ≤ bytes.length) (more : Bytes) :
    (decodeFramed format header (bytes ++ more) : Except Fault α) =
      decodeFramed format header bytes := by
  cases hsplit : bytes.split? header.size.toNat with
  | none => exact absurd (Bytes.split?_eq_none_iff.mp hsplit) (Nat.not_lt.mpr hlength)
  | some parts =>
    obtain ⟨front, rest⟩ := parts
    have hmore : (bytes ++ more).split? header.size.toNat = some (front, rest ++ more) := by
      rw [Bytes.split?_eq_some_iff] at hsplit ⊢
      rw [hsplit, List.append_assoc]
    unfold decodeFramed
    simp only [hsplit, hmore]

theorem Outcome.decode_eq (h : Outcome format bytes outcome) : decode format bytes = outcome := by
  cases h with
  | noHeader hlength =>
    simp only [decode, Header.decode_eq_error_iff.mpr ⟨hlength, rfl⟩, bind, Except.bind]
  | otherKind hdecode hcode =>
    simp only [decode, hdecode, hcode, bind, Except.bind, ↓reduceIte]
    rfl
  | impossible hdecode hcode hsize =>
    rw [decode_of_header hdecode hcode]
    simp only [decodeFramed, Header.bodyLength, hsize, bind, Except.bind, ↓reduceIte]
  | small hdecode hcode hsize hminimum =>
    rw [decode_of_header hdecode hcode]
    simp only [decodeFramed, Header.bodyLength, Nat.not_lt.mpr hsize, hminimum, bind, Except.bind,
      ↓reduceIte]
    rfl
  | cut hdecode hcode hsize hminimum hlength =>
    rw [decode_of_header hdecode hcode]
    simp only [decodeFramed, Header.bodyLength, Nat.not_lt.mpr hsize, Nat.not_lt.mpr hminimum,
      Bytes.split?_eq_none_iff.mpr hlength, bind, Except.bind, ↓reduceIte]
    rfl
  | whole hbytes hcode hminimum =>
    subst hbytes
    rw [decode_of_header (ForeignRecord.decode_encode_append ..) hcode]
    exact decodeFramed_append format (Nat.le_of_eq (ForeignRecord.length_encode ..).symm) _

theorem exists_outcome (format : WireFormat) (bytes : Bytes) :
    ∃ outcome : Except Fault α, Outcome format bytes outcome := by
  cases hdecode : Header.decode format.order bytes with
  | error fault => exact ⟨_, .noHeader (Header.decode_eq_error_iff.mp hdecode).1⟩
  | ok header =>
    by_cases hcode : header.recordType = code α
    · rcases Nat.lt_or_ge header.size.toNat Header.length with hsize | hsize
      · exact ⟨_, .impossible hdecode hcode hsize⟩
      rcases Nat.lt_or_ge header.size.toNat (minimumSize α) with hminimum | hminimum
      · exact ⟨_, .small hdecode hcode hsize hminimum⟩
      rcases Nat.lt_or_ge bytes.length header.size.toNat with hlength | hlength
      · exact ⟨_, .cut hdecode hcode hsize hminimum hlength⟩
      obtain ⟨frame, rest, rfl, hbytes⟩ := Stream.Frame.exists_of_size_le hdecode hsize hlength
      exact ⟨_, .whole hbytes hcode hminimum⟩
    · exact ⟨_, .otherKind hdecode hcode⟩

theorem outcome_iff : Outcome format bytes outcome ↔ decode format bytes = outcome := by
  constructor
  · exact Outcome.decode_eq
  · rintro rfl
    obtain ⟨outcome, h⟩ : ∃ outcome : Except Fault α, Outcome format bytes outcome :=
      exists_outcome format bytes
    rwa [h.decode_eq]

theorem outcome_decode (format : WireFormat) (bytes : Bytes) :
    Outcome format bytes (decode format bytes : Except Fault α) :=
  outcome_iff.mpr rfl

/-- A value is read exactly from a buffer that starts with a frame of its kind that holds it. -/
theorem decode_eq_ok_iff {a : α} : decode format bytes = .ok a ↔
    ∃ (frame : Stream.Frame) (rest : Bytes), bytes = frame.encode format ++ rest ∧
      frame.recordType = code α ∧
      decodeFramed format frame.header (frame.encode format) = .ok a := by
  constructor
  · intro hread
    have houtcome : Outcome format bytes (decode format bytes : Except Fault α) :=
      outcome_decode format bytes
    generalize (decode format bytes : Except Fault α) = outcome at hread houtcome
    cases houtcome with
    | noHeader | otherKind | impossible | small | cut => cases hread
    | whole hbytes hcode => exact ⟨_, _, hbytes, hcode, hread⟩
  · rintro ⟨frame, rest, hbytes, hcode, hread⟩
    rw [← hread]
    exact (Outcome.whole hbytes hcode (decodeFramed_frame_eq_ok_iff.mp hread).1).decode_eq

/-- Where the record is all there, later bytes leave the outcome alone. -/
theorem Outcome.append (h : Outcome format bytes outcome) (hcut : ¬ IsCut α format bytes)
    (more : Bytes) : Outcome format (bytes ++ more) outcome := by
  cases h with
  | noHeader hlength => exact absurd (.inl hlength) hcut
  | otherKind hdecode hcode => exact .otherKind (Header.decode_append hdecode more) hcode
  | impossible hdecode hcode hsize =>
    exact .impossible (Header.decode_append hdecode more) hcode hsize
  | small hdecode hcode hsize hminimum =>
    exact .small (Header.decode_append hdecode more) hcode hsize hminimum
  | cut hdecode hcode hsize hminimum hlength =>
    exact absurd (.inr ⟨_, hdecode, hcode, hsize, hminimum, hlength⟩) hcut
  | whole hbytes hcode hminimum =>
    exact .whole (by rw [hbytes, List.append_assoc]) hcode hminimum

theorem decode_append_of_not_isCut (hcut : ¬ IsCut α format bytes) (more : Bytes) :
    (decode format (bytes ++ more) : Except Fault α) = decode format bytes :=
  ((outcome_decode format bytes).append hcut more).decode_eq

/-- A buffer that ends too early is never read, and its fault says so. -/
theorem exists_incomplete_of_isCut (h : IsCut α format bytes) :
    ∃ fault, (decode format bytes : Except Fault α) = .error fault ∧ fault.isIncomplete = true := by
  rcases h with hlength | ⟨header, hdecode, hcode, hsize, hminimum, hlength⟩
  · exact ⟨_, (Outcome.noHeader hlength).decode_eq, rfl⟩
  · exact ⟨_, (Outcome.cut hdecode hcode hsize hminimum hlength).decode_eq, rfl⟩

/-- A buffer that holds as many bytes as its header declares is not cut. -/
theorem not_isCut_of_size_le {header : Header}
    (hdecode : Header.decode format.order bytes = .ok header)
    (hlength : header.size.toNat ≤ bytes.length) : ¬ IsCut α format bytes := by
  rintro (hshort | ⟨other, hother, -, -, -, hshort⟩)
  · have := Header.length_le_of_decode hdecode
    omega
  · rw [hdecode, Except.ok.injEq] at hother
    subst hother
    omega

/-- An outcome that does not ask for more input is kept whatever input follows, and a record that is
all there is read from its own bytes alone. -/
theorem decode_settled (α : Type) [Layout α] (format : WireFormat) (bytes more : Bytes) :
    (∀ a : α, decode format bytes = .ok a → decode format (bytes ++ more) = .ok a) ∧
    (∀ fault, (decode format bytes : Except Fault α) = .error fault → fault.isIncomplete = false →
      (decode format (bytes ++ more) : Except Fault α) = .error fault) ∧
    (∀ header, Header.decode format.order bytes = .ok header →
      Header.length ≤ header.size.toNat → header.size.toNat ≤ bytes.length →
      (decode format bytes : Except Fault α) =
        decode format (bytes.take header.size.toNat)) := by
  refine ⟨?_, ?_, ?_⟩
  · intro a hread
    rw [decode_append_of_not_isCut ?_ more, hread]
    -- A cut buffer is never read.
    intro hcut
    obtain ⟨fault, hfault, -⟩ := exists_incomplete_of_isCut hcut
    rw [hread] at hfault
    cases hfault
  · intro fault hread hsettled
    rw [decode_append_of_not_isCut ?_ more, hread]
    -- A cut buffer is reported as incomplete.
    intro hcut
    obtain ⟨other, hother, hincomplete⟩ := exists_incomplete_of_isCut hcut
    rw [hread] at hother
    cases hother
    rw [hsettled] at hincomplete
    cases hincomplete
  · intro header hdecode hsize hlength
    have hfront := (Header.decode_take_iff hsize).mpr hdecode
    have hcut : ¬ IsCut α format (bytes.take header.size.toNat) := by
      apply not_isCut_of_size_le hfront
      rw [List.length_take]
      omega
    calc (decode format bytes : Except Fault α)
      _ = decode format (bytes.take header.size.toNat ++ bytes.drop header.size.toNat) := by
        rw [List.take_append_drop]
      _ = decode format (bytes.take header.size.toNat) := decode_append_of_not_isCut hcut _

/-- A batch without snapshots and a record with bytes to spare, each followed by more input. -/
theorem decode_settled_of_padded :
    let empty : Bytes := [8, 0, 8, 0, 0, 0, 0, 0]
    let span : Bytes := [8, 0, 36, 0, 1, 0, 0, 0] ++ List.replicate 28 0
    let fault : Fault := .sizeMismatch 8 36 32
    (decode {} empty : Except Fault CounterBatch) = .ok ⟨[]⟩ ∧
      (decode {} (empty ++ [7, 0]) : Except Fault CounterBatch) = .ok ⟨[]⟩ ∧
      (decode {} span : Except Fault CounterBatch) = .error fault ∧ fault.isIncomplete = false ∧
      (decode {} (span ++ [7, 0]) : Except Fault CounterBatch) = .error fault ∧
      Header.decode .little (span ++ [7, 0]) = .ok ⟨8, 36⟩ ∧
      (decode {} (span ++ [7, 0]) : Except Fault CounterBatch) = decode {} span :=
  ⟨rfl, (decode_settled CounterBatch {} _ [7, 0]).1 _ rfl, rfl, rfl,
    (decode_settled CounterBatch {} _ [7, 0]).2.1 _ rfl rfl, rfl,
    (decode_settled CounterBatch {} _ []).2.2 ⟨8, 36⟩ rfl (by decide) (by decide)⟩

end Layout

end ExporterRecords
