import ExporterRecords.Proofs.Acceptance
import ExporterRecords.Proofs.Kinds

/-!
# Faults of a record

A record can be bad although it stands whole in its frame: it is too small for its kind, its body is
bad, or the body is longer than what is read of it. What a decoder reports then is told by the frame
and the format alone. It is a value that stands in the frame, and never the place of the record in a
stream.
-/
namespace ExporterRecords

namespace MetadataKind

/-- The number of snapshots that a body of counters announces. -/
def announced (format : WireFormat) (body : Bytes) : Nat := (format.order.u32At body 0).toNat

/-- How many bytes the layout of a kind takes of a body. -/
def bodyLength (format : WireFormat) (body : Bytes) : MetadataKind → Nat
  | exporter => 28
  | counters => 4 + announced format body * CounterSnapshot.length
  | sampler => 20

/-- What can be wrong with a body that is no shorter than its kind demands. Counters that run out of
bytes are reported under the code of their kind, whatever the header of the record says. -/
inductive BadBody (format : WireFormat) (body : Bytes) : MetadataKind → Fault → Prop
  | table {fault : Fault} (hformat : format.validate = .error fault) :
    BadBody format body .exporter fault
  | family (hformat : format.validate = .ok ())
    (hinet : format.order.u16At body 20 ≠ format.families.inet)
    (hinet6 : format.order.u16At body 20 ≠ format.families.inet6) :
    BadBody format body .exporter (.invalidFamily (format.order.u16At body 20))
  | room (hroom : body.length < bodyLength format body .counters) :
    BadBody format body .counters
      (.truncatedBody (code .counters) (bodyLength format body .counters) body.length)
  | selector (hid : format.order.i64At body 4 < Sampler.Selector.overwriteId) :
    BadBody format body .sampler (.invalidSelector (format.order.i64At body 4))

/-- Why a decoder refuses a frame, in the order in which it looks at it. -/
inductive Refuses (format : WireFormat) (frame : Stream.Frame) (kind : MetadataKind) : Fault → Prop
  | small (hsize : frame.size.toNat < kind.minimumSize) :
    Refuses format frame kind
      (.invalidSize frame.recordType frame.size kind.minimumSize)
  | body {fault : Fault} (hminimum : kind.minimumSize ≤ frame.size.toNat)
    (hbad : BadBody format frame.body kind fault) : Refuses format frame kind fault
  | long (hminimum : kind.minimumSize ≤ frame.size.toNat)
    (hgood : ∀ fault, ¬ BadBody format frame.body kind fault)
    (hlong : Header.length + bodyLength format frame.body kind < frame.size.toNat) :
    Refuses format frame kind (.sizeMismatch frame.recordType frame.size.toNat
      (Header.length + bodyLength format frame.body kind))

end MetadataKind

open BodyReader

variable {format : WireFormat} {recordType : UInt16} {body : Bytes} {fault : Fault}

/-- The fields are all there, so only the table of families and the code can be wrong. -/
theorem Exporter.read_eq_error_iff (h : 28 ≤ body.length) :
    read format (.ofBody recordType format.order body) = .error fault ↔
      MetadataKind.BadBody format body .exporter fault := by
  cases hformat : format.validate with
  | error other =>
    have hread : read format (.ofBody recordType format.order body) = .error other :=
      bind_eq_error_iff.mpr (.inl (lift_eq_error_iff.mpr hformat))
    rw [hread, Except.error.injEq]
    constructor
    · rintro rfl
      exact .table hformat
    · rintro (hother | ⟨hok, -, -⟩)
      · rw [hformat, Except.error.injEq] at hother
        exact hother
      · rw [hformat] at hok
        cases hok
  | ok =>
    have hblock : ∃ block, raw PackedAddress.length (.behind recordType format.order body 4) =
        .ok (block, .behind recordType format.order body 20) :=
      raw_behind (Nat.le_trans (by decide) h)
    obtain ⟨block, hblock⟩ := hblock
    rw [read, bind_of_ok (lift_eq_ok_iff.mpr ⟨hformat, rfl⟩), ← BodyInput.behind_zero,
      bind_of_ok (u32_behind (by omega)), bind_of_ok hblock, bind_of_ok (u16_behind (by omega)),
      bind_of_ok (u16_behind (by omega)), bind_of_ok (u32_behind (by omega)), bind_eq_error_iff,
      lift_eq_error_iff, PackedAddress.decode_eq_error_iff, FamilyCodes.family_eq_error_iff]
    constructor
    · rintro (⟨⟨hinet, hinet6⟩, rfl⟩ | ⟨_, _, -, hpure⟩)
      · exact .family hformat hinet hinet6
      · cases hpure
    · rintro (hother | ⟨-, hinet, hinet6⟩)
      · rw [hformat] at hother
        cases hother
      · exact .inl ⟨⟨hinet, hinet6⟩, rfl⟩

/-- The fields are all there, so only the selector can be wrong. -/
theorem Sampler.read_eq_error_iff (h : 20 ≤ body.length) :
    read (.ofBody recordType format.order body) = .error fault ↔
      MetadataKind.BadBody format body .sampler fault := by
  rw [read, ← BodyInput.behind_zero, bind_of_ok (u16_behind (by omega)),
    bind_of_ok (u16_behind (by omega)), bind_of_ok (i64_behind (by omega)), bind_eq_error_iff,
    lift_eq_error_iff, Selector.ofInt64_eq]
  constructor
  · rintro (hselector | ⟨_, _, hselector, hrest⟩)
    · split at hselector
      · cases hselector
      · cases hselector
        exact .selector (Int64.not_le.mp ‹_›)
    · obtain ⟨-, rfl⟩ := lift_eq_ok_iff.mp hselector
      rw [bind_of_ok (u32_behind (by omega)), bind_of_ok (u32_behind (by omega))] at hrest
      cases hrest
  · intro hbad
    cases hbad with
    | selector hid => exact .inl (if_neg (Int64.not_le.mpr hid))

/-- The bytes that are missing behind a count. No count is too large for the lengths that are
reported. -/
theorem CounterBatch.shortage_behind_count (h : 4 ≤ body.length) (order : ByteOrder)
    (count : UInt32) :
    (BodyInput.behind recordType order body 4).shortage (count.toNat * CounterSnapshot.length) =
      .truncatedBody recordType (4 + count.toNat * CounterSnapshot.length) body.length := by
  have hlargest : 4 + count.toNat * CounterSnapshot.length ≤ BodyInput.largestLength := by
    have hcount : count.toNat < 4294967296 := count.toNat_lt
    have hvalue : BodyInput.largestLength = 18446744073709551615 := rfl
    rw [CounterSnapshot.length, hvalue]
    omega
  rw [BodyInput.shortage, BodyInput.behind, Nat.min_eq_left hlargest, List.length_drop,
    Nat.add_sub_cancel' h]

/-- Their number is there, so only the room for the snapshots can be missing. -/
theorem CounterBatch.read_eq_error_iff (h : 4 ≤ body.length) :
    read (.ofBody (Layout.code CounterBatch) format.order body) = .error fault ↔
      MetadataKind.BadBody format body .counters fault := by
  have hshort : (BodyInput.behind (Layout.code CounterBatch) format.order body 4).rest.length <
      (format.order.u32At body 0).toNat * CounterSnapshot.length ↔
      body.length < MetadataKind.bodyLength format body .counters := by
    rw [MetadataKind.bodyLength, MetadataKind.announced, BodyInput.behind, List.length_drop]
    omega
  rw [read, ← BodyInput.behind_zero, bind_of_ok (u32_behind (by omega)), bind_eq_error_iff,
    require_eq_error_iff, hshort, shortage_behind_count h]
  constructor
  · rintro (⟨hroom, rfl⟩ | ⟨_, _, hrequire, hrest⟩)
    · exact .room hroom
    · obtain ⟨hroom, rfl⟩ := require_eq_ok_iff.mp hrequire
      have hlength : 4 + (format.order.u32At body 0).toNat * CounterSnapshot.length ≤
          body.length := Nat.le_of_not_lt (mt hshort.mpr (Nat.not_lt.mpr hroom))
      rw [bind_of_ok (CounterSnapshot.readMany_behind hlength)] at hrest
      cases hrest
  · intro hbad
    cases hbad with
    | room hroom => exact .inl ⟨hroom, rfl⟩

/-- The number of snapshots that were read is the one announced. -/
theorem CounterBatch.announced_of_read {batch : CounterBatch} {out : BodyInput}
    (h : read (.ofBody recordType format.order body) = .ok (batch, out)) :
    MetadataKind.announced format body = batch.entries.length := by
  obtain ⟨htakes, hlt⟩ := read_eq_ok_iff.mp h
  obtain ⟨mid, hcount, -⟩ := BodyInput.takes_cons.mp htakes
  have hlength := hcount.consumed_ofBody.2
  have hread := u32_eq_ok_iff.mpr hcount
  rw [← BodyInput.behind_zero, u32_behind hlength, Except.ok.injEq, Prod.mk.injEq] at hread
  rw [MetadataKind.announced, hread.1, toNat_count hlt]

namespace MetadataKind

variable {frame : Stream.Frame} {kind : MetadataKind}

/-- The layout of a type reads the bodies of a kind: those that are long enough fail in the ways
told above, and of the others as many bytes are taken. -/
structure Describes (kind : MetadataKind) (α : Type) [Layout α] : Prop where
  code_eq : Layout.code α = kind.code
  minimumSize_eq : Layout.minimumSize α = kind.minimumSize
  read_eq_error_iff : ∀ {format : WireFormat} {body : Bytes} {fault : Fault},
    kind.minimumSize ≤ Header.length + body.length →
      ((Layout.readBody format : BodyReader α) (.ofBody (Layout.code α) format.order body) =
        .error fault ↔ BadBody format body kind fault)
  consumed_eq : ∀ {format : WireFormat} {body : Bytes} {a : α} {out : BodyInput},
    Layout.readBody format (.ofBody (Layout.code α) format.order body) = .ok (a, out) →
      out.consumed = bodyLength format body kind ∧ bodyLength format body kind ≤ body.length

theorem describes_exporter : Describes .exporter Exporter where
  code_eq := rfl
  minimumSize_eq := rfl
  read_eq_error_iff h := Exporter.read_eq_error_iff (Nat.le_of_add_le_add_left h)
  consumed_eq h := by
    obtain ⟨block, htakes, -⟩ := Exporter.read_eq_ok_iff.mp h
    have hconsumed := htakes.consumed_ofBody
    rwa [Exporter.widthAll_fieldsWith] at hconsumed

theorem describes_counters : Describes .counters CounterBatch where
  code_eq := rfl
  minimumSize_eq := rfl
  read_eq_error_iff h := CounterBatch.read_eq_error_iff (Nat.le_of_add_le_add_left h)
  consumed_eq h := by
    have hconsumed := (CounterBatch.read_eq_ok_iff.mp h).1.consumed_ofBody
    rwa [CounterBatch.widthAll_fields, ← CounterBatch.announced_of_read h] at hconsumed

theorem describes_sampler : Describes .sampler Sampler where
  code_eq := rfl
  minimumSize_eq := rfl
  read_eq_error_iff h := Sampler.read_eq_error_iff (Nat.le_of_add_le_add_left h)
  consumed_eq h := (Sampler.read_eq_ok_iff.mp h).1.consumed_ofBody

namespace Describes

variable {α : Type} [Layout α]

theorem refuses_of_decodeFramed (h : kind.Describes α)
    (hdecode : (Layout.decodeFramed format frame.header (frame.encode format) : Except Fault α) =
      .error fault) : kind.Refuses format frame fault := by
  rw [Layout.decodeFramed_frame, h.minimumSize_eq] at hdecode
  split at hdecode
  · next hsmall =>
    cases hdecode
    exact .small hsmall
  next hlarge =>
  have hminimum := Nat.le_of_not_lt hlarge
  have hread {other : Fault} := @h.read_eq_error_iff format frame.body other
    (frame.toNat_size ▸ hminimum)
  cases hbody : (Layout.decodeBody format frame.body : Except Fault (α × Nat)) with
  | error other =>
    rw [hbody] at hdecode
    cases hdecode
    exact .body hminimum (hread.mp (Layout.decodeBody_eq_error_iff.mp hbody))
  | ok taken =>
    obtain ⟨a, consumed⟩ := taken
    obtain ⟨out, hok, rfl⟩ := Layout.decodeBody_eq_ok_iff.mp hbody
    obtain ⟨hconsumed, hwithin⟩ := h.consumed_eq hok
    simp only [hbody] at hdecode
    split at hdecode
    · cases hdecode
    · next hrest =>
      cases hdecode
      rw [hconsumed] at hrest ⊢
      refine .long hminimum ?_ ?_
      · intro other hbad
        have hother := hread.mpr hbad
        rw [hok] at hother
        cases hother
      · rw [frame.toNat_size]
        omega

theorem decodeFramed_of_refuses (h : kind.Describes α)
    (hrefuses : kind.Refuses format frame fault) :
    (Layout.decodeFramed format frame.header (frame.encode format) : Except Fault α) =
      .error fault := by
  rw [Layout.decodeFramed_frame, h.minimumSize_eq]
  cases hrefuses with
  | small hsize => rw [if_pos hsize]
  | body hminimum hbad =>
    have hread := (h.read_eq_error_iff (frame.toNat_size ▸ hminimum)).mpr hbad
    rw [if_neg (Nat.not_lt.mpr hminimum), Layout.decodeBody_eq_error_iff.mpr hread]
  | long hminimum hgood hlong =>
    rw [if_neg (Nat.not_lt.mpr hminimum)]
    cases hbody : (Layout.decodeBody format frame.body : Except Fault (α × Nat)) with
    | error other =>
      have hother := Layout.decodeBody_eq_error_iff.mp hbody
      exact absurd ((h.read_eq_error_iff (frame.toNat_size ▸ hminimum)).mp hother) (hgood other)
    | ok taken =>
      obtain ⟨a, consumed⟩ := taken
      obtain ⟨out, hok, rfl⟩ := Layout.decodeBody_eq_ok_iff.mp hbody
      rw [frame.toNat_size] at hlong
      simp only [(h.consumed_eq hok).1, if_neg (Nat.ne_of_lt (Nat.lt_of_add_lt_add_left hlong))]

end Describes

/-- What the decoder of a kind reports of a frame is exactly why it refuses the frame. -/
theorem decoder_eq_error_iff :
    kind.decoder format frame.header (frame.encode format) = .error fault ↔
      kind.Refuses format frame fault := by
  cases kind with
  | exporter =>
    exact Decoder.ofLayout_eq_error_iff.trans
      ⟨describes_exporter.refuses_of_decodeFramed, describes_exporter.decodeFramed_of_refuses⟩
  | counters =>
    exact Decoder.ofLayout_eq_error_iff.trans
      ⟨describes_counters.refuses_of_decodeFramed, describes_counters.decodeFramed_of_refuses⟩
  | sampler =>
    exact Decoder.ofLayout_eq_error_iff.trans
      ⟨describes_sampler.refuses_of_decodeFramed, describes_sampler.decodeFramed_of_refuses⟩

end MetadataKind

/-- A registry of kinds finds fault with the frames that the kinds under their codes refuse. -/
theorem Registry.decodeFrame_eq_error_iff {registrations : List (UInt16 × MetadataKind)}
    {frame : Stream.Frame} : (ofKinds registrations).decodeFrame format frame = .error fault ↔
      ∃ kind, kindUnder? registrations frame.recordType = some kind ∧
        kind.Refuses format frame fault := by
  constructor
  · intro h
    obtain ⟨kind, hkind, hdecode⟩ := exists_kind_of_decodeFrame h
    exact ⟨kind, hkind, MetadataKind.decoder_eq_error_iff.mp hdecode⟩
  · rintro ⟨kind, hkind, hrefuses⟩
    rw [decodeFrame_ofKinds hkind]
    exact MetadataKind.decoder_eq_error_iff.mpr hrefuses

theorem Registry.standard_decodeFrame_eq_error_iff {frame : Stream.Frame} :
    standard.decodeFrame format frame = .error fault ↔
      ∃ kind : MetadataKind, frame.recordType = kind.code ∧ kind.Refuses format frame fault := by
  rw [standard_eq_ofKinds, decodeFrame_eq_error_iff]
  simp only [kindUnder?_ownCodes_iff]

end ExporterRecords
