import ExporterRecords.Proofs.Stream.Verdicts

/-!
# Two ways to the same record

A caller who expects one kind reads a record by that kind; one who does not know what comes walks
over the buffer. Both look at the size of a record twice, once for the bytes that are there and once
for those that the kind demands, and in different order. Of a record that is all there they make the
same. They differ only in how they name a buffer that ends too early, and in that a walk is never
surprised by a kind.
-/
namespace ExporterRecords

namespace MetadataKind

variable {kind : MetadataKind} {format : WireFormat} {bytes : Bytes} {header : Header}

/-- Of a record of its kind that is all there, the expected kind makes the same as a reader of all
kinds. -/
theorem decode_eq_decodeFrame {frame : Stream.Frame} (hcode : frame.recordType = kind.code)
    (rest : Bytes) : kind.decode format (frame.encode format ++ rest) =
      Registry.standard.decodeFrame format frame := by
  have hlength : frame.header.size.toNat ≤ (frame.encode format).length :=
    Nat.le_of_eq (frame.length_encode format).symm
  rw [decode_of_code (frame.decode_encode_append format rest) hcode,
    decoder_append kind format hlength, Registry.standard_eq_ofKinds,
    Registry.decodeFrame_ofKinds (Registry.kindUnder?_ownCodes_iff.mpr hcode)]

/-- The first item of a walk over a buffer that starts with a whole record. -/
theorem next?_eq_decode (hdecode : Header.decode format.order bytes = .ok header)
    (hcode : header.recordType = kind.code) (hsize : Header.length ≤ header.size.toNat)
    (hlength : header.size.toNat ≤ bytes.length) :
    (Stream.Cursor.ofBytes format .standard bytes).next?.map (·.1) =
        some (kind.decode format bytes) ∧
      Registry.standard.decode format header (bytes.take header.size.toNat) =
        kind.decode format bytes := by
  obtain ⟨frame, rest, rfl, rfl⟩ := Stream.Frame.exists_of_size_le hdecode hsize hlength
  have hspan : (frame.encode format ++ rest).take frame.header.size.toNat = frame.encode format :=
    List.take_left' (frame.length_encode format)
  rw [decode_eq_decodeFrame hcode, hspan]
  constructor
  · rw [Stream.Cursor.next?_of_frame rfl rfl]
    rfl
  · rfl

/-- The first item of a walk over a buffer that ends inside its first record. -/
theorem next?_of_cut (hdecode : Header.decode format.order bytes = .ok header)
    (hsize : Header.length ≤ header.size.toNat) (hlength : bytes.length < header.size.toNat) :
    (Stream.Cursor.ofBytes format .standard bytes).next?.map (·.1) =
      some (.error (.truncatedStream header.recordType 0 header.size.toNat bytes.length)) := by
  have hne : bytes ≠ [] := by
    rintro rfl
    cases hdecode
  have hnone : Stream.Frame.cut? format bytes = none := by
    rw [Stream.Frame.cut?_eq_none_iff, hdecode]
    intro _ heq
    cases heq
    exact .inr hlength
  rw [Stream.Cursor.next?_of_tail rfl hne hnone, Option.map_some, Stream.Frame.breakage]
  simp only [Stream.Cursor.ofBytes, hdecode, Nat.not_lt.mpr hsize, ↓reduceIte]

/-- Of such a buffer the expected kind looks at the size that it demands first. -/
theorem decode_of_short (hdecode : Header.decode format.order bytes = .ok header)
    (hcode : header.recordType = kind.code) (hsize : Header.length ≤ header.size.toNat)
    (hlength : bytes.length < header.size.toNat) : kind.decode format bytes =
      .error (if header.size.toNat < kind.minimumSize then
        .invalidSize header.recordType header.size kind.minimumSize
      else .truncatedBody header.recordType header.size.toNat bytes.length) := by
  split
  · next hsmall => exact decode_of_small hdecode hcode hsize hsmall
  · next hlarge => exact decode_of_cut hdecode hcode (Nat.le_of_not_lt hlarge) hlength

end MetadataKind

namespace Stream.Cursor

theorem mem_items_ne_unexpectedKind {format : WireFormat} {bytes : Bytes} {fault : Fault}
    (h : .error fault ∈ (ofBytes format .standard bytes).items) (expected found : UInt16) :
    fault ≠ .unexpectedKind expected found := by
  obtain ⟨n, hitem⟩ := List.mem_iff_getElem?.mp h
  rintro rfl
  rcases cases_of_fault hitem with ⟨frame, -, hfault⟩ | ⟨-, -, hends⟩
  · obtain ⟨kind, -, hrefuses⟩ := Registry.standard_decodeFrame_eq_error_iff.mp hfault
    rcases hrefuses.blamesBytes_or with hbytes | hformat
    · cases hbytes
    · cases (FamilyCodes.validate_eq_error_iff.mp hformat).2
  · cases hends

end Stream.Cursor

/-- A walk and the expected kind agree on the first record of a buffer. Where it is all there, they
make the same of it; where the buffer ends inside it, each refuses it in its own words. A record of
another kind is refused by the expected one whatever its size and its body, and never by a walk. -/
theorem MetadataKind.agrees_with_walk (kind : MetadataKind) (format : WireFormat) (bytes : Bytes) :
    let cursor := Stream.Cursor.ofBytes format .standard bytes
    let first? := cursor.next?.map (·.1)
    (Header.length ≤ bytes.length → ∃ header, Header.decode format.order bytes = .ok header ∧
      (header.recordType = kind.code → Header.length ≤ header.size.toNat →
        (header.size.toNat ≤ bytes.length →
          first? = some (kind.decode format bytes) ∧
          Registry.standard.decode format header (bytes.take header.size.toNat) =
            kind.decode format bytes) ∧
        (bytes.length < header.size.toNat →
          first? = some (.error
            (.truncatedStream header.recordType 0 header.size.toNat bytes.length)) ∧
          kind.decode format bytes = .error (if header.size.toNat < kind.minimumSize then
              .invalidSize header.recordType header.size kind.minimumSize
            else .truncatedBody header.recordType header.size.toNat bytes.length)) ∧
        ∀ record, first? = some (.ok record) ↔ kind.decode format bytes = .ok record) ∧
      (header.recordType ≠ kind.code →
        kind.decode format bytes = .error (.unexpectedKind kind.code header.recordType))) ∧
    ∀ fault, .error fault ∈ cursor.items →
      ∀ expected found, fault ≠ .unexpectedKind expected found := by
  intro cursor first?
  refine ⟨fun hheader => ?_, fun fault => Stream.Cursor.mem_items_ne_unexpectedKind⟩
  cases hdecode : Header.decode format.order bytes with
  | error fault =>
    have hshort := (Header.decode_eq_error_iff.mp hdecode).1
    exact absurd hheader (Nat.not_le.mpr hshort)
  | ok header =>
    refine ⟨header, rfl, fun hcode hsize => ?_, decode_of_ne_code hdecode⟩
    have hwhole := next?_eq_decode hdecode hcode hsize
    have hcut := next?_of_cut hdecode hsize
    have hshort := decode_of_short hdecode hcode hsize
    refine ⟨hwhole, fun hlength => ⟨hcut hlength, hshort hlength⟩, fun record => ?_⟩
    rcases Nat.lt_or_ge bytes.length header.size.toNat with hlength | hlength
    · -- Neither of the two accepts a buffer that ends too early.
      simp [first?, cursor, hcut hlength, hshort hlength]
    · simp only [first?, cursor, (hwhole hlength).1, Option.some.injEq]

/-- A whole sampler with a byte behind it, of which walk, registry and expected kind make the same.
The size of an exporter that is too small to be one and not all there, and the same bytes where a
sampler is expected. -/
theorem MetadataKind.agrees_with_walk_of_cut :
    let whole : Bytes :=
      [15, 0, 24, 0, 6, 0, 2, 0, 7, 0, 0, 0, 0, 0, 0, 0, 10, 0, 0, 0, 3, 0, 0, 0, 15]
    let record : Record := .sampler ⟨6, 2, .explicit 7, 10, 3⟩
    let cut : Bytes := [7, 0, 16, 0, 1]
    (Header.length ≤ whole.length ∧ Header.decode .little whole = .ok ⟨15, 24⟩ ∧
      (Stream.Cursor.ofBytes {} .standard whole).next?.map (·.1) = some (.ok record) ∧
      Registry.standard.decode {} ⟨15, 24⟩ (whole.take 24) = .ok record ∧
      sampler.decode {} whole = .ok record) ∧
    Header.length ≤ cut.length ∧ Header.decode .little cut = .ok ⟨7, 16⟩ ∧
      (Stream.Cursor.ofBytes {} .standard cut).next?.map (·.1) =
        some (.error (.truncatedStream 7 0 16 5)) ∧
      exporter.decode {} cut = .error (.invalidSize 7 16 32) ∧
      sampler.decode {} cut = .error (.unexpectedKind 15 7) := by
  intro whole record cut
  constructor
  · have hheader : Header.length ≤ whole.length := by decide
    obtain ⟨header, hdecode, hown, -⟩ := (agrees_with_walk sampler {} whole).1 hheader
    cases hdecode
    obtain ⟨hwhole, -, -⟩ := hown rfl (by decide)
    obtain ⟨hwalk, hregistry⟩ := hwhole (by decide)
    have htyped : sampler.decode {} whole = .ok record := by decide
    exact ⟨hheader, rfl, hwalk.trans (congrArg some htyped), hregistry.trans htyped, htyped⟩
  · have hheader : Header.length ≤ cut.length := by decide
    obtain ⟨header, hdecode, hown, -⟩ := (agrees_with_walk exporter {} cut).1 hheader
    obtain ⟨other, hdecode', -, hother⟩ := (agrees_with_walk sampler {} cut).1 hheader
    cases hdecode
    cases hdecode'
    obtain ⟨-, hcut, -⟩ := hown rfl (by decide)
    obtain ⟨hwalk, htyped⟩ := hcut (by decide)
    exact ⟨hheader, rfl, hwalk, htyped, hother (by decide)⟩

end ExporterRecords
