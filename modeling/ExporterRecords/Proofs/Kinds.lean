import ExporterRecords.Proofs.Records
import ExporterRecords.Proofs.Settled

/-!
# The metadata kinds

A record of a metadata kind is read in two ways: on its own, by a caller who expects the kind at the
front of a buffer, and by the decoder of the kind, which a registry holds under some code. The
standard registry holds each decoder under the code of its kind; another one may hold them under any
codes. The decoder takes the word of the registry for the kind, so it never looks at the code.
-/
namespace ExporterRecords

theorem Decoder.ofLayout_eq_error_iff {α : Type} [Layout α] {wrap : α → Record}
    {format : WireFormat} {header : Header} {span : Bytes} {fault : Fault} :
    Decoder.ofLayout α wrap format header span = .error fault ↔
      (Layout.decodeFramed format header span : Except Fault α) = .error fault := by
  unfold ofLayout
  cases (Layout.decodeFramed format header span : Except Fault α) <;> simp [Except.map]

/-- The kinds of records that have a layout. -/
inductive MetadataKind where
  | exporter
  | counters
  | sampler
  deriving DecidableEq, Repr

namespace MetadataKind

def code : MetadataKind → UInt16
  | exporter => Layout.code Exporter
  | counters => Layout.code CounterBatch
  | sampler => Layout.code Sampler

def minimumSize : MetadataKind → Nat
  | exporter => Layout.minimumSize Exporter
  | counters => Layout.minimumSize CounterBatch
  | sampler => Layout.minimumSize Sampler

/-- Reads a record as one of this kind, under whatever code it stands. -/
def decoder : MetadataKind → Decoder
  | exporter => .ofLayout Exporter .exporter
  | counters => .ofLayout CounterBatch .counters
  | sampler => .ofLayout Sampler .sampler

/-- The record at the front of a buffer, for a caller who expects this kind there. -/
def decode (kind : MetadataKind) (format : WireFormat) (bytes : Bytes) : Except Fault Record :=
  match kind with
  | exporter => (Layout.decode format bytes).map .exporter
  | counters => (Layout.decode format bytes).map .counters
  | sampler => (Layout.decode format bytes).map .sampler

/-- Every kind has a field at least. -/
theorem headerLength_lt_minimumSize (kind : MetadataKind) : Header.length < kind.minimumSize := by
  cases kind <;> decide

variable {kind : MetadataKind} {format : WireFormat} {bytes : Bytes} {header : Header}

theorem decode_of_code (hdecode : Header.decode format.order bytes = .ok header)
    (hcode : header.recordType = kind.code) :
    kind.decode format bytes = kind.decoder format header bytes := by
  cases kind with
  | exporter | counters | sampler =>
    exact congrArg (Except.map _) (Layout.decode_of_header hdecode hcode)

/-- A record of another kind is refused before anything else of it is looked at. -/
theorem decode_of_ne_code (hdecode : Header.decode format.order bytes = .ok header)
    (hcode : header.recordType ≠ kind.code) :
    kind.decode format bytes = .error (.unexpectedKind kind.code header.recordType) := by
  cases kind with
  | exporter | counters | sampler =>
    exact congrArg (Except.map _) (Layout.Outcome.otherKind hdecode hcode).decode_eq

/-- What stands behind the size of a header is not looked at. -/
theorem decoder_append (kind : MetadataKind) (format : WireFormat)
    (hlength : header.size.toNat ≤ bytes.length) (more : Bytes) :
    kind.decoder format header (bytes ++ more) = kind.decoder format header bytes := by
  cases kind with
  | exporter | counters | sampler =>
    exact congrArg (Except.map _) (Layout.decodeFramed_append format hlength more)

theorem decode_of_small (hdecode : Header.decode format.order bytes = .ok header)
    (hcode : header.recordType = kind.code) (hsize : Header.length ≤ header.size.toNat)
    (hminimum : header.size.toNat < kind.minimumSize) : kind.decode format bytes =
      .error (.invalidSize header.recordType header.size kind.minimumSize) := by
  cases kind with
  | exporter | counters | sampler =>
    exact congrArg (Except.map _) (Layout.Outcome.small hdecode hcode hsize hminimum).decode_eq

theorem decode_of_cut (hdecode : Header.decode format.order bytes = .ok header)
    (hcode : header.recordType = kind.code) (hminimum : kind.minimumSize ≤ header.size.toNat)
    (hlength : bytes.length < header.size.toNat) : kind.decode format bytes =
      .error (.truncatedBody header.recordType header.size.toNat bytes.length) := by
  have hsize := Nat.le_trans (Nat.le_of_lt kind.headerLength_lt_minimumSize) hminimum
  cases kind with
  | exporter | counters | sampler =>
    exact congrArg (Except.map _)
      (Layout.Outcome.cut hdecode hcode hsize hminimum hlength).decode_eq

end MetadataKind

namespace Registry

variable {registry : Registry} {format : WireFormat} {frame : Stream.Frame} {kind : MetadataKind}

/-- A registry of nothing but kinds, each registered under some code. The registrations are given
latest first. -/
def ofKinds : List (UInt16 × MetadataKind) → Registry
  | [] => empty
  | (code, kind) :: earlier => ((ofKinds earlier).register code kind.decoder).2

/-- The kind that was registered last under a code. -/
def kindUnder? (registrations : List (UInt16 × MetadataKind)) (code : UInt16) :
    Option MetadataKind :=
  registrations.lookup code

theorem get?_ofKinds (registrations : List (UInt16 × MetadataKind)) (code : UInt16) :
    (ofKinds registrations).decoders.get? code =
      (kindUnder? registrations code).map MetadataKind.decoder := by
  induction registrations with
  | nil => rfl
  | cons latest earlier ih =>
    obtain ⟨other, kind⟩ := latest
    rw [ofKinds, register, CodeMap.get?_insert, ih, kindUnder?, kindUnder?, List.lookup_cons]
    by_cases hcode : code = other
    · subst hcode
      rw [if_pos rfl, beq_self_eq_true]
      rfl
    · rw [if_neg hcode, beq_false_of_ne hcode]

/-- The kinds under their own codes. -/
def ownCodes : List (UInt16 × MetadataKind) :=
  [(MetadataKind.sampler.code, .sampler), (MetadataKind.counters.code, .counters),
    (MetadataKind.exporter.code, .exporter)]

theorem standard_eq_ofKinds : standard = ofKinds ownCodes := rfl

theorem kindUnder?_ownCodes_iff {code : UInt16} :
    kindUnder? ownCodes code = some kind ↔ code = kind.code := by
  constructor
  · intro h
    simp only [kindUnder?, ownCodes, List.lookup_cons, List.lookup_nil] at h
    repeat' split at h
    all_goals cases h
    all_goals exact eq_of_beq ‹_›
  · rintro rfl
    cases kind <;> rfl

variable {registrations : List (UInt16 × MetadataKind)} {fault : Fault}

theorem decodeFrame_ofKinds (h : kindUnder? registrations frame.recordType = some kind) :
    (ofKinds registrations).decodeFrame format frame =
      kind.decoder format frame.header (frame.encode format) := by
  apply decodeFrame_of_get?_eq_some
  rw [get?_ofKinds, h, Option.map_some]

/-- A frame under a code without a kind is carried as it is. -/
theorem decodeFrame_ofKinds_eq_foreign (h : kindUnder? registrations frame.recordType = none) :
    (ofKinds registrations).decodeFrame format frame = .ok (.foreign frame) := by
  apply decodeFrame_of_get?_eq_none
  rw [get?_ofKinds, h, Option.map_none]

/-- A frame that nobody reads is never bad. -/
theorem exists_kind_of_decodeFrame
    (h : (ofKinds registrations).decodeFrame format frame = .error fault) :
    ∃ kind, kindUnder? registrations frame.recordType = some kind ∧
      kind.decoder format frame.header (frame.encode format) = .error fault := by
  cases hkind : kindUnder? registrations frame.recordType with
  | none =>
    rw [decodeFrame_ofKinds_eq_foreign hkind] at h
    cases h
  | some kind =>
    rw [decodeFrame_ofKinds hkind] at h
    exact ⟨kind, rfl, h⟩

end Registry

end ExporterRecords
