import ExporterRecords.Document.Record
import ExporterRecords.Proofs.Records
import ExporterRecords.Proofs.Selectors

/-!
# The limits of writing

Each kind has one reason for which a value of it cannot be written: too many snapshots, a table of
families that does not tell them apart, a reserved number as a selector. A foreign record was held
against the limit when it was made, so it can always be written. Whatever is written declares its
own length, and a body that cannot be written leaves no trace in the buffer.
-/
namespace ExporterRecords

namespace Layout

variable {α : Type} [Layout α] {format : WireFormat} {a : α}

/-- A value is refused for its length, or its body is refused. -/
theorem encode_eq_error_iff {fault : Fault} : encode format a = .error fault ↔
    (Header.largestSize < encodedLength a ∧
      fault = .recordTooLarge (code α) (encodedLength a)) ∨
    (encodedLength a ≤ Header.largestSize ∧ encodeBody format a = .error fault) := by
  rw [encode]
  by_cases hlarge : Header.largestSize < encodedLength a
  · rw [if_pos hlarge]
    simp [hlarge, Nat.not_le.mpr hlarge, bind, Except.bind, throw, throwThe, MonadExceptOf.throw,
      eq_comm]
  · rw [if_neg hlarge]
    cases encodeBody format a <;>
      simp [hlarge, Nat.le_of_not_lt hlarge, bind, Except.bind, pure, Except.pure]

/-- A body that cannot be written leaves the buffer as it was, whatever the buffer holds. -/
def IsAtomic (α : Type) [Layout α] (format : WireFormat) : Prop :=
  ∀ (a : α) (out out' : Array UInt8) (fault : Fault),
    (appendBody format a).appendTo out = (.error fault, out') → out' = out

theorem isAtomic_of_writes {body : α → Except Fault Bytes}
    (h : ∀ a, (appendBody format a).Writes (body a)) : IsAtomic α format := by
  intro a out out' fault hrefused
  rw [h a out] at hrefused
  cases hbody : body a with
  | ok bytes =>
    rw [hbody] at hrefused
    cases hrefused
  | error refusal =>
    rw [hbody] at hrefused
    exact (congrArg Prod.snd hrefused).symm

end Layout

/-- What is refused for one reason only is granted without it. -/
theorem exists_ok_iff_of_error_iff {β : Type} {outcome : Except Fault β} {P : Prop} {reason : Fault}
    (h : ∀ fault, outcome = .error fault ↔ P ∧ fault = reason) :
    (∃ b, outcome = .ok b) ↔ ¬ P := by
  cases outcome with
  | ok b => simpa using h reason
  | error fault => simpa using ((h fault).mp rfl).1

namespace CounterBatch

variable {format : WireFormat} {batch : CounterBatch} {count : UInt32}
  {entries : List CounterSnapshot} {fault : Fault}

/-- A batch is refused for its length only, since nothing is wrong with any snapshot. -/
theorem encode_eq_error_iff : Layout.encode format batch = .error fault ↔
    capacity < batch.entries.length ∧
      fault = .recordTooLarge 8 (8 + 24 * batch.entries.length) := by
  have hcode : Layout.code CounterBatch = 8 := rfl
  rw [Layout.encode_eq_error_iff, ← Nat.not_le, encodedLength_le_iff, Nat.not_le, encodedLength_eq,
    encodeBody_eq, hcode]
  simp

theorem encodeCounted_of_eq (format : WireFormat) (h : count.toNat = entries.length) :
    encodeCounted format count entries = Layout.encode format (⟨entries⟩ : CounterBatch) := by
  rw [encodeCounted, ofCounted, if_pos h]
  rfl

theorem encodeCounted_eq_countMismatch_iff :
    encodeCounted format count entries = .error (.countMismatch count entries.length) ↔
      count.toNat ≠ entries.length := by
  constructor
  · intro hrefused heq
    rw [encodeCounted_of_eq format heq, encode_eq_error_iff] at hrefused
    cases hrefused.2
  · intro hne
    rw [encodeCounted, ofCounted, if_neg hne]
    rfl

end CounterBatch

/-- An exporter always fits, and its format is asked before anything is written. -/
theorem Exporter.encode_eq_error_iff {format : WireFormat} {exporter : Exporter} {fault : Fault} :
    Layout.encode format exporter = .error fault ↔
      format.families.inet = format.families.inet6 ∧ fault = .configuration
        s!"address family codes must differ, both are {format.families.inet}" := by
  have hfits := lawful.encodedLength_le exporter trivial
  have hformat : format.validate = .error fault ↔ _ := FamilyCodes.validate_eq_error_iff
  rw [Layout.encode_eq_error_iff, ← hformat, encodeBody_eq]
  cases format.validate <;> simp [hfits, Nat.not_lt.mpr hfits, bind, Except.bind, pure, Except.pure]

namespace Document

theorem natBelow?_integer {n bound : Nat} (h : n < bound) :
    natBelow? bound (.integer n) = some n := by
  have hrange : 0 ≤ (n : Int) ∧ (n : Int) < bound := ⟨Int.natCast_nonneg n, Int.ofNat_lt.mpr h⟩
  rw [natBelow?, if_pos hrange, Int.toNat_natCast]

theorem ofDocument?_uint8 (n : UInt8) : ofDocument? (toDocument n) = some n := by
  change (natBelow? UInt8.size (.integer n.toNat)).map UInt8.ofNat = some n
  rw [natBelow?_integer n.toNat_lt, Option.map_some, UInt8.ofNat_toNat]

theorem ofDocument?_uint16 (n : UInt16) : ofDocument? (toDocument n) = some n := by
  change (natBelow? UInt16.size (.integer n.toNat)).map UInt16.ofNat = some n
  rw [natBelow?_integer n.toNat_lt, Option.map_some, UInt16.ofNat_toNat]

theorem ofDocument?_list {α : Type} [Documented α]
    (h : ∀ a : α, ofDocument? (toDocument a) = some a) (items : List α) :
    ofDocument? (toDocument items) = some items := by
  change (items.map toDocument).mapM ofDocument? = some items
  induction items with
  | nil => rfl
  | cons item items ih =>
    rw [List.map_cons, List.mapM_cons, h, ih]
    rfl

end Document

namespace ForeignRecord

variable {recordType : UInt16} {body : Bytes} {record : ForeignRecord} {fault : Fault}

/-- A record is made of any body that fits, and holds it. -/
theorem ofBody_eq_ok_iff : ofBody recordType body = .ok record ↔
    record.recordType = recordType ∧ record.body = body := by
  obtain ⟨code, held, fits⟩ := record
  unfold ofBody
  constructor
  · intro h
    split at h
    · cases h
      exact ⟨rfl, rfl⟩
    · cases h
  · rintro ⟨rfl, rfl⟩
    rw [dif_pos fits]

theorem ofBody_eq_error_iff : ofBody recordType body = .error fault ↔
    Header.largestSize < Header.length + body.length ∧
      fault = .recordTooLarge recordType (Header.length + body.length) := by
  unfold ofBody
  split
  · next hfits => simp [Nat.not_lt.mpr hfits]
  · next hlarge => simp [Nat.not_le.mp hlarge, eq_comm]

/-- A span under a code without a decoder always makes a record, with the header of the span. -/
theorem exists_of_decode {registry : Registry} (format : WireFormat) {header : Header}
    {span : Bytes} (hget : registry.decoders.get? header.recordType = none)
    (hsize : Header.length ≤ header.size.toNat) (hlength : header.size.toNat ≤ span.length) :
    ∃ record : ForeignRecord, registry.decode format header span = .ok (.foreign record) ∧
      record.header = header ∧ record.body = (span.take header.size.toNat).drop Header.length := by
  let body := (span.take header.size.toNat).drop Header.length
  have hbody : Header.length + body.length = header.size.toNat := by
    rw [List.length_drop, List.length_take_of_le hlength, Nat.add_sub_cancel' hsize]
  have hfits : Header.length + body.length ≤ Header.largestSize := by
    rw [hbody]
    exact Nat.le_of_lt_succ header.size.toNat_lt
  have hsplit : span.split? header.size.toNat =
      some (⟨_, List.length_take_of_le hlength⟩, span.drop header.size.toNat) :=
    Bytes.split?_eq_some_iff.mpr (List.take_append_drop ..).symm
  have hheader : header.bodyLength = .ok (header.size.toNat - Header.length) :=
    if_neg (Nat.not_lt.mpr hsize)
  have hmade : ofBody header.recordType body = .ok ⟨header.recordType, body, hfits⟩ :=
    ofBody_eq_ok_iff.mpr ⟨rfl, rfl⟩
  refine ⟨⟨header.recordType, body, hfits⟩, ?_, header_mk hfits hbody, rfl⟩
  simp only [Registry.decode, hheader, hget, hsplit, bind, Except.bind]
  exact congrArg (Except.map Record.foreign) hmade

/-- The document of a code and a body. -/
def document (recordType : UInt16) (body : Bytes) : Document :=
  .object [("record_type", toDocument recordType), ("body", toDocument body)]

section

-- The members are looked up in lemmas of their own, where no more than the two names is unfolded.
variable {code content : Document}

theorem required_recordType : Document.Members.required (α := UInt16)
    (List.lookup · [("record_type", code), ("body", content)]) "record_type" =
      ofDocument? code := by
  rw [Document.Members.required, List.lookup_cons_self, Option.bind_some]

theorem required_body : Document.Members.required (α := Bytes)
    (List.lookup · [("record_type", code), ("body", content)]) "body" =
      ofDocument? content := by
  have hne : ("body" == "record_type") = false := by decide
  rw [Document.Members.required, List.lookup_cons, hne]
  simp only [List.lookup_cons_self, Option.bind_some]

theorem ofDocument?_object (members : List (String × Document)) : ofDocument? (.object members) =
    (Document.Members.required (members.lookup ·) "record_type").bind fun recordType =>
      (Document.Members.required (members.lookup ·) "body").bind fun body =>
        (ofBody recordType body).toOption := rfl

end

/-- A document makes the record that its code and its body make, or none if they make none. -/
theorem ofDocument?_document (recordType : UInt16) (body : Bytes) :
    ofDocument? (document recordType body) = (ofBody recordType body).toOption := by
  have hbody := Document.ofDocument?_list Document.ofDocument?_uint8 body
  rw [document, ofDocument?_object, required_recordType, Document.ofDocument?_uint16,
    Option.bind_some, required_body, hbody, Option.bind_some]

end ForeignRecord

namespace Record

variable {format : WireFormat} {record : Record} {span : Bytes}

/-- The length of the written form, header included. -/
def encodedLength : Record → Nat
  | exporter e => Layout.encodedLength e
  | counters batch => Layout.encodedLength batch
  | sampler s => Layout.encodedLength s
  | foreign record => record.size.toNat

/-- Whatever is written is as long as it was said to be, and its header declares as much. -/
theorem header_of_encode (h : record.encode format = .ok span) :
    span.length = record.encodedLength ∧ Header.length ≤ span.length ∧
      span.length ≤ Header.largestSize ∧ ∃ header,
        Header.decode format.order span = .ok header ∧ header.recordType = record.code ∧
          header.size.toNat = span.length := by
  obtain ⟨frame, rfl, hcode, hlength⟩ := exists_frame_of_encode h
  have hdeclared : frame.size.toNat = record.encodedLength := by
    rw [frame.toNat_size, hlength]
    cases record with
    | foreign r => exact r.toNat_size.symm
    | exporter | counters | sampler => rfl
  have hdecode := frame.decode_encode_append format []
  rw [List.append_nil] at hdecode
  rw [frame.length_encode]
  refine ⟨hdeclared, frame.headerLength_le_size, ?_, frame.header, hdecode, hcode, rfl⟩
  rw [frame.toNat_size]
  exact frame.fits

/-- What can be written in a format, and what is said of everything else. -/
structure WritesWithinLimits (format : WireFormat) : Prop where
  /-- The capacity of a batch is the largest number of snapshots that a header can declare. -/
  capacity : ∀ n, n ≤ CounterBatch.capacity ↔ 8 + 24 * n ≤ 65535
  counters_written : ∀ batch : CounterBatch, (∃ span, Layout.encode format batch = .ok span) ↔
    batch.entries.length ≤ CounterBatch.capacity
  counters_refused : ∀ (batch : CounterBatch) (fault : Fault),
    Layout.encode format batch = .error fault ↔
      CounterBatch.capacity < batch.entries.length ∧
        fault = .recordTooLarge 8 (8 + 24 * batch.entries.length)
  /-- A list whose announced length is wrong is refused for that, whatever its length is. -/
  counted_refused : ∀ (count : UInt32) (entries : List CounterSnapshot),
    CounterBatch.encodeCounted format count entries =
      .error (.countMismatch count entries.length) ↔ count.toNat ≠ entries.length
  counted_written : ∀ (count : UInt32) (entries : List CounterSnapshot),
    count.toNat = entries.length →
      CounterBatch.encodeCounted format count entries =
        Layout.encode format (⟨entries⟩ : CounterBatch)
  exporter_written : ∀ exporter : Exporter, (∃ span, Layout.encode format exporter = .ok span) ↔
    format.families.inet ≠ format.families.inet6
  exporter_refused : ∀ (exporter : Exporter) (fault : Fault),
    Layout.encode format exporter = .error fault ↔
      format.families.inet = format.families.inet6 ∧ fault = .configuration
        s!"address family codes must differ, both are {format.families.inet}"
  sampler_refused : ∀ (sampler : Sampler) (fault : Fault),
    Layout.encode format sampler = .error fault ↔
      sampler.selector.toInt64 < Sampler.Selector.overwriteId ∧
        fault = .invalidSelector sampler.selector.toInt64
  /-- A foreign record is made of a body that fits, by itself or out of a document. -/
  foreign_made : ∀ (recordType : UInt16) (body : Bytes),
    (∃ record, ForeignRecord.ofBody recordType body = .ok record ∧
      ofDocument? (ForeignRecord.document recordType body) = some record ∧
        record.recordType = recordType ∧ record.body = body) ↔ 4 + body.length ≤ 65535
  foreign_refused : ∀ (recordType : UInt16) (body : Bytes), 65535 < 4 + body.length →
    ForeignRecord.ofBody recordType body = .error (.recordTooLarge recordType (4 + body.length)) ∧
      (ofDocument? (ForeignRecord.document recordType body) : Option ForeignRecord) = none
  /-- The same holds of the spans that a stream delimits, and each of them fits. -/
  foreign_decoded : ∀ (registry : Registry) (header : Header) (span : Bytes),
    registry.decoders.get? header.recordType = none → 4 ≤ header.size.toNat →
      header.size.toNat ≤ span.length → ∃ record : ForeignRecord,
        registry.decode format header span = .ok (.foreign record) ∧ record.header = header ∧
          record.body = (span.take header.size.toNat).drop 4
  foreign_written : ∀ record : ForeignRecord,
    (∃ span, (foreign record).encode format = .ok span) ∧
      record.size.toNat = 4 + record.body.length
  /-- Whatever is written is as long as it was said to be, and so says its header. -/
  written : ∀ (record : Record) (span : Bytes), record.encode format = .ok span →
    span.length = record.encodedLength ∧ 4 ≤ span.length ∧ span.length ≤ 65535 ∧
      ∃ header, Header.decode format.order span = .ok header ∧ header.recordType = record.code ∧
        header.size.toNat = span.length
  exporter_atomic : Layout.IsAtomic Exporter format
  counters_atomic : Layout.IsAtomic CounterBatch format
  sampler_atomic : Layout.IsAtomic Sampler format

/-- In every format, writing succeeds exactly within the limits, what is written declares its own
length, and a body that is refused leaves no trace. -/
theorem writes_within_limits (format : WireFormat) : WritesWithinLimits format where
  capacity _ := CounterBatch.le_capacity_iff
  counters_written batch := by
    rw [exists_ok_iff_of_error_iff fun _ => CounterBatch.encode_eq_error_iff, Nat.not_lt]
  counters_refused _ _ := CounterBatch.encode_eq_error_iff
  counted_refused _ _ := CounterBatch.encodeCounted_eq_countMismatch_iff
  counted_written _ _ := CounterBatch.encodeCounted_of_eq format
  exporter_written exporter :=
    exists_ok_iff_of_error_iff fun _ => Exporter.encode_eq_error_iff
  exporter_refused _ _ := Exporter.encode_eq_error_iff
  sampler_refused _ _ := Sampler.encode_eq_error_iff
  foreign_made recordType body := by
    constructor
    · rintro ⟨record, -, -, -, rfl⟩
      exact record.fits
    · intro hfits
      have hmade : ForeignRecord.ofBody recordType body = .ok ⟨recordType, body, hfits⟩ :=
        ForeignRecord.ofBody_eq_ok_iff.mpr ⟨rfl, rfl⟩
      refine ⟨_, hmade, ?_, rfl, rfl⟩
      rw [ForeignRecord.ofDocument?_document, hmade]
      rfl
  foreign_refused recordType body hlarge := by
    have hrefused := ForeignRecord.ofBody_eq_error_iff.mpr
      ⟨hlarge, Eq.refl (Fault.recordTooLarge recordType (Header.length + body.length))⟩
    refine ⟨hrefused, ?_⟩
    rw [ForeignRecord.ofDocument?_document, hrefused]
    rfl
  foreign_decoded _ _ _ := ForeignRecord.exists_of_decode format
  foreign_written record := ⟨⟨_, rfl⟩, record.toNat_size⟩
  written _ _ := header_of_encode
  exporter_atomic := Layout.isAtomic_of_writes (Exporter.writes_appendBody format)
  counters_atomic := Layout.isAtomic_of_writes (CounterBatch.writes_appendBody format)
  sampler_atomic := Layout.isAtomic_of_writes (Sampler.writes_appendBody format)

/-- The last batch that fits and the first that does not, and a sampler that is refused behind bytes
that were in the buffer before. -/
theorem writes_within_limits_at_capacity :
    let batch (n : Nat) : CounterBatch := ⟨List.replicate n ⟨1, 0, 50, 2⟩⟩
    let sampler : Sampler := ⟨1, 2, .explicit (-4), 100, 0⟩
    (∃ span, Layout.encode {} (batch 2730) = .ok span) ∧
      Layout.encode {} (batch 2731) = .error (.recordTooLarge 8 65552) ∧
      (Layout.appendBody {} sampler).appendTo #[15, 0, 24, 0] =
        (.error (.invalidSelector (-4)), #[15, 0, 24, 0]) := by
  intro batch sampler
  have hlimits := writes_within_limits {}
  have hlength (n : Nat) : (batch n).entries.length = n := List.length_replicate
  have hrefused := hlimits.counters_refused (batch 2731) (.recordTooLarge 8 65552)
  rw [hlength] at hrefused
  refine ⟨?_, hrefused.mpr ⟨by decide, rfl⟩, rfl⟩
  rw [hlimits.counters_written, hlength]
  decide

end Record

end ExporterRecords
