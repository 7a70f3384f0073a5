import ExporterRecords.Proofs.Packing
import ExporterRecords.Proofs.Stream.Framing
import ExporterRecords.Record.Basic

/-!
# Layouts read back

The body of each kind is read exactly where the written fields of the value stand, except that
the block of an exporter's address may hold anything that its family does not look at. From this
follows what the streams need to know of a kind: legal values are written and read back, and
whatever is read is legal and keeps its length when it is written again.
-/
namespace ExporterRecords

namespace Layout

variable {α : Type} [Layout α] {format : WireFormat} {body : Bytes} {frame : ForeignRecord} {a : α}

/-- The whole of a body is read as a value. -/
def Accepts (format : WireFormat) (body : Bytes) (a : α) : Prop :=
  decodeBody format body = .ok (a, body.length)

theorem decodeBody_eq_error_iff {fault : Fault} :
    (decodeBody format body : Except Fault (α × Nat)) = .error fault ↔
      (readBody format : BodyReader α) (.ofBody (code α) format.order body) = .error fault := by
  unfold decodeBody StateT.run
  cases (readBody format : BodyReader α) (.ofBody (code α) format.order body) <;>
    simp [Except.map]

theorem decodeBody_eq_ok_iff {consumed : Nat} : decodeBody format body = .ok (a, consumed) ↔
    ∃ out, readBody format (.ofBody (code α) format.order body) = .ok (a, out) ∧
      out.consumed = consumed := by
  unfold decodeBody StateT.run
  cases (readBody format : BodyReader α) (.ofBody (code α) format.order body) with
  | error fault => simp [Except.map]
  | ok taken =>
    obtain ⟨b, out⟩ := taken
    simp only [Except.map, Except.ok.injEq, Prod.mk.injEq]
    constructor
    · intro h
      obtain ⟨rfl, hconsumed⟩ := h
      exact ⟨out, ⟨rfl, rfl⟩, hconsumed⟩
    · intro h
      obtain ⟨_, ⟨rfl, rfl⟩, hconsumed⟩ := h
      exact ⟨rfl, hconsumed⟩

theorem accepts_iff : Accepts format body a ↔
    ∃ out, readBody format (.ofBody (code α) format.order body) = .ok (a, out) ∧
      out.consumed = body.length := decodeBody_eq_ok_iff

/-- Where a reader takes one of several written forms of its value, it accepts each of them. -/
theorem accepts_iff_exists {ι : Type} {fields : ι → List Field} {P : ι → Prop}
    (hread : ∀ input out, readBody format input = .ok (a, out) ↔
      ∃ i, input.Takes (fields i) out ∧ P i) :
    Accepts format body a ↔ ∃ i, body = Field.encodeAll format.order (fields i) ∧ P i := by
  simp only [accepts_iff, hread]
  constructor
  · intro h
    obtain ⟨out, ⟨i, htakes, hP⟩, hconsumed⟩ := h
    exact ⟨i, (BodyInput.takes_ofBody_iff.mp ⟨htakes, hconsumed⟩).1, hP⟩
  · intro h
    obtain ⟨i, hbody, hP⟩ := h
    obtain ⟨htakes, hconsumed⟩ := (@BodyInput.takes_ofBody_iff (code α)).mpr ⟨hbody, rfl⟩
    exact ⟨_, ⟨i, htakes, hP⟩, hconsumed⟩

theorem accepts_iff_of_read {fields : List Field} {P : Prop}
    (hread : ∀ input out, readBody format input = .ok (a, out) ↔ input.Takes fields out ∧ P) :
    Accepts format body a ↔ body = Field.encodeAll format.order fields ∧ P := by
  have h := @accepts_iff_exists α _ format body a Unit (fun _ => fields) fun _ => P
  simp only [exists_const] at h
  exact h hread

/-- What comes of a frame: its size is looked at first, then its body, then what was left of it. -/
theorem decodeFramed_frame (format : WireFormat) (frame : ForeignRecord) :
    (decodeFramed format frame.header (frame.encode format) : Except Fault α) =
      if frame.size.toNat < minimumSize α then
        .error (.invalidSize frame.recordType frame.size (minimumSize α))
      else match (decodeBody format frame.body : Except Fault (α × Nat)) with
        | .error fault => .error fault
        | .ok (a, consumed) =>
          if consumed = frame.body.length then .ok a
          else .error (.sizeMismatch frame.recordType frame.size.toNat
            (Header.length + consumed)) := by
  have hsplit : Bytes.split? frame.size.toNat (frame.encode format) =
      some (⟨_, frame.length_encode format⟩, []) :=
    Bytes.split?_eq_some_iff.mpr (List.append_nil _).symm
  have hbody : (frame.encode format).drop Header.length = frame.body := by
    rw [frame.encode_eq_append, List.drop_left' (Header.length_encode ..)]
  have hsize : frame.header.size = frame.size := rfl
  unfold decodeFramed
  rw [frame.bodyLength_header, hsize]
  simp only [bind, Except.bind, hsplit, hbody]
  by_cases hminimum : frame.size.toNat < minimumSize α
  · rw [if_pos hminimum, if_pos hminimum]
    rfl
  · rw [if_neg hminimum, if_neg hminimum]
    cases (decodeBody format frame.body : Except Fault (α × Nat)) <;> rfl

/-- A frame is read as a value if its body is, and is as long as the kind demands. -/
theorem decodeFramed_frame_eq_ok_iff :
    decodeFramed format frame.header (frame.encode format) = .ok a ↔
      minimumSize α ≤ frame.size.toNat ∧ Accepts format frame.body a := by
  rw [decodeFramed_frame, Accepts]
  by_cases hminimum : frame.size.toNat < minimumSize α
  · rw [if_pos hminimum]
    exact ⟨nofun, fun h => absurd h.1 (Nat.not_le.mpr hminimum)⟩
  · rw [if_neg hminimum]
    cases (decodeBody format frame.body : Except Fault (α × Nat)) with
    | error fault => simp
    | ok taken =>
      obtain ⟨b, consumed⟩ := taken
      by_cases hconsumed : consumed = frame.body.length
      · simp [hconsumed, Nat.le_of_not_lt hminimum]
      · simp [hconsumed]

theorem encodeBody_of_writes {body : Except Fault Bytes} (h : (appendBody format a).Writes body) :
    encodeBody format a = body := by
  rw [encodeBody, h #[]]
  cases body with
  | error fault => rfl
  | ok bytes => exact congrArg Except.ok Array.toList_appendList

/-- A value is written as the frame of its code that holds its body. -/
theorem encode_eq_frame (hcode : frame.recordType = code α)
    (hlength : frame.body.length = bodyLength a) (hbody : encodeBody format a = .ok frame.body) :
    encode format a = .ok (frame.encode format) := by
  have hfits := frame.fits
  rw [hlength] at hfits
  simp only [encode, encodedLength, Nat.not_lt.mpr hfits, hbody, ↓reduceIte, pure, Except.pure,
    bind, Except.bind, ForeignRecord.encode, ForeignRecord.size, hcode, hlength]

/-- Whatever is written is a frame of its code, if bodies are as long as they are said to be. -/
theorem exists_frame_of_encode {span : Bytes}
    (hlength : ∀ body, encodeBody format a = .ok body → body.length = bodyLength a)
    (h : encode format a = .ok span) :
    ∃ frame : ForeignRecord, frame.encode format = span ∧ frame.recordType = code α ∧
      frame.body.length = bodyLength a := by
  by_cases hlarge : Header.largestSize < encodedLength a
  · rw [encode, if_pos hlarge] at h
    cases h
  · cases hbody : encodeBody format a with
    | error fault =>
      rw [encode, if_neg hlarge, hbody] at h
      cases h
    | ok body =>
      have hfits : Header.length + body.length ≤ Header.largestSize := by
        rw [hlength body hbody]
        exact Nat.le_of_not_lt hlarge
      let frame : ForeignRecord := ⟨code α, body, hfits⟩
      have hframe : encode format a = .ok (frame.encode format) :=
        encode_eq_frame rfl (hlength body hbody) hbody
      rw [hframe, Except.ok.injEq] at h
      exact ⟨frame, h, rfl, hlength body hbody⟩

/-- A value whose body is read back is written as a frame that is read back. -/
theorem exists_frame_of_written (hminimum : minimumSize α ≤ encodedLength a)
    (hfits : encodedLength a ≤ Header.largestSize)
    (h : ∃ body, encodeBody format a = .ok body ∧ body.length = bodyLength a ∧
      Accepts format body a) :
    ∃ frame : ForeignRecord, frame.recordType = code α ∧
      encode format a = .ok (frame.encode format) ∧
      decodeFramed format frame.header (frame.encode format) = .ok a := by
  obtain ⟨body, hbody, hlength, haccepts⟩ := h
  rw [encodedLength, ← hlength] at hfits hminimum
  let frame : ForeignRecord := ⟨code α, body, hfits⟩
  refine ⟨frame, rfl, encode_eq_frame rfl hlength hbody, ?_⟩
  rw [decodeFramed_frame_eq_ok_iff, frame.toNat_size]
  exact ⟨hminimum, haccepts⟩

/-- What the writer and the reader of a kind owe each other. -/
structure Lawful (α : Type) [Layout α] (legal : α → Prop) : Prop where
  minimumSize_le : ∀ a : α, minimumSize α ≤ encodedLength a
  encodedLength_le : ∀ a : α, legal a → encodedLength a ≤ Header.largestSize
  written : ∀ (format : WireFormat) (a : α), format.validate = .ok () → legal a →
    ∃ body, encodeBody format a = .ok body ∧ body.length = bodyLength a ∧ Accepts format body a
  read : ∀ (format : WireFormat) (body : Bytes) (a : α),
    Header.length + body.length ≤ Header.largestSize → Accepts format body a →
      legal a ∧ body.length = bodyLength a

namespace Lawful

variable {legal : α → Prop}

/-- A legal value is written as a frame that is read back. -/
theorem exists_frame (h : Lawful α legal) (hformat : format.validate = .ok ()) (ha : legal a) :
    ∃ frame : ForeignRecord, frame.recordType = code α ∧
      encode format a = .ok (frame.encode format) ∧
      decodeFramed format frame.header (frame.encode format) = .ok a :=
  exists_frame_of_written (h.minimumSize_le a) (h.encodedLength_le a ha)
    (h.written format a hformat ha)

/-- Whatever is read from a frame is legal and as long as it is written. -/
theorem of_decodeFramed (h : Lawful α legal)
    (hread : decodeFramed format frame.header (frame.encode format) = .ok a) :
    legal a ∧ frame.body.length = bodyLength a :=
  h.read format frame.body a frame.fits (decodeFramed_frame_eq_ok_iff.mp hread).2

end Lawful

end Layout

namespace Sampler

namespace Selector

/-- Negative numbers are reserved for the selectors with a name. -/
def IsLegal : Selector → Prop
  | explicit id => 0 ≤ id
  | _ => True

instance : DecidablePred IsLegal
  | explicit id => inferInstanceAs (Decidable (0 ≤ id))
  | overwrite | deviceDefault | generic => .isTrue trivial

theorem ofInt64_eq_ok_iff {id : Int64} {selector : Selector} :
    ofInt64 id = .ok selector ↔ selector.toInt64 = id ∧ selector.IsLegal := by
  constructor
  · intro h
    refine ⟨toInt64_of_ofInt64 h, ?_⟩
    unfold ofInt64 at h
    repeat' split at h
    all_goals cases h
    all_goals trivial
  · intro h
    obtain ⟨rfl, hlegal⟩ := h
    cases selector with
    | overwrite => rfl
    | deviceDefault => rfl
    | generic => rfl
    | explicit id =>
      have hnonneg : 0 ≤ id := hlegal
      have hne (reserved : Int64) (h : reserved < 0) : id ≠ reserved := by
        intro h
        subst h
        exact absurd hnonneg (Int64.not_le.mpr h)
      simp [ofInt64, toInt64, hnonneg, hne overwriteId (by decide), hne deviceDefaultId (by decide),
        hne genericId (by decide)]

end Selector

theorem read_eq_ok_iff {input out : BodyInput} {sampler : Sampler} :
    read input = .ok (sampler, out) ↔
      input.Takes sampler.fields out ∧ sampler.selector.IsLegal := by
  simp only [read, fields, BodyReader.bind_eq_ok_iff, BodyReader.u16_eq_ok_iff,
    BodyReader.u32_eq_ok_iff, BodyReader.i64_eq_ok_iff, BodyReader.lift_eq_ok_iff,
    BodyReader.pure_eq_ok_iff, BodyInput.takes_cons_cons, Selector.ofInt64_eq_ok_iff]
  constructor
  · intro h
    obtain ⟨_, m₁, h₁, _, m₂, h₂, _, m₃, h₃, _, _, ⟨⟨rfl, hlegal⟩, rfl⟩, _, m₄, h₄, _, m₅, h₅, rfl,
      rfl⟩ := h
    exact ⟨⟨m₁, h₁, m₂, h₂, _, h₃, m₄, h₄, h₅⟩, hlegal⟩
  · intro h
    obtain ⟨⟨m₁, h₁, m₂, h₂, m₃, h₃, m₄, h₄, h₅⟩, hlegal⟩ := h
    exact ⟨_, m₁, h₁, _, m₂, h₂, _, m₃, h₃, _, _, ⟨⟨rfl, hlegal⟩, rfl⟩, _, m₄, h₄, _, _, h₅,
      rfl, rfl⟩

theorem accepts_iff {format : WireFormat} {body : Bytes} {sampler : Sampler} :
    Layout.Accepts format body sampler ↔
      body = Field.encodeAll format.order sampler.fields ∧ sampler.selector.IsLegal :=
  Layout.accepts_iff_of_read fun _ _ => read_eq_ok_iff

theorem writes_appendBody (format : WireFormat) (sampler : Sampler) :
    (Layout.appendBody format sampler).Writes (do
      let _ ← Selector.ofInt64 sampler.selector.toInt64
      return Field.encodeAll format.order sampler.fields) := by
  refine BodyWriter.writes_of_check fun selector hselector => ?_
  -- The number is written that was looked up.
  have hfields : { sampler with selector }.fields = sampler.fields := by
    simp only [fields, Selector.toInt64_of_ofInt64 hselector]
  rw [hfields]
  exact BodyWriter.writes_fields format.order sampler.fields

theorem encodeBody_eq (format : WireFormat) (sampler : Sampler) :
    Layout.encodeBody format sampler = (do
      let _ ← Selector.ofInt64 sampler.selector.toInt64
      return Field.encodeAll format.order sampler.fields) :=
  Layout.encodeBody_of_writes (writes_appendBody format sampler)

theorem encodeBody_of_isLegal {format : WireFormat} {sampler : Sampler}
    (h : sampler.selector.IsLegal) : Layout.encodeBody format sampler =
      .ok (Field.encodeAll format.order sampler.fields) := by
  simp only [encodeBody_eq, Selector.ofInt64_eq_ok_iff.mpr ⟨rfl, h⟩, bind, Except.bind, pure,
    Except.pure]

theorem widthAll_fields (sampler : Sampler) : Field.widthAll sampler.fields = 20 := rfl

theorem length_of_encodeBody {format : WireFormat} {sampler : Sampler} {body : Bytes}
    (h : Layout.encodeBody format sampler = .ok body) :
    body.length = Layout.bodyLength sampler := by
  rw [encodeBody_eq] at h
  cases hselector : Selector.ofInt64 sampler.selector.toInt64 with
  | error fault =>
    rw [hselector] at h
    cases h
  | ok selector =>
    rw [hselector] at h
    cases h
    rw [Field.length_encodeAll, widthAll_fields]
    rfl

/-- Nothing that a format says of families matters to samplers. -/
theorem written_of_isLegal (format : WireFormat) {sampler : Sampler}
    (h : sampler.selector.IsLegal) :
    ∃ body, Layout.encodeBody format sampler = .ok body ∧
      body.length = Layout.bodyLength sampler ∧ Layout.Accepts format body sampler := by
  have hbody := @encodeBody_of_isLegal format sampler h
  exact ⟨_, hbody, length_of_encodeBody hbody, accepts_iff.mpr ⟨rfl, h⟩⟩

theorem lawful : Layout.Lawful Sampler fun sampler => sampler.selector.IsLegal where
  minimumSize_le _ := Nat.le_refl 24
  encodedLength_le _ _ := (by decide : 24 ≤ Header.largestSize)
  written format _ _ h := written_of_isLegal format h
  read format body sampler _ h := by
    obtain ⟨rfl, hlegal⟩ := accepts_iff.mp h
    refine ⟨hlegal, ?_⟩
    rw [Field.length_encodeAll, widthAll_fields]
    rfl

end Sampler

namespace CounterSnapshot

theorem read_eq_ok_iff {input out : BodyInput} {snapshot : CounterSnapshot} :
    read input = .ok (snapshot, out) ↔ input.Takes snapshot.fields out := by
  simp only [read, fields, BodyReader.bind_eq_ok_iff, BodyReader.u32_eq_ok_iff,
    BodyReader.u64_eq_ok_iff, BodyReader.pure_eq_ok_iff, BodyInput.takes_cons_cons]
  constructor
  · intro h
    obtain ⟨_, m₁, h₁, _, m₂, h₂, _, m₃, h₃, _, m₄, h₄, rfl, rfl⟩ := h
    exact ⟨m₁, h₁, m₂, h₂, m₃, h₃, h₄⟩
  · intro h
    obtain ⟨m₁, h₁, m₂, h₂, m₃, h₃, h₄⟩ := h
    exact ⟨_, m₁, h₁, _, m₂, h₂, _, m₃, h₃, _, _, h₄, rfl, rfl⟩

theorem readMany_eq_ok_iff {count : Nat} {input out : BodyInput}
    {snapshots : List CounterSnapshot} :
    readMany count input = .ok (snapshots, out) ↔
      input.Takes (snapshots.flatMap fields) out ∧ snapshots.length = count := by
  induction count generalizing input out snapshots with
  | zero =>
    rw [readMany, BodyReader.pure_eq_ok_iff, List.length_eq_zero_iff]
    constructor
    · intro h
      obtain ⟨rfl, rfl⟩ := h
      exact ⟨BodyInput.takes_nil.mpr rfl, rfl⟩
    · intro h
      obtain ⟨htakes, rfl⟩ := h
      exact ⟨rfl, BodyInput.takes_nil.mp htakes⟩
  | succ count ih =>
    simp only [readMany, BodyReader.bind_eq_ok_iff, read_eq_ok_iff, ih, BodyReader.pure_eq_ok_iff]
    constructor
    · intro h
      obtain ⟨snapshot, mid, htakes, rest, _, ⟨hrest, rfl⟩, rfl, rfl⟩ := h
      rw [List.flatMap_cons, BodyInput.takes_append]
      exact ⟨⟨mid, htakes, hrest⟩, rfl⟩
    · intro h
      obtain ⟨htakes, hlength⟩ := h
      cases snapshots with
      | nil => cases hlength
      | cons snapshot rest =>
        rw [List.flatMap_cons, BodyInput.takes_append] at htakes
        obtain ⟨mid, hfirst, hrest⟩ := htakes
        exact ⟨snapshot, mid, hfirst, rest, out, ⟨hrest, Nat.succ.inj hlength⟩, rfl, rfl⟩

theorem widthAll_fields (snapshots : List CounterSnapshot) :
    Field.widthAll (snapshots.flatMap fields) = snapshots.length * length := by
  induction snapshots with
  | nil => rfl
  | cons snapshot snapshots ih =>
    rw [List.flatMap_cons, Field.widthAll_append, ih, List.length_cons, Nat.succ_mul, Nat.add_comm]
    rfl

end CounterSnapshot

namespace CounterBatch

theorem toNat_count {batch : CounterBatch} (h : batch.entries.length < UInt32.size) :
    batch.count.toNat = batch.entries.length := by
  rw [count, Nat.min_eq_left (Nat.le_sub_one_of_lt h), UInt32.toNat_ofNat_of_lt' h]

theorem widthAll_fields (batch : CounterBatch) :
    Field.widthAll batch.fields = 4 + batch.entries.length * CounterSnapshot.length := by
  rw [fields, Field.widthAll, CounterSnapshot.widthAll_fields]
  rfl

/-- Asking for the announced bytes first refuses nothing that could be read. -/
theorem read_eq_ok_iff {input out : BodyInput} {batch : CounterBatch} :
    read input = .ok (batch, out) ↔
      input.Takes batch.fields out ∧ batch.entries.length < UInt32.size := by
  simp only [read, fields, BodyReader.bind_eq_ok_iff, BodyReader.u32_eq_ok_iff,
    BodyReader.require_eq_ok_iff, CounterSnapshot.readMany_eq_ok_iff, BodyReader.pure_eq_ok_iff]
  rw [BodyInput.takes_cons]
  constructor
  · intro h
    obtain ⟨announced, _, hcount, _, mid, ⟨_, rfl⟩, entries, _, ⟨hentries, hlength⟩, rfl, rfl⟩ := h
    have hlt : entries.length < UInt32.size := hlength ▸ announced.toNat_lt
    have hannounced : count ⟨entries⟩ = announced :=
      UInt32.toNat_inj.mp ((toNat_count hlt).trans hlength)
    rw [hannounced]
    exact ⟨⟨mid, hcount, hentries⟩, hlt⟩
  · intro h
    obtain ⟨⟨mid, hcount, hentries⟩, hlt⟩ := h
    have hannounced := toNat_count hlt
    have hthere : batch.count.toNat * CounterSnapshot.length ≤ mid.rest.length := by
      obtain ⟨rest, hrest, -⟩ := hentries
      rw [hrest, List.length_append, Field.length_encodeAll, CounterSnapshot.widthAll_fields,
        hannounced]
      exact Nat.le_add_right ..
    exact ⟨_, mid, hcount, (), mid, ⟨hthere, rfl⟩, _, _, ⟨hentries, hannounced.symm⟩, rfl, rfl⟩

theorem accepts_iff {format : WireFormat} {body : Bytes} {batch : CounterBatch} :
    Layout.Accepts format body batch ↔
      body = Field.encodeAll format.order batch.fields ∧ batch.entries.length < UInt32.size :=
  Layout.accepts_iff_of_read fun _ _ => read_eq_ok_iff

theorem writes_appendBody (format : WireFormat) (batch : CounterBatch) :
    (Layout.appendBody format batch).Writes (.ok (Field.encodeAll format.order batch.fields)) := by
  have hentries := BodyWriter.writes_forM
    (fun entry : CounterSnapshot => BodyWriter.writes_fields format.order entry.fields)
    batch.entries
  have hall : Field.encodeAll format.order batch.fields =
      Field.encode format.order (.u32 batch.count) ++
        batch.entries.flatMap fun entry => Field.encodeAll format.order entry.fields := by
    rw [fields, Field.encodeAll, List.flatMap_cons, List.flatMap_assoc]
    rfl
  rw [hall]
  exact (BodyWriter.writes_field format.order _).append hentries

theorem encodeBody_eq (format : WireFormat) (batch : CounterBatch) :
    Layout.encodeBody format batch = .ok (Field.encodeAll format.order batch.fields) :=
  Layout.encodeBody_of_writes (writes_appendBody format batch)

theorem length_of_encodeBody {format : WireFormat} {batch : CounterBatch} {body : Bytes}
    (h : Layout.encodeBody format batch = .ok body) : body.length = Layout.bodyLength batch := by
  rw [encodeBody_eq] at h
  cases h
  rw [Field.length_encodeAll, widthAll_fields]
  rfl

/-- Nothing that a format says of families matters to counters. -/
theorem written_of_length_le (format : WireFormat) {batch : CounterBatch}
    (h : batch.entries.length ≤ capacity) :
    ∃ body, Layout.encodeBody format batch = .ok body ∧ body.length = Layout.bodyLength batch ∧
      Layout.Accepts format body batch := by
  have hlt : batch.entries.length < UInt32.size := Nat.lt_of_le_of_lt h (by decide)
  have hbody := encodeBody_eq format batch
  exact ⟨_, hbody, length_of_encodeBody hbody, accepts_iff.mpr ⟨rfl, hlt⟩⟩

/-- The capacity is the largest number of snapshots that a header can declare. -/
theorem le_capacity_iff {n : Nat} : n ≤ capacity ↔ 8 + 24 * n ≤ 65535 := by
  simp only [capacity, Header.largestSize, Header.length, CounterSnapshot.length]
  omega

theorem encodedLength_eq (batch : CounterBatch) :
    Layout.encodedLength batch = 8 + 24 * batch.entries.length := by
  simp only [Layout.encodedLength, Layout.bodyLength, Header.length, CounterSnapshot.length]
  omega

theorem encodedLength_le_iff {batch : CounterBatch} :
    Layout.encodedLength batch ≤ Header.largestSize ↔ batch.entries.length ≤ capacity := by
  rw [encodedLength_eq, le_capacity_iff, Header.largestSize]

theorem lawful : Layout.Lawful CounterBatch fun batch => batch.entries.length ≤ capacity where
  minimumSize_le batch := by
    rw [encodedLength_eq]
    exact Nat.le_add_right 8 _
  encodedLength_le _ h := encodedLength_le_iff.mpr h
  written format _ _ h := written_of_length_le format h
  read format body batch hfits h := by
    obtain ⟨rfl, -⟩ := accepts_iff.mp h
    rw [Field.length_encodeAll, widthAll_fields] at hfits ⊢
    exact ⟨encodedLength_le_iff.mp hfits, rfl⟩

end CounterBatch

namespace Exporter

/-- The fields of an exporter with another block in place of its packed address. -/
def fieldsWith (format : WireFormat) (block : PackedAddress) (exporter : Exporter) : List Field :=
  [.u32 exporter.version, .raw block.bytes, .u16 (format.families.code exporter.family),
    .u16 exporter.sysid, .u32 exporter.id]

theorem fields_eq (format : WireFormat) (exporter : Exporter) :
    exporter.fields format =
      exporter.fieldsWith format (.pack format.order exporter.address) := rfl

theorem widthAll_fieldsWith (format : WireFormat) (block : PackedAddress) (exporter : Exporter) :
    Field.widthAll (exporter.fieldsWith format block) = 28 := by
  simp [fieldsWith, Field.widthAll, Field.width, block.length_eq, PackedAddress.length]

/-- All that is left open is what stands in the block around a short address. -/
theorem read_eq_ok_iff {format : WireFormat} {input out : BodyInput} {exporter : Exporter} :
    read format input = .ok (exporter, out) ↔
      ∃ block : PackedAddress, input.Takes (exporter.fieldsWith format block) out ∧
        format.validate = .ok () ∧
        block.unpack format.order exporter.family = exporter.address := by
  simp only [read, fieldsWith, BodyReader.bind_eq_ok_iff, BodyReader.u16_eq_ok_iff,
    BodyReader.u32_eq_ok_iff, BodyReader.raw_eq_ok_iff, BodyReader.lift_eq_ok_iff,
    BodyReader.pure_eq_ok_iff, BodyInput.takes_cons_cons]
  constructor
  · intro h
    obtain ⟨_, _, ⟨hformat, rfl⟩, version, m₁, h₁, block, m₂, h₂, code, m₃, h₃, sysid, m₄, h₄, id,
      m₅, h₅, address, _, ⟨haddress, rfl⟩, rfl, rfl⟩ := h
    have hdistinct := FamilyCodes.validate_eq_ok_iff.mp hformat
    obtain ⟨rfl, hunpack⟩ := (PackedAddress.decode_eq_ok_iff hdistinct).mp haddress
    exact ⟨⟨block.1, block.2⟩, ⟨m₁, h₁, m₂, h₂, m₃, h₃, m₄, h₄, h₅⟩, hformat, hunpack⟩
  · intro h
    obtain ⟨block, ⟨m₁, h₁, m₂, h₂, m₃, h₃, m₄, h₄, h₅⟩, hformat, hunpack⟩ := h
    have hdistinct := FamilyCodes.validate_eq_ok_iff.mp hformat
    have haddress := (PackedAddress.decode_eq_ok_iff hdistinct).mpr ⟨rfl, hunpack⟩
    exact ⟨(), _, ⟨hformat, rfl⟩, _, m₁, h₁, ⟨block.bytes, block.length_eq⟩, m₂, h₂, _, m₃, h₃, _,
      m₄, h₄, _, _, h₅, _, _, ⟨haddress, rfl⟩, rfl, rfl⟩

theorem accepts_iff {format : WireFormat} {body : Bytes} {exporter : Exporter} :
    Layout.Accepts format body exporter ↔ ∃ block : PackedAddress,
      body = Field.encodeAll format.order (exporter.fieldsWith format block) ∧
        format.validate = .ok () ∧
        block.unpack format.order exporter.family = exporter.address :=
  Layout.accepts_iff_exists fun _ _ => read_eq_ok_iff

theorem writes_appendBody (format : WireFormat) (exporter : Exporter) :
    (Layout.appendBody format exporter).Writes (do
      format.validate
      return Field.encodeAll format.order (exporter.fields format)) :=
  BodyWriter.writes_of_check fun _ _ => BodyWriter.writes_fields format.order _

theorem encodeBody_eq (format : WireFormat) (exporter : Exporter) :
    Layout.encodeBody format exporter = (do
      format.validate
      return Field.encodeAll format.order (exporter.fields format)) :=
  Layout.encodeBody_of_writes (writes_appendBody format exporter)

theorem encodeBody_of_validate {format : WireFormat} (h : format.validate = .ok ())
    (exporter : Exporter) : Layout.encodeBody format exporter =
      .ok (Field.encodeAll format.order (exporter.fields format)) := by
  simp only [encodeBody_eq, h, bind, Except.bind, pure, Except.pure]

theorem length_of_encodeBody {format : WireFormat} {exporter : Exporter} {body : Bytes}
    (h : Layout.encodeBody format exporter = .ok body) :
    body.length = Layout.bodyLength exporter := by
  rw [encodeBody_eq] at h
  cases hformat : format.validate with
  | error fault =>
    rw [hformat] at h
    cases h
  | ok =>
    rw [hformat] at h
    cases h
    rw [Field.length_encodeAll, fields_eq, widthAll_fieldsWith]
    rfl

theorem lawful : Layout.Lawful Exporter fun _ => True where
  minimumSize_le _ := Nat.le_refl 32
  encodedLength_le _ _ := (by decide : 32 ≤ Header.largestSize)
  written format exporter hformat _ := by
    have hbody := encodeBody_of_validate hformat exporter
    exact ⟨_, hbody, length_of_encodeBody hbody, accepts_iff.mpr
      ⟨_, rfl, hformat, PackedAddress.unpack_pack format.order exporter.address⟩⟩
  read format body exporter _ h := by
    obtain ⟨block, rfl, -⟩ := accepts_iff.mp h
    refine ⟨trivial, ?_⟩
    rw [Field.length_encodeAll, widthAll_fieldsWith]
    rfl

end Exporter

end ExporterRecords
