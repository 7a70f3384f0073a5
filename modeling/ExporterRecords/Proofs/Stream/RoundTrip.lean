import ExporterRecords.Proofs.Records
import ExporterRecords.Sample
import ExporterRecords.Stream.Recode
import Mathlib.Algebra.Order.Ring.Nat

/-!
# Streams read back

A writer puts frame behind frame, and a stream can be read to its end exactly if it consists of
frames that hold records. So whatever records are written in one format are read back in it.
-/
namespace ExporterRecords.Stream

open Stream.Frame

variable {format : WireFormat} {records : List Record}

namespace Writer

/-- Writes records in order, up to the first that fails, and returns their lengths. -/
def writeEach (writer : Writer) : List Record → Except Fault (List Nat × Writer)
  | [] => .ok ([], writer)
  | record :: records => do
    let (result, writer) := writer.write record
    let length ← result
    let (lengths, writer) ← writer.writeEach records
    return (length :: lengths, writer)

/-- The writer with several written forms more. -/
def appendAll (writer : Writer) (spans : List Bytes) : Writer := spans.foldl append writer

theorem toList_written_appendAll (writer : Writer) (spans : List Bytes) :
    (writer.appendAll spans).written.toList = writer.written.toList ++ spans := by
  induction spans generalizing writer with
  | nil => exact (List.append_nil _).symm
  | cons span spans ih =>
    have hrest := ih (writer.append span)
    rwa [append, Array.toList_push, List.append_assoc] at hrest

@[simp] theorem bytes_appendAll (writer : Writer) (spans : List Bytes) :
    (writer.appendAll spans).bytes = writer.bytes ++ spans.flatten := by
  rw [bytes, toList_written_appendAll, List.flatten_append]
  rfl

@[simp] theorem recordCount_appendAll (writer : Writer) (spans : List Bytes) :
    (writer.appendAll spans).recordCount = writer.recordCount + spans.length := by
  have hlength := congrArg List.length (toList_written_appendAll writer spans)
  rwa [List.length_append, Array.length_toList, Array.length_toList] at hlength

theorem write_of_encode {writer : Writer} {record : Record} {span : Bytes}
    (h : record.encode writer.format = .ok span) :
    writer.write record = (.ok span.length, writer.append span) := by
  rw [write, h, appendEncoded]

/-- Records that can all be written are written one behind the other. -/
theorem writeEach_of_encode (writer : Writer) {spans : List Bytes}
    (h : records.map (Record.encode writer.format) = spans.map .ok) :
    writer.writeEach records = .ok (spans.map List.length, writer.appendAll spans) := by
  induction records generalizing writer spans with
  | nil =>
    cases List.map_eq_nil_iff.mp h.symm
    rfl
  | cons record records ih =>
    cases spans with
    | nil => cases h
    | cons span spans =>
      rw [List.map_cons, List.map_cons, List.cons.injEq] at h
      have hrest := ih (writer.append span) h.2
      rw [writeEach, write_of_encode h.1]
      simp only [bind, Except.bind, hrest]
      rfl

theorem writeAll_cons (writer : Writer) (record : Record) (records : List Record) :
    writer.writeAll (record :: records) = (writer.extend record).bind (·.writeAll records) :=
  List.foldlM_cons

theorem writeAll_append (writer : Writer) (records more : List Record) :
    writer.writeAll (records ++ more) = (writer.writeAll records).bind (·.writeAll more) :=
  List.foldlM_append

/-- The first record that cannot be written ends the writing. -/
theorem writeAll_cons_of_error {writer : Writer} {record : Record} {fault : Fault}
    (h : record.encode writer.format = .error fault) (records : List Record) :
    writer.writeAll (record :: records) = .error fault := by
  rw [writeAll_cons, extend, write, h]
  rfl

theorem writeAll_eq_writeEach (writer : Writer) (records : List Record) :
    writer.writeAll records = (writer.writeEach records).map (·.2) := by
  induction records generalizing writer with
  | nil => rfl
  | cons record records ih =>
    rw [writeAll_cons, extend, writeEach]
    obtain ⟨result, after⟩ := writer.write record
    cases result with
    | error fault => rfl
    | ok length =>
      simp only [Except.map, bind, Except.bind, ih]
      cases after.writeEach records <;> rfl

end Writer

theorem mapM_id_map_ok (records : List Record) :
    (records.map (Except.ok : Record → Except Fault Record)).mapM id = .ok records := by
  induction records with
  | nil => rfl
  | cons record records ih => simp [List.mapM_cons, ih, bind, Except.bind, pure, Except.pure]

/-- A walk finds nothing but records exactly if its buffer consists of frames that hold them. -/
theorem Cursor.items_eq_map_ok_iff {registry : Registry} {bytes : Bytes} :
    (ofBytes format registry bytes).items = records.map .ok ↔
      ∃ frames, bytes = join format frames ∧
        frames.map (registry.decodeFrame format) = records.map .ok := by
  rw [items_ofBytes]
  constructor
  · intro hitems
    obtain ⟨hbytes, -⟩ := Framing.ofBytes_spec format bytes
    generalize Framing.ofBytes format bytes = framing at *
    have htail : framing.tail = [] := by
      apply Decidable.byContradiction
      intro hne
      have hbroken : Except.error (breakage format (0 + (join format framing.frames).length)
          framing.tail) ∈ records.map (Except.ok : Record → Except Fault Record) := by
        rw [← hitems, Framing.items, ending, if_neg hne]
        exact List.mem_append_right _ (List.mem_singleton.mpr rfl)
      obtain ⟨_, -, hok⟩ := List.mem_map.mp hbroken
      cases hok
    rw [Framing.items, htail] at hitems
    rw [htail] at hbytes
    refine ⟨framing.frames, ?_, ?_⟩
    · rw [hbytes, List.append_nil]
    · simpa [ending] using hitems
  · rintro ⟨frames, rfl, hframes⟩
    rw [Framing.ofBytes_join, Framing.items, hframes, ending, if_pos rfl, List.append_nil]

/-- A stream is read to its end exactly if it consists of frames that hold records. -/
theorem decodeAll_eq_ok_iff {bytes : Bytes} :
    decodeAll format bytes = .ok records ↔ ∃ frames, bytes = join format frames ∧
      frames.map (Registry.standard.decodeFrame format) = records.map .ok := by
  rw [decodeAll, ← Cursor.items_eq_map_ok_iff]
  constructor
  · exact eq_map_ok_of_mapM_id
  · intro hitems
    rw [hitems, mapM_id_map_ok]

/-- Records each of which a frame holds are held by several frames together. -/
theorem exists_frames_of_each (h : ∀ record ∈ records, ∃ frame : Frame,
    record.encode format = .ok (frame.encode format) ∧
      Registry.standard.decodeFrame format frame = .ok record) :
    ∃ frames : List Frame, records.map (Record.encode format) =
        (frames.map (ForeignRecord.encode format)).map .ok ∧
      frames.map (Registry.standard.decodeFrame format) = records.map .ok := by
  induction records with
  | nil => exact ⟨[], rfl, rfl⟩
  | cons record records ih =>
    obtain ⟨frame, hencode, hread⟩ := h record (List.mem_cons_self ..)
    obtain ⟨frames, hencodes, hreads⟩ := ih fun other hmem => h other (List.mem_cons_of_mem _ hmem)
    refine ⟨frame :: frames, ?_, ?_⟩
    · simp only [List.map_cons, hencode, hencodes]
    · simp only [List.map_cons, hread, hreads]

theorem exists_frames (hformat : format.validate = .ok ())
    (h : ∀ record ∈ records, record.Writable) :
    ∃ frames : List Frame, records.map (Record.encode format) =
        (frames.map (ForeignRecord.encode format)).map .ok ∧
      frames.map (Registry.standard.decodeFrame format) = records.map .ok :=
  exists_frames_of_each fun record hmem => Record.exists_frame hformat (h record hmem)

/-- Records that are written as frames are written one frame behind the other. -/
theorem exists_writer_of_encode {frames : List Frame} (h : records.map (Record.encode format) =
      (frames.map (ForeignRecord.encode format)).map .ok) :
    ∃ writer, (Writer.new format).writeAll records = .ok writer ∧
      writer.bytes = join format frames := by
  refine ⟨_, ?_, Writer.bytes_appendAll (Writer.new format) _⟩
  rw [Writer.writeAll_eq_writeEach, Writer.writeEach_of_encode (Writer.new format) h]
  rfl

/-- Writable records are all written, each as a frame that holds it. -/
theorem exists_written (hfamilies : format.families.inet ≠ format.families.inet6)
    (h : ∀ record ∈ records, record.Writable) :
    ∃ frames writer, (Writer.new format).writeAll records = .ok writer ∧
      writer.bytes = join format frames ∧
      frames.map (Registry.standard.decodeFrame format) = records.map .ok := by
  have hformat : format.validate = .ok () := FamilyCodes.validate_eq_ok_iff.mpr hfamilies
  obtain ⟨frames, hencodes, hreads⟩ := exists_frames hformat h
  obtain ⟨writer, hwritten, hbytes⟩ := exists_writer_of_encode hencodes
  exact ⟨frames, writer, hwritten, hbytes, hreads⟩

/-- Whatever writable records are written, all of them are read back, in order. -/
theorem decodeAll_of_writeEach (format : WireFormat) (records : List Record)
    (hfamilies : format.families.inet ≠ format.families.inet6)
    (hrecords : ∀ record ∈ records, record.Writable) :
    ∃ lengths writer, (Writer.new format).writeEach records = .ok (lengths, writer) ∧
      lengths.length = records.length ∧ writer.recordCount = records.length ∧
      writer.length = lengths.sum ∧ decodeAll format writer.bytes = .ok records := by
  have hformat : format.validate = .ok () := FamilyCodes.validate_eq_ok_iff.mpr hfamilies
  obtain ⟨frames, hencodes, hreads⟩ := exists_frames hformat hrecords
  have hlength : frames.length = records.length := by
    simpa using congrArg List.length hreads
  refine ⟨_, _, Writer.writeEach_of_encode (Writer.new format) hencodes, ?_, ?_, ?_, ?_⟩
  · simp only [List.length_map, hlength]
  · rw [Writer.recordCount_appendAll, List.length_map, hlength]
    exact Nat.zero_add _
  · rw [Writer.length, Writer.bytes_appendAll, List.length_append, List.length_flatten]
    exact Nat.zero_add _
  · rw [Writer.bytes_appendAll, decodeAll_eq_ok_iff]
    exact ⟨frames, rfl, hreads⟩

theorem decodeAll_of_writeEach_sample :
    let format : WireFormat := {}
    let records := Sample.records 2 1
    format.families.inet ≠ format.families.inet6 ∧ (∀ record ∈ records, record.Writable) ∧
      ∃ lengths writer, (Writer.new format).writeEach records = .ok (lengths, writer) ∧
        lengths.length = records.length ∧ writer.recordCount = records.length ∧
        writer.length = lengths.sum ∧ decodeAll format writer.bytes = .ok records :=
  ⟨by decide, by decide, decodeAll_of_writeEach {} (Sample.records 2 1) (by decide) (by decide)⟩

end ExporterRecords.Stream
