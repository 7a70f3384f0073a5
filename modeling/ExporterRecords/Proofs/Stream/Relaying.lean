import ExporterRecords.Proofs.Stream.Headers
import ExporterRecords.Proofs.Stream.Rewriting

/-!
# Relaying a stream

A relay reads a stream and writes every item out again. It need not know all kinds: what it does not
know it carries as it is, whatever stands in the body. What it knows it writes as it was read, so a
reader that knows more finds in the written stream what it would have found in the original.
-/
namespace ExporterRecords

namespace Registry

/-- The codes of the metadata kinds. -/
def standardCodes : List UInt16 :=
  [RecordKind.exporterCode, RecordKind.countersCode, RecordKind.samplerCode]

/-- The registry without the decoders of several codes. -/
def unregisterAll (registry : Registry) (codes : List UInt16) : Registry :=
  codes.foldl (fun registry code => (registry.unregister code).2) registry

/-- The registry of an older reader: of the metadata kinds, it knows only those with these codes. -/
def older (known : List UInt16) : Registry :=
  standard.unregisterAll (standardCodes.filter (· ∉ known))

theorem get?_unregisterAll (registry : Registry) (codes : List UInt16) (code : UInt16) :
    (registry.unregisterAll codes).decoders.get? code =
      if code ∈ codes then none else registry.decoders.get? code := by
  induction codes generalizing registry with
  | nil => simp [unregisterAll]
  | cons first codes ih =>
    rw [unregisterAll, List.foldl_cons, ← unregisterAll, ih, unregister, CodeMap.get?_erase]
    by_cases hfirst : code = first
    · simp [hfirst]
    · simp [hfirst]

/-- An older reader treats the kinds it knows as all readers do, and has no decoder for others. -/
theorem get?_older (known : List UInt16) (code : UInt16) :
    (older known).decoders.get? code =
      if code ∈ known then standard.decoders.get? code else none := by
  rw [older, get?_unregisterAll]
  by_cases hknown : code ∈ known
  · simp [hknown]
  · by_cases hstandard : code ∈ standardCodes
    · simp [hknown, hstandard]
    · have hnone : standard.decoders.get? code = none := by
        simp only [standardCodes, List.mem_cons, List.not_mem_nil, or_false, not_or] at hstandard
        rw [get?_standard, if_neg hstandard.2.2, if_neg hstandard.2.1, if_neg hstandard.1]
      simp [hknown, hnone]

theorem decodeFrame_older (known : List UInt16) (format : WireFormat) (frame : Stream.Frame) :
    (older known).decodeFrame format frame =
      if frame.recordType ∈ known then standard.decodeFrame format frame
      else .ok (.foreign frame) := by
  have hget := get?_older known frame.recordType
  split
  · rename_i hknown
    rw [if_pos hknown] at hget
    exact decode_congr hget format _
  · rename_i hunknown
    rw [if_neg hunknown] at hget
    exact decodeFrame_of_get?_eq_none hget

end Registry

namespace Stream

open Stream.Frame

namespace Frame

variable {known : List UInt16} {format : WireFormat} {frame : Frame} {record : Record}

@[simp] theorem header_tidy (format : WireFormat) (frame : Frame) :
    (frame.tidy format).header = frame.header := by
  unfold tidy
  split
  · exact header_clear frame
  · rfl

/-- Whatever a frame holds, a record or a fault, it holds after tidying. -/
theorem decodeFrame_tidy (format : WireFormat) (frame : Frame) :
    Registry.standard.decodeFrame format (frame.tidy format) =
      Registry.standard.decodeFrame format frame := by
  by_cases hshort : frame.isShortExporter format = true
  · obtain ⟨e, hread, -⟩ := isShortExporter_iff.mp hshort
    obtain ⟨_, -, hformat, -⟩ := Exporter.accepts_iff.mp (body_of_exporter hread).2
    -- The tidy frame is the one that the exporter is written as.
    have hwritten := encode_of_decodeFrame hread
    obtain ⟨written, hencode, hagain⟩ := @Record.exists_frame format (.exporter e) hformat trivial
    rw [hencode, Except.ok.injEq, encode_inj] at hwritten
    rw [← hwritten, hagain, hread]
  · rw [tidy, if_neg hshort]

/-- The frame as an older reader writes it again. -/
def relay (known : List UInt16) (format : WireFormat) (frame : Frame) : Frame :=
  if frame.recordType ∈ known then frame.tidy format else frame

@[simp] theorem header_relay (known : List UInt16) (format : WireFormat) (frame : Frame) :
    (frame.relay known format).header = frame.header := by
  unfold relay
  split
  · exact header_tidy format frame
  · rfl

theorem decodeFrame_relay (known : List UInt16) (format : WireFormat) (frame : Frame) :
    Registry.standard.decodeFrame format (frame.relay known format) =
      Registry.standard.decodeFrame format frame := by
  unfold relay
  split
  · exact decodeFrame_tidy format frame
  · rfl

theorem encode_of_decodeFrame_older
    (h : (Registry.older known).decodeFrame format frame = .ok record) :
    record.encode format = .ok ((frame.relay known format).encode format) := by
  rw [Registry.decodeFrame_older] at h
  unfold relay
  split at h
  · rename_i hknown
    rw [if_pos hknown]
    exact encode_of_decodeFrame h
  · rename_i hunknown
    rw [if_neg hunknown]
    cases h
    rfl

end Frame

variable {known : List UInt16} {format : WireFormat} {frames : List Frame} {records : List Record}

/-- What an older reader finds nothing wrong with, it writes out frame by frame. -/
theorem writeAll_of_older
    (h : frames.map ((Registry.older known).decodeFrame format) = records.map .ok) :
    ∃ writer, (Writer.new format).writeAll records = .ok writer ∧
      writer.bytes = join format (frames.map (relay known format)) := by
  apply exists_writer_of_encode
  exact encode_of_rewrite (fun _ _ hframe => encode_of_decodeFrame_older hframe) h

theorem sameHeaders_relay (known : List UInt16) (format : WireFormat) (frames : List Frame) :
    Framing.SameHeaders (Framing.ofBytes format (join format frames))
      (Framing.ofBytes format (join format (frames.map (relay known format)))) := by
  rw [Framing.ofBytes_join, Framing.ofBytes_join]
  refine ⟨?_, rfl, rfl⟩
  rw [List.map_map]
  exact List.map_congr_left fun frame _ => header_relay known format frame

/-- A reader of all kinds finds the same in the frames that a relay writes. -/
theorem items_relay (known : List UInt16) (format : WireFormat) (frames : List Frame) :
    (Cursor.ofBytes format .standard (join format (frames.map (relay known format)))).items =
      (Cursor.ofBytes format .standard (join format frames)).items := by
  rw [Cursor.items_ofBytes, Cursor.items_ofBytes, Framing.ofBytes_join, Framing.ofBytes_join,
    Framing.items, Framing.items, List.map_map]
  congr 1
  exact List.map_congr_left fun frame _ => decodeFrame_relay known format frame

/-- Whatever kinds a relay knows, a stream in which it finds nothing wrong is written out at the
same length, with its records at the same places, and a reader of all kinds finds the same records
and the same faults in what was written. A relay that knows no kind finds nothing wrong in a stream
that is framed to its end, and writes out the same bytes. -/
theorem relay_keeps_stream (known : List UInt16) (format : WireFormat) (data : Bytes) :
    (∀ records, (Cursor.ofBytes format (.older known) data).items = records.map .ok →
      ∃ writer, (Writer.new format).writeAll records = .ok writer ∧
        writer.length = data.length ∧
        (∀ registry, Cursor.InStep (.ofBytes format registry data)
          (.ofBytes format registry writer.bytes)) ∧
        (Cursor.ofBytes format .standard writer.bytes).items =
          (Cursor.ofBytes format .standard data).items) ∧
    ((Cursor.ofBytes format (.older []) data).last.offset = data.length →
      ∃ records writer, (Cursor.ofBytes format (.older []) data).items = records.map .ok ∧
        (Writer.new format).writeAll records = .ok writer ∧ writer.bytes = data) := by
  constructor
  · intro records hitems
    obtain ⟨frames, rfl, hframes⟩ := Cursor.items_eq_map_ok_iff.mp hitems
    obtain ⟨writer, hwritten, hbytes⟩ := writeAll_of_older hframes
    have hsame := sameHeaders_relay known format frames
    refine ⟨writer, hwritten, ?_, ?_, ?_⟩
    · have hheaders := hsame.headers
      rw [Framing.ofBytes_join, Framing.ofBytes_join] at hheaders
      rw [Writer.length, hbytes, length_join, length_join, hheaders]
    · intro registry
      rw [hbytes]
      exact Cursor.inStep_of_sameHeaders hsame registry registry
    · rw [hbytes]
      exact items_relay known format frames
  · intro hwhole
    obtain ⟨hdata, -⟩ := Framing.ofBytes_spec format data
    rw [Cursor.offset_last_ofBytes] at hwhole
    generalize Framing.ofBytes format data = framing at *
    have htail : framing.tail = [] := by
      have hlength := congrArg List.length hdata
      rw [List.length_append] at hlength
      apply List.length_eq_zero_iff.mp
      omega
    rw [htail, List.append_nil] at hdata
    have hframes : framing.frames.map ((Registry.older []).decodeFrame format) =
        (framing.frames.map Record.foreign).map .ok := by
      rw [List.map_map]
      exact List.map_congr_left fun frame _ => Registry.decodeFrame_older [] format frame
    obtain ⟨writer, hwritten, hbytes⟩ := writeAll_of_older hframes
    refine ⟨_, writer, Cursor.items_eq_map_ok_iff.mpr ⟨framing.frames, hdata, hframes⟩, hwritten,
      ?_⟩
    have hverbatim : framing.frames.map (relay [] format) = framing.frames := List.map_id _
    rw [hbytes, hverbatim, hdata]

/-- A relay that knows exporters only gets one with unclean padding and a sampler with a bad body; a
reader of all kinds finds the exporter and the fault of the sampler in what it wrote. -/
theorem relay_keeps_stream_of_bad_body :
    let format : WireFormat := {}
    let data : Bytes := [7, 0, 32, 0, 9, 0, 0, 0, 1, 1, 1, 1, 1, 1, 1, 1, 1, 2, 0, 192, 1, 1, 1, 1,
      2, 0, 3, 0, 7, 0, 0, 0, 15, 0, 5, 0, 1]
    let exporter : Exporter := { version := 9, address := .v4 0xc0000201, sysid := 3, id := 7 }
    let records : List Record := [.exporter exporter, .foreign ⟨15, [1], by decide⟩]
    (Cursor.ofBytes format (.older [7]) data).items = records.map .ok ∧
      ∃ writer, (Writer.new format).writeAll records = .ok writer ∧ writer.length = 37 ∧
        (Cursor.ofBytes format .standard writer.bytes).items =
          [.ok (.exporter exporter), .error (.invalidSize 15 5 24)] := by
  intro format data exporter records
  let frames : List Frame := [⟨7, (data.drop 4).take 28, by decide⟩, ⟨15, [1], by decide⟩]
  have hdata : data = join format frames := by decide
  have hitems : (Cursor.ofBytes format (.older [7]) data).items = records.map .ok :=
    Cursor.items_eq_map_ok_iff.mpr ⟨frames, hdata, rfl⟩
  obtain ⟨writer, hwritten, hlength, -, hread⟩ :=
    (relay_keeps_stream [7] format data).1 records hitems
  refine ⟨hitems, writer, hwritten, hlength, hread.trans ?_⟩
  rw [hdata, Cursor.items_ofBytes, Framing.ofBytes_join]
  rfl

end Stream

end ExporterRecords
