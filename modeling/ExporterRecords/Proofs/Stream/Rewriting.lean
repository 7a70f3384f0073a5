import ExporterRecords.Proofs.Stream.RoundTrip

/-!
# Streams written again

Whatever can be read to its end can be written in any usable format, at the same length and with
the same records. In the same format the bytes stay, too, except around short addresses.
-/
namespace ExporterRecords.Stream

open Stream.Frame

variable {format source target : WireFormat} {frames others : List Frame} {records : List Record}

theorem join_inj : join format frames = join format others ↔ frames = others := by
  constructor
  · intro h
    have hsame := Framing.ofBytes_join format frames
    rw [h, Framing.ofBytes_join, Framing.mk.injEq] at hsame
    exact hsame.1.symm
  · intro h
    subst h
    rfl

/-- A frame is as long as the record in it says, whatever the format. -/
theorem length_encode_eq {frame other : Frame} {record : Record}
    (hframe : Registry.standard.decodeFrame source frame = .ok record)
    (hother : Registry.standard.decodeFrame target other = .ok record) :
    (frame.encode source).length = (other.encode target).length := by
  have hbody := (Record.of_decodeFrame hframe).2
  have hbody' := (Record.of_decodeFrame hother).2
  rw [ForeignRecord.length_encode, ForeignRecord.length_encode, ForeignRecord.toNat_size,
    ForeignRecord.toNat_size, hbody, hbody']

/-- Frames that hold the same records are equally long, whatever their formats. -/
theorem length_join_eq
    (hframes : frames.map (Registry.standard.decodeFrame source) = records.map .ok)
    (hothers : others.map (Registry.standard.decodeFrame target) = records.map .ok) :
    (join source frames).length = (join target others).length := by
  induction records generalizing frames others with
  | nil =>
    rw [List.map_nil, List.map_eq_nil_iff] at hframes hothers
    rw [hframes, hothers]
    rfl
  | cons record records ih =>
    obtain ⟨frame, frames, rfl, hframe, hframes⟩ := List.map_eq_cons_iff.mp hframes
    obtain ⟨other, others, rfl, hother, hothers⟩ := List.map_eq_cons_iff.mp hothers
    rw [join_cons, join_cons, List.length_append, List.length_append, ih hframes hothers,
      length_encode_eq hframe hother]

theorem writable_of_decodeFrame
    (hframes : frames.map (Registry.standard.decodeFrame source) = records.map .ok) :
    ∀ record ∈ records, record.Writable := by
  intro record hmem
  have hok : Except.ok record ∈ frames.map (Registry.standard.decodeFrame source) := by
    rw [hframes]
    exact List.mem_map_of_mem hmem
  obtain ⟨frame, -, hread⟩ := List.mem_map.mp hok
  exact (Record.of_decodeFrame hread).1

/-- If each record is written as its frame rewritten, then the records of frames are written as
those frames rewritten. -/
theorem encode_of_rewrite {registry : Registry} {rewrite : Frame → Frame}
    (hrewrite : ∀ frame record, registry.decodeFrame format frame = .ok record →
      record.encode format = .ok ((rewrite frame).encode format))
    (hframes : frames.map (registry.decodeFrame format) = records.map .ok) :
    records.map (Record.encode format) =
      ((frames.map rewrite).map (ForeignRecord.encode format)).map .ok := by
  induction records generalizing frames with
  | nil =>
    rw [List.map_nil, List.map_eq_nil_iff] at hframes
    rw [hframes]
    rfl
  | cons record records ih =>
    obtain ⟨frame, frames, rfl, hframe, hframes⟩ := List.map_eq_cons_iff.mp hframes
    rw [List.map_cons, hrewrite frame record hframe, ih hframes]
    rfl

/-- In the same format the records of frames are written as the frames, tidied. -/
theorem encode_of_decodeFrames
    (hframes : frames.map (Registry.standard.decodeFrame format) = records.map .ok) :
    records.map (Record.encode format) =
      ((frames.map (tidy format)).map (ForeignRecord.encode format)).map .ok :=
  encode_of_rewrite (fun _ _ hframe => encode_of_decodeFrame hframe) hframes

theorem map_tidy_eq_self_iff : frames.map (tidy format) = frames ↔
    ∀ frame ∈ frames, frame.isShortExporter format = true → frame.HasCleanPadding := by
  constructor
  · intro h frame hmem
    rw [← tidy_eq_self_iff]
    exact List.map_inj_left.mp (h.trans (List.map_id frames).symm) frame hmem
  · intro h
    rw [List.map_congr_left fun frame hmem => tidy_eq_self_iff.mpr (h frame hmem)]
    exact List.map_id' frames

/-- Writing what was read from a stream keeps its length and its records. In the same format it
keeps the bytes too, but for zeros where a short address leaves places unused; so it keeps all of
them exactly where no such place was in use, and changes nothing the second time. -/
theorem writeAll_of_decodeAll (source target : WireFormat) (data : Bytes) (records : List Record)
    (hread : decodeAll source data = .ok records)
    (hfamilies : target.families.inet ≠ target.families.inet6) :
    ∃ writer, (Writer.new target).writeAll records = .ok writer ∧
      writer.length = data.length ∧ decodeAll target writer.bytes = .ok records ∧
      (target = source → ∃ frames, data = join source frames ∧
        frames.map (Registry.standard.decodeFrame source) = records.map .ok ∧
        writer.bytes = join source (frames.map (tidy source)) ∧
        (writer.bytes = data ↔ ∀ frame ∈ frames,
          frame.isShortExporter source = true → frame.HasCleanPadding) ∧
        recode source source writer.bytes = .ok writer) := by
  obtain ⟨frames, rfl, hframes⟩ := decodeAll_eq_ok_iff.mp hread
  have hformat : target.validate = .ok () := FamilyCodes.validate_eq_ok_iff.mpr hfamilies
  obtain ⟨others, hencodes, hothers⟩ := exists_frames hformat (writable_of_decodeFrame hframes)
  let writer := (Writer.new target).appendAll (others.map (ForeignRecord.encode target))
  have hwritten : (Writer.new target).writeAll records = .ok writer := by
    rw [Writer.writeAll_eq_writeEach, Writer.writeEach_of_encode (Writer.new target) hencodes]
    rfl
  have hbytes : writer.bytes = join target others := by
    rw [Writer.bytes_appendAll]
    rfl
  have hagain : decodeAll target writer.bytes = .ok records :=
    decodeAll_eq_ok_iff.mpr ⟨others, hbytes, hothers⟩
  refine ⟨writer, hwritten, ?_, hagain, ?_⟩
  · rw [Writer.length, hbytes, length_join_eq hframes hothers]
  · intro h
    subst h
    -- Both lists are the written forms of the records, so they agree.
    have hspans : others.map (ForeignRecord.encode target) =
        (frames.map (tidy target)).map (ForeignRecord.encode target) :=
      (List.map_inj_right fun _ _ => Except.ok.inj).mp
        (hencodes.symm.trans (encode_of_decodeFrames hframes))
    have htidy : writer.bytes = join target (frames.map (tidy target)) := by
      rw [hbytes, join, join, List.flatMap_def, List.flatMap_def, hspans]
    refine ⟨frames, rfl, hframes, htidy, ?_, ?_⟩
    · rw [htidy, join_inj, map_tidy_eq_self_iff]
    · rw [recode_of_decodeAll hagain, hwritten]

theorem writeAll_of_decodeAll_unclean :
    let format : WireFormat := {}
    let record : Record :=
      .exporter { version := 9, address := .v4 0xc0000201, sysid := 3, id := 7 }
    let data : Bytes := [7, 0, 32, 0, 9, 0, 0, 0, 1, 1, 1, 1, 1, 1, 1, 1, 1, 2, 0, 192, 1, 1, 1, 1,
      2, 0, 3, 0, 7, 0, 0, 0]
    decodeAll format data = .ok [record] ∧ format.families.inet ≠ format.families.inet6 ∧
      ∃ writer, (Writer.new format).writeAll [record] = .ok writer ∧
        writer.length = data.length ∧ decodeAll format writer.bytes = .ok [record] ∧
        writer.bytes = [7, 0, 32, 0, 9, 0, 0, 0, 0, 0, 0, 0, 0, 0, 0, 0, 1, 2, 0, 192, 0, 0, 0, 0,
          2, 0, 3, 0, 7, 0, 0, 0] := by
  intro format record data
  let frame : Frame := ⟨7, data.drop 4, by decide⟩
  have hdata : data = join format [frame] := by decide
  have hread : decodeAll format data = .ok [record] :=
    decodeAll_eq_ok_iff.mpr ⟨[frame], hdata, rfl⟩
  have hfamilies : format.families.inet ≠ format.families.inet6 := by decide
  obtain ⟨writer, hwritten, hlength, hagain, hsame⟩ :=
    writeAll_of_decodeAll format format data [record] hread hfamilies
  obtain ⟨frames, hframes, -, hbytes, -⟩ := hsame rfl
  have hframe : [frame] = frames := join_inj.mp (hdata.symm.trans hframes)
  subst hframe
  refine ⟨hread, hfamilies, writer, hwritten, hlength, hagain, hbytes.trans ?_⟩
  decide

end ExporterRecords.Stream
