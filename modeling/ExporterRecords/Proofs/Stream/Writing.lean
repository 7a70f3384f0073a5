import ExporterRecords.Proofs.Stream.Batches
import ExporterRecords.Proofs.Stream.Headers
import ExporterRecords.Proofs.Stream.Sessions

/-!
# Writing in any order

A caller may hand a writer values of one kind, records of any kind and counters of any number, in
any order and whether or not they can be written. At every point the writer holds a frame for each
record that it has accepted, and nothing of those that it has refused.
-/
namespace ExporterRecords.Stream

open Stream.Frame

namespace Writer

/-- What a caller may ask of a writer. -/
inductive Call where
  | exporter (exporter : Exporter)
  | batch (batch : CounterBatch)
  | sampler (sampler : Sampler)
  | record (record : Record)
  | counters (entries : List CounterSnapshot)

namespace Call

/-- The record of a call that is about a single one. -/
def record? : Call → Option Record
  | exporter e => some (.exporter e)
  | batch b => some (.counters b)
  | sampler s => some (.sampler s)
  | record r => some r
  | counters _ => none

/-- The records that a call asks to be written, in order. -/
def records : Call → List Record
  | counters entries => (CounterBatch.split entries).map .counters
  | call => call.record?.toList

end Call

/-- The answer to a call and the writer after it. -/
def perform (writer : Writer) : Call → Except Fault Nat × Writer
  | .exporter e => writer.writeLayout e
  | .batch b => writer.writeLayout b
  | .sampler s => writer.writeLayout s
  | .record r => writer.write r
  | .counters entries => writer.writeCounters entries

/-- The writer after several calls. -/
def run (writer : Writer) (calls : List Call) : Writer :=
  calls.foldl (fun writer call => (writer.perform call).2) writer

/-- The records of a call that is answered with success. -/
def accept (writer : Writer) (call : Call) : List Record :=
  match (writer.perform call).1 with
  | .ok _ => call.records
  | .error _ => []

/-- The records of all calls that are answered with success, in order. -/
def accepted (writer : Writer) : List Call → List Record
  | [] => []
  | call :: calls => writer.accept call ++ (writer.perform call).2.accepted calls

/-- What ties a writer to the records that it has accepted: their written forms, in order. -/
structure Holds (format : WireFormat) (records : List Record) (writer : Writer) : Prop where
  format_eq : writer.format = format
  encode_eq : records.map (Record.encode format) = writer.written.toList.map .ok

section Calls

variable {writer : Writer} {call : Call} {record : Record} {records : List Record}
  {format : WireFormat}

theorem records_of_record? (h : call.record? = some record) : call.records = [record] := by
  cases call <;> cases h <;> rfl

/-- However a single record is handed over, its written form decides what comes of it. -/
theorem perform_of_record? (writer : Writer) (h : call.record? = some record) :
    writer.perform call = writer.appendEncoded (record.encode writer.format) := by
  cases call with
  | counters entries => cases h
  | exporter | batch | sampler | record =>
    cases h
    rfl

/-- A call has the written forms of all its records appended; or it is about one that cannot be
written, and then nothing is. -/
theorem perform_cases (writer : Writer) (call : Call) :
    (∃ answer spans, writer.perform call = (.ok answer, writer.appendAll spans) ∧
      call.records.map (Record.encode writer.format) = spans.map .ok) ∨
    ∃ record fault, call.records = [record] ∧ record.encode writer.format = .error fault ∧
      writer.perform call = (.error fault, writer) := by
  cases hsingle : call.record? with
  | none =>
    cases call with
    | counters entries =>
      obtain ⟨frames, hperform, hencodes, -⟩ := writeCounters_eq_appendAll writer entries
      exact .inl ⟨_, _, hperform, hencodes⟩
    | _ => cases hsingle
  | some record =>
    have hperform := perform_of_record? writer hsingle
    have hrecords := records_of_record? hsingle
    cases hencode : record.encode writer.format with
    | ok span =>
      rw [hencode] at hperform
      refine .inl ⟨span.length, [span], hperform, ?_⟩
      rw [hrecords, List.map_singleton, List.map_singleton, hencode]
    | error fault =>
      rw [hencode] at hperform
      exact .inr ⟨record, fault, hrecords, hencode, hperform⟩

theorem holds_new (format : WireFormat) : Holds format [] (new format) := ⟨rfl, rfl⟩

/-- A call adds to what a writer holds the records of the call, if it is answered with success. -/
theorem Holds.perform (h : Holds format records writer) (call : Call) :
    Holds format (records ++ writer.accept call) (writer.perform call).2 := by
  obtain ⟨rfl, hholds⟩ := h
  rcases perform_cases writer call with ⟨answer, spans, hperform, hencodes⟩ |
    ⟨record, fault, -, -, hperform⟩
  · rw [accept, hperform]
    refine ⟨format_appendAll .., ?_⟩
    rw [toList_written_appendAll, List.map_append, List.map_append, hholds, hencodes]
  · rw [accept, hperform]
    refine ⟨rfl, ?_⟩
    rw [List.append_nil]
    exact hholds

theorem Holds.run (h : Holds format records writer) (calls : List Call) :
    Holds format (records ++ writer.accepted calls) (writer.run calls) := by
  induction calls generalizing writer records with
  | nil => simpa [accepted, Writer.run] using h
  | cons call calls ih => simpa [accepted, Writer.run] using ih (h.perform call)

/-- Whatever a writer holds are frames, one for each record. -/
theorem exists_frames_of_encode {spans : List Bytes}
    (h : records.map (Record.encode format) = spans.map .ok) :
    ∃ frames : List Frame, frames.map (ForeignRecord.encode format) = spans ∧
      frames.map ForeignRecord.recordType = records.map Record.code := by
  induction records generalizing spans with
  | nil =>
    cases List.map_eq_nil_iff.mp h.symm
    exact ⟨[], rfl, rfl⟩
  | cons record records ih =>
    cases spans with
    | nil => cases h
    | cons span spans =>
      rw [List.map_cons, List.map_cons, List.cons.injEq] at h
      obtain ⟨frame, hspan, hcode, -⟩ := Record.exists_frame_of_encode h.1
      obtain ⟨frames, hspans, hcodes⟩ := ih h.2
      refine ⟨frame :: frames, ?_, ?_⟩
      · rw [List.map_cons, hspan, hspans]
      · rw [List.map_cons, hcode, hcodes, List.map_cons]

theorem Holds.exists_frames (h : Holds format records writer) :
    ∃ frames : List Frame, writer.bytes = join format frames ∧
      writer.recordCount = frames.length ∧
      records.map (Record.encode format) = (frames.map (ForeignRecord.encode format)).map .ok ∧
      frames.map ForeignRecord.recordType = records.map Record.code := by
  obtain ⟨frames, hspans, hcodes⟩ := exists_frames_of_encode h.encode_eq
  refine ⟨frames, ?_, ?_, ?_, hcodes⟩
  · rw [bytes, ← hspans, join, List.flatMap_def]
  · rw [recordCount, ← Array.length_toList, ← hspans, List.length_map]
  · rw [hspans]
    exact h.encode_eq

end Calls

end Writer

namespace Session

variable {session : Session} {records : List Record}

theorem perform_encode (session : Session) (record : Record) :
    (session.perform (.encode record)).2 = match record.encode session.framer.format with
      | .ok span => { session with out := session.out ++ span }
      | .error _ => session := by
  simp only [perform, Framer.encode]
  cases record.encode session.framer.format <;> rfl

/-- Records that can all be written are appended to what goes out. -/
theorem run_encode {spans : List Bytes}
    (h : records.map (Record.encode session.framer.format) = spans.map .ok) :
    (session.run (records.map .encode)).framer = session.framer ∧
      (session.run (records.map .encode)).out = session.out ++ spans.flatten := by
  induction records generalizing session spans with
  | nil =>
    cases List.map_eq_nil_iff.mp h.symm
    exact ⟨rfl, (List.append_nil _).symm⟩
  | cons record records ih =>
    cases spans with
    | nil => cases h
    | cons span spans =>
      rw [List.map_cons, List.map_cons, List.cons.injEq] at h
      obtain ⟨hencode, hothers⟩ := h
      have hfirst : (session.perform (.encode record)).2 =
          { session with out := session.out ++ span } := by rw [perform_encode, hencode]
      have hrest : session.run ((record :: records).map .encode) =
          (session.perform (.encode record)).2.run (records.map .encode) := rfl
      obtain ⟨hframer, hout⟩ := @ih { session with out := session.out ++ span } spans hothers
      rw [hrest, hfirst, hframer, hout, List.flatten_cons, ← List.append_assoc]
      exact ⟨rfl, rfl⟩

end Session

namespace Writer

/-- A framer of the same format that has sent what a writer holds. -/
structure Echoes (session : Session) (writer : Writer) : Prop where
  format_eq : session.framer.format = writer.format
  out_eq : session.out = writer.bytes

section Framers

variable {session : Session} {writer : Writer}

/-- Given the records of a call, a framer sends what the call appends. -/
theorem Echoes.perform (h : Echoes session writer) (call : Call) :
    Echoes (session.run (call.records.map .encode)) (writer.perform call).2 := by
  obtain ⟨hformat, hout⟩ := h
  rcases perform_cases writer call with ⟨answer, spans, hperform, hencodes⟩ |
    ⟨record, fault, hrecords, hencode, hperform⟩
  · rw [← hformat] at hencodes
    obtain ⟨hframer, happended⟩ := Session.run_encode hencodes
    rw [hperform]
    refine ⟨?_, ?_⟩
    · rw [hframer, hformat, format_appendAll]
    · rw [happended, hout, bytes_appendAll]
  · have hkept : session.run (call.records.map .encode) = session := by
      rw [← hformat] at hencode
      rw [hrecords]
      change (session.perform (.encode record)).2 = session
      rw [Session.perform_encode, hencode]
    rw [hkept, hperform]
    exact ⟨hformat, hout⟩

theorem Echoes.run (h : Echoes session writer) (calls : List Call) :
    Echoes (session.run ((calls.flatMap Call.records).map .encode)) (writer.run calls) := by
  induction calls generalizing session writer with
  | nil => exact h
  | cons call calls ih =>
    have hrest := ih (h.perform call)
    rwa [Session.run, Session.run, ← List.foldl_append, ← List.map_append,
      ← List.flatMap_cons] at hrest

end Framers

/-- Whatever is asked of a new writer, it holds a frame for each record that it has accepted, in
order, and nothing else: a walk with any decoders comes to as many records as the writer counts, of
the same codes and lengths, and to the end of the bytes. A record that cannot be written leaves a
writer and the bytes that a framer sends as they were; any other is appended to both alike, so a
framer that is given all records of the calls sends what the writer holds. -/
theorem run_keeps_frames (format : WireFormat) (calls : List Call) :
    let writer := (new format).run calls
    let records := (new format).accepted calls
    records.length = writer.recordCount ∧
    (∀ registry, let cursor := Cursor.ofBytes format registry writer.bytes
      (∀ n, (cursor.record? n).isSome ↔ n < writer.recordCount) ∧
      cursor.items.length = writer.recordCount ∧ cursor.last.offset = writer.length ∧
      ∀ n record, records[n]? = some record → ∃ header span,
        cursor.record? n = some (header, span) ∧ header.recordType = record.code ∧
        header.size.toNat = span.length ∧ record.encode format = .ok span) ∧
    (∀ (call : Call) (record : Record), call.record? = some record →
      match record.encode format with
      | .ok span => (writer.perform call).1 = .ok span.length ∧
          (writer.perform call).2.bytes = writer.bytes ++ span ∧
          (writer.perform call).2.recordCount = writer.recordCount + 1 ∧
          ∀ (framer : Framer) (out : Bytes), framer.format = format →
            framer.encode record out = (.ok (), out ++ span)
      | .error fault => writer.perform call = (.error fault, writer) ∧
          ∀ (framer : Framer) (out : Bytes), framer.format = format →
            framer.encode record out = (.error fault, out)) ∧
    (∀ entries, (writer.perform (.counters entries)).1 =
      .ok (CounterBatch.split entries).length) ∧
    ∀ registry, ((Session.new format registry).run
      ((calls.flatMap Call.records).map .encode)).out = writer.bytes := by
  intro writer records
  have hholds : Holds format records writer := by
    have h := (holds_new format).run calls
    rwa [List.nil_append] at h
  obtain ⟨frames, hbytes, hcount, hencodes, hcodes⟩ := hholds.exists_frames
  refine ⟨?_, ?_, ?_, ?_, ?_⟩
  · have hlength := congrArg List.length hcodes
    rw [List.length_map, List.length_map] at hlength
    rw [hcount, hlength]
  · intro registry cursor
    have hframing : Framing.ofBytes format writer.bytes = ⟨frames, []⟩ := by
      rw [hbytes, Framing.ofBytes_join]
    have hrecord (n : Nat) : cursor.record? n =
        frames[n]?.map fun frame => (frame.header, frame.encode format) := by
      simp only [cursor, Cursor.record?_ofBytes, hframing]
    refine ⟨?_, ?_, ?_, ?_⟩
    · intro n
      rw [hrecord, hcount]
      simp
    · simp only [cursor, hbytes, Cursor.items_join, List.length_map, hcount]
    · simp only [cursor, Cursor.offset_last_ofBytes, hframing]
      rw [length, hbytes]
    · intro n record hget
      have hcode := congrArg (·[n]?) hcodes
      simp only [List.getElem?_map, hget, Option.map_some] at hcode
      obtain ⟨frame, hframe, hcode⟩ := Option.map_eq_some_iff.mp hcode
      have hencode := congrArg (·[n]?) hencodes
      simp only [List.getElem?_map, hget, hframe, Option.map_some, Option.some.injEq] at hencode
      refine ⟨frame.header, frame.encode format, ?_, hcode, ?_, hencode⟩
      · rw [hrecord, hframe, Option.map_some]
      · exact (frame.length_encode format).symm
  · intro call record hsingle
    have hperform := perform_of_record? writer hsingle
    rw [hholds.format_eq] at hperform
    cases hencode : record.encode format with
    | ok span =>
      rw [hencode] at hperform
      rw [hperform]
      refine ⟨rfl, bytes_append .., recordCount_append .., ?_⟩
      intro framer out hframer
      rw [Framer.encode, hframer, hencode]
    | error fault =>
      rw [hencode] at hperform
      refine ⟨hperform, ?_⟩
      intro framer out hframer
      rw [Framer.encode, hframer, hencode]
  · intro entries
    obtain ⟨frames, hperform, -⟩ := writeCounters_eq_appendAll writer entries
    rw [perform, hperform]
  · intro registry
    have hnew : Echoes (.new format registry) (new format) := ⟨rfl, rfl⟩
    exact (hnew.run calls).out_eq

/-- A sampler with a reserved selector is refused between two foreign records. -/
example :
    let record : ForeignRecord := ⟨0x4242, [1], by decide⟩
    let writer := (new {}).run [.record (.foreign record),
      .sampler ⟨1, 0, .explicit (-4), 1, 0⟩, .record (.foreign record)]
    writer.bytes = [66, 66, 5, 0, 1, 66, 66, 5, 0, 1] := by
  decide

end Writer

end ExporterRecords.Stream
