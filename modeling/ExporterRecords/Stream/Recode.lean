import ExporterRecords.Stream.Cursor
import ExporterRecords.Stream.Writer

/-!
# Changing the format of a stream

Each record is written in the new format before the next one is read, so the first fault of either
kind ends the work.
-/
namespace ExporterRecords.Stream

/-- Writes what a walk finds, up to the first item that is a fault or cannot be written. -/
def Writer.writeItems (writer : Writer) (items : List (Except Fault Record)) :
    Except Fault Writer :=
  items.foldlM (fun writer item => do writer.extend (← item)) writer

/-- A writer that holds the records of a buffer in another format. -/
def recode (source target : WireFormat) (bytes : Bytes) : Except Fault Writer :=
  (Writer.new target).writeItems (Cursor.ofBytes source .standard bytes).items

theorem Writer.writeItems_map_ok (writer : Writer) (records : List Record) :
    writer.writeItems (records.map .ok) = writer.writeAll records := by
  simp only [writeItems, writeAll, List.foldlM_map]
  rfl

theorem eq_map_ok_of_mapM_id {items : List (Except Fault Record)} {records : List Record}
    (h : items.mapM id = .ok records) : items = records.map .ok := by
  induction items generalizing records with
  | nil =>
    cases h
    rfl
  | cons item items ih =>
    cases item with
    | error fault => simp [List.mapM_cons, bind, Except.bind] at h
    | ok record =>
      cases hitems : items.mapM id with
      | error fault => simp [List.mapM_cons, hitems, bind, Except.bind] at h
      | ok others =>
        simp only [List.mapM_cons, hitems, id, bind, Except.bind, pure, Except.pure,
          Except.ok.injEq] at h
        rw [← h, ih hitems]
        rfl

/-- Where the whole buffer can be read, its records are written one after the other. -/
theorem recode_of_decodeAll {source target : WireFormat} {bytes : Bytes} {records : List Record}
    (h : decodeAll source bytes = .ok records) :
    recode source target bytes = (Writer.new target).writeAll records := by
  rw [recode, eq_map_ok_of_mapM_id h, Writer.writeItems_map_ok]

end ExporterRecords.Stream
