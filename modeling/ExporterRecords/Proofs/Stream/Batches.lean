import ExporterRecords.Proofs.Ledger.Notices
import ExporterRecords.Proofs.Stream.RoundTrip
import Mathlib.Algebra.Order.BigOperators.Group.List
import Mathlib.Algebra.Order.Floor.Div

/-!
# Counters in batches

Counters that are too many for one record go out in several. Each of these fits its header, whatever
a format says of families, and whoever takes all of them in learns what the one record that was too
long would have told. All but the last are full, so no fewer records could hold the same counters.
-/
namespace ExporterRecords

namespace CounterBatch

/-- Together the batches hold all counters, in order. -/
theorem flatMap_entries_split (entries : List CounterSnapshot) :
    (split entries).flatMap (·.entries) = entries := by
  induction entries using split.induct with
  | case1 => rw [split, List.flatMap_nil]
  | case2 entry rest ih =>
    rw [split, List.flatMap_cons, ih, List.cons_append, List.take_append_drop]

theorem length_le_of_mem_split {entries : List CounterSnapshot} {batch : CounterBatch}
    (h : batch ∈ split entries) : batch.entries.length ≤ capacity := by
  induction entries using split.induct with
  | case1 =>
    rw [split] at h
    cases h
  | case2 entry rest ih =>
    rw [split, List.mem_cons] at h
    rcases h with rfl | hlater
    · have hfirst : (rest.take (capacity - 1)).length ≤ capacity - 1 := List.length_take_le ..
      have hpositive : 0 < capacity := by decide
      rw [List.length_cons]
      omega
    · exact ih hlater

theorem ne_nil_of_mem_split {entries : List CounterSnapshot} {batch : CounterBatch}
    (h : batch ∈ split entries) : batch.entries ≠ [] := by
  induction entries using split.induct with
  | case1 =>
    rw [split] at h
    cases h
  | case2 entry rest ih =>
    rw [split, List.mem_cons] at h
    rcases h with rfl | hlater
    · exact List.cons_ne_nil entry _
    · exact ih hlater

theorem split_eq_nil_iff {entries : List CounterSnapshot} : split entries = [] ↔ entries = [] := by
  cases entries <;> simp [split]

/-- Only the last batch can have room left. -/
theorem length_eq_of_mem_dropLast_split {entries : List CounterSnapshot} {batch : CounterBatch}
    (h : batch ∈ (split entries).dropLast) : batch.entries.length = capacity := by
  induction entries using split.induct with
  | case1 =>
    rw [split] at h
    cases h
  | case2 entry rest ih =>
    rw [split] at h
    by_cases hlast : split (rest.drop (capacity - 1)) = []
    · rw [hlast] at h
      cases h
    · rw [List.dropLast_cons_of_ne_nil hlast, List.mem_cons] at h
      rcases h with rfl | hlater
      · -- Entries are left for a later batch, so this one took as many as it could.
        have hmore : capacity - 1 ≤ rest.length := by
          rw [split_eq_nil_iff, List.drop_eq_nil_iff] at hlast
          exact Nat.le_of_not_le hlast
        have hpositive : 0 < capacity := by decide
        rw [List.length_cons, List.length_take_of_le hmore, Nat.sub_add_cancel hpositive]
      · exact ih hlater

theorem length_split (entries : List CounterSnapshot) :
    (split entries).length = entries.length ⌈/⌉ capacity := by
  have hpositive : 0 < capacity := by decide
  induction entries using split.induct with
  | case1 => rw [split, List.length_nil, List.length_nil, zero_ceilDiv]
  | case2 entry rest ih =>
    have hceil : (rest.length + 1) ⌈/⌉ capacity = rest.length / capacity + 1 := by
      rw [Nat.ceilDiv_eq_add_pred_div, Nat.add_right_comm, Nat.add_sub_cancel,
        Nat.add_div_right _ hpositive]
    rw [split, List.length_cons, List.length_cons, ih, List.length_drop, hceil]
    rcases Nat.lt_or_ge rest.length (capacity - 1) with hfew | hmany
    · rw [Nat.sub_eq_zero_of_le (Nat.le_of_lt hfew), zero_ceilDiv,
        Nat.div_eq_of_lt (Nat.lt_of_lt_of_le hfew (Nat.sub_le ..))]
    · have hrest : rest.length - (capacity - 1) + capacity - 1 = rest.length := by omega
      rw [Nat.ceilDiv_eq_add_pred_div, hrest]

theorem length_flatMap_entries_le {batches : List CounterBatch}
    (h : ∀ batch ∈ batches, batch.entries.length ≤ capacity) :
    (batches.flatMap (·.entries)).length ≤ capacity * batches.length := by
  have hsum := List.sum_le_card_nsmul (batches.map (·.entries.length)) capacity
    (List.forall_mem_map.mpr h)
  rw [List.length_flatMap]
  rwa [List.length_map, smul_eq_mul, Nat.mul_comm] at hsum

/-- However counters are spread over batches that fit, splitting them needs no more of these. -/
theorem length_split_le {batches : List CounterBatch}
    (h : ∀ batch ∈ batches, batch.entries.length ≤ capacity) :
    (split (batches.flatMap (·.entries))).length ≤ batches.length := by
  have hpositive : 0 < capacity := by decide
  rw [length_split, ceilDiv_le_iff_le_mul hpositive]
  exact length_flatMap_entries_le h

theorem length_le_of_encode {format : WireFormat} {batch : CounterBatch} {span : Bytes}
    (h : Layout.encode format batch = .ok span) : batch.entries.length ≤ capacity := by
  obtain ⟨frame, -, -, hlength⟩ := Layout.exists_frame_of_encode (fun _ => length_of_encodeBody) h
  apply encodedLength_le_iff.mp
  rw [Layout.encodedLength, ← hlength]
  exact frame.fits

end CounterBatch

theorem Notice.ofRecords_counters (batches : List CounterBatch) :
    ofRecords (batches.map .counters) = (Record.counters ⟨batches.flatMap (·.entries)⟩).notices := by
  rw [ofRecords, List.flatMap_map, Record.notices, List.map_flatMap]
  rfl

/-- A ledger learns from batches what it would learn from one record with all their counters. -/
theorem Ledger.applyAll_counters (ledger : Ledger) (batches : List CounterBatch) :
    ledger.applyAll (batches.map .counters) =
      ledger.apply (.counters ⟨batches.flatMap (·.entries)⟩) := by
  rw [applyAll_eq_learnAll, apply_eq_learnAll, Notice.ofRecords_counters]

namespace Stream

open Stream.Frame

namespace Writer

@[simp] theorem format_appendAll (writer : Writer) (spans : List Bytes) :
    (writer.appendAll spans).format = writer.format := by
  induction spans generalizing writer with
  | nil => rfl
  | cons span spans ih => exact ih (writer.append span)

/-- Batches that can all be written are written one behind the other. -/
theorem writeBatches_of_encode (writer : Writer) {batches : List CounterBatch} {spans : List Bytes}
    (h : batches.map (Layout.encode writer.format) = spans.map .ok) :
    writer.writeBatches batches = (.ok batches.length, writer.appendAll spans) := by
  induction batches generalizing writer spans with
  | nil =>
    cases List.map_eq_nil_iff.mp h.symm
    rfl
  | cons batch batches ih =>
    cases spans with
    | nil => cases h
    | cons span spans =>
      rw [List.map_cons, List.map_cons, List.cons.injEq] at h
      obtain ⟨hencode, hothers⟩ := h
      have hwritten : writer.writeLayout batch = (.ok span.length, writer.append span) := by
        rw [writeLayout, hencode, appendEncoded]
      rw [writeBatches, hwritten]
      simp only [ih (writer.append span) hothers]
      rfl

/-- Counters of any number are written by appending frames that hold them. -/
theorem writeCounters_eq_appendAll (writer : Writer) (entries : List CounterSnapshot) :
    let batches := CounterBatch.split entries
    ∃ frames : List Frame,
      writer.writeCounters entries = (.ok batches.length,
        writer.appendAll (frames.map (ForeignRecord.encode writer.format))) ∧
      (batches.map Record.counters).map (Record.encode writer.format) =
        (frames.map (ForeignRecord.encode writer.format)).map .ok ∧
      frames.map (Registry.standard.decodeFrame writer.format) =
        (batches.map Record.counters).map .ok := by
  intro batches
  have heach : ∀ record ∈ batches.map Record.counters, ∃ frame : Frame,
      record.encode writer.format = .ok (frame.encode writer.format) ∧
        Registry.standard.decodeFrame writer.format frame = .ok record := by
    intro record hmem
    obtain ⟨batch, hbatch, rfl⟩ := List.mem_map.mp hmem
    exact Record.exists_frame_counters writer.format (CounterBatch.length_le_of_mem_split hbatch)
  obtain ⟨frames, hencodes, hreads⟩ := exists_frames_of_each heach
  refine ⟨frames, writeBatches_of_encode writer ?_, hencodes, hreads⟩
  rwa [List.map_map] at hencodes

/-- Nobody can tell from a stream that counters were split into batches: they are always written,
the bytes that this appends are read as counters only, and any ledger that takes these in ends up
with the entries and reports the events that it would have from one record with all counters in it,
be they more than a record can hold. -/
theorem applyAll_of_writeCounters (writer : Writer) (entries : List CounterSnapshot)
    (ledger : Ledger) :
    ∃ (batches : List CounterBatch) (after : Writer) (appended : Bytes),
      writer.writeCounters entries = (.ok batches.length, after) ∧
      after.bytes = writer.bytes ++ appended ∧
      after.recordCount = writer.recordCount + batches.length ∧
      decodeAll writer.format appended = .ok (batches.map .counters) ∧
      ledger.applyAll (batches.map .counters) = ledger.apply (.counters ⟨entries⟩) := by
  obtain ⟨frames, hwritten, -, hreads⟩ := writeCounters_eq_appendAll writer entries
  have hlength : frames.length = (CounterBatch.split entries).length := by
    simpa using congrArg List.length hreads
  refine ⟨CounterBatch.split entries, _, _, hwritten, bytes_appendAll .., ?_, ?_, ?_⟩
  · rw [recordCount_appendAll, List.length_map, hlength]
  · exact decodeAll_eq_ok_iff.mpr ⟨frames, rfl, hreads⟩
  · rw [Ledger.applyAll_counters, CounterBatch.flatMap_entries_split]

/-- Counters of any number are written behind what a writer holds, whatever its format, and nothing
of them is lost: the bytes that this appends are read as batches that hold the counters in order.
Every batch but the last is full and none is empty, so there are no fewer records that can be
written and hold the same. -/
theorem writeCounters_fewest (writer : Writer) (entries : List CounterSnapshot) :
    ∃ (batches : List CounterBatch) (after : Writer) (appended : Bytes),
      writer.writeCounters entries = (.ok batches.length, after) ∧
      batches.length = entries.length ⌈/⌉ CounterBatch.capacity ∧
      after.format = writer.format ∧
      after.recordCount = writer.recordCount + batches.length ∧
      after.bytes = writer.bytes ++ appended ∧
      decodeAll writer.format appended = .ok (batches.map .counters) ∧
      (∀ batch ∈ batches.dropLast, batch.entries.length = CounterBatch.capacity) ∧
      (∀ batch ∈ batches, batch.entries ≠ []) ∧
      batches.flatMap (·.entries) = entries ∧
      ∀ (format : WireFormat) (others : List CounterBatch),
        others.flatMap (·.entries) = entries →
        (∀ batch ∈ others, ∃ span, Layout.encode format batch = .ok span) →
        batches.length ≤ others.length := by
  obtain ⟨frames, hwritten, -, hreads⟩ := writeCounters_eq_appendAll writer entries
  have hlength : frames.length = (CounterBatch.split entries).length := by
    simpa using congrArg List.length hreads
  refine ⟨CounterBatch.split entries, _, _, hwritten, CounterBatch.length_split entries,
    format_appendAll .., ?_, bytes_appendAll .., decodeAll_eq_ok_iff.mpr ⟨frames, rfl, hreads⟩,
    fun _ => CounterBatch.length_eq_of_mem_dropLast_split,
    fun _ => CounterBatch.ne_nil_of_mem_split, CounterBatch.flatMap_entries_split entries, ?_⟩
  · rw [recordCount_appendAll, List.length_map, hlength]
  · intro format others hentries hwritable
    rw [← hentries]
    apply CounterBatch.length_split_le
    intro batch hmem
    obtain ⟨span, hspan⟩ := hwritable batch hmem
    exact CounterBatch.length_le_of_encode hspan

end Writer

end Stream

end ExporterRecords
