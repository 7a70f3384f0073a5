import ExporterRecords.Proofs.Ledger.Lifecycle
import ExporterRecords.Proofs.Limits
import ExporterRecords.Proofs.Stream.Batches

/-!
# Sample streams

A sample session of any size can be written as long as the counters of all its exporters fit into
one record, and it is read back as it was. A ledger that starts with it gets to know its exporters
one after the other and has nothing else to report.
-/
namespace ExporterRecords

namespace Ledger

/-- Notices of one exporter are reported by these events. Afterwards it has this entry, and the
other exporters have what they had. -/
structure Tells (ledger : Ledger) (sysid : UInt16) (notices : List Notice) (events : List Event)
    (entry : Entry) : Prop where
  events_eq : (ledger.learnAll notices).2 = events
  get?_eq : ∀ key, (ledger.learnAll notices).1.get? key =
    if key = sysid then some entry else ledger.get? key

namespace Tells

variable {ledger : Ledger} {sysid : UInt16} {notices : List Notice} {events : List Event}
  {entry : Entry}

theorem of_respond {notice : Notice} (hnumber : notice.number = sysid.toUInt32)
    (hrespond : respond (ledger.get? sysid) notice = (some entry, events)) :
    ledger.Tells sysid [notice] events entry := by
  obtain ⟨hevents, hget⟩ := @learn_of_number ledger notice sysid hnumber
  rw [hrespond] at hevents hget
  refine ⟨?_, hget⟩
  simp only [learnAll, hevents, List.append_nil]

/-- Further notices of the same exporter go on from what it has then. -/
theorem append {more : List Notice} {later : List Event} {last : Entry}
    (h : ledger.Tells sysid notices events entry)
    (hmore : ∀ next : Ledger, next.get? sysid = some entry → next.Tells sysid more later last) :
    ledger.Tells sysid (notices ++ more) (events ++ later) last := by
  have hknown := h.get?_eq sysid
  rw [if_pos rfl] at hknown
  have hnext := hmore _ hknown
  constructor
  · rw [learnAll_append, ← h.events_eq, ← hnext.events_eq]
  · intro key
    rw [learnAll_append]
    refine (hnext.get?_eq key).trans ?_
    by_cases hkey : key = sysid
    · rw [if_pos hkey, if_pos hkey]
    · rw [if_neg hkey, if_neg hkey, h.get?_eq, if_neg hkey]

end Tells

/-- Exporters that are told of in turn get their entries one by one. What each of them is told from
is what the ledger knew of it in the beginning. -/
theorem learnAll_in_turn {told : UInt16 → List Notice} {events : UInt16 → List Event}
    {entry : UInt16 → Entry} {ledger : Ledger} {sysids : List UInt16} (hnodup : sysids.Nodup)
    (h : ∀ sysid ∈ sysids, ∀ now : Ledger, now.get? sysid = ledger.get? sysid →
      now.Tells sysid (told sysid) (events sysid) (entry sysid)) :
    (ledger.learnAll (sysids.flatMap told)).2 = sysids.flatMap events ∧
      ∀ key, (ledger.learnAll (sysids.flatMap told)).1.get? key =
        if key ∈ sysids then some (entry key) else ledger.get? key := by
  induction sysids generalizing ledger with
  | nil => exact ⟨rfl, fun key => (if_neg List.not_mem_nil).symm⟩
  | cons sysid sysids ih =>
    rw [List.nodup_cons] at hnodup
    have hfirst := h sysid (List.mem_cons_self ..) ledger rfl
    -- No number comes twice, so what is known of the others is still what it was.
    have hothers : ∀ other ∈ sysids, ∀ now : Ledger,
        now.get? other = (ledger.learnAll (told sysid)).1.get? other →
          now.Tells other (told other) (events other) (entry other) := by
      intro other hmem now hnow
      have hne : other ≠ sysid := fun heq => hnodup.1 (heq ▸ hmem)
      rw [hfirst.get?_eq, if_neg hne] at hnow
      exact h other (List.mem_cons_of_mem _ hmem) now hnow
    obtain ⟨hevents, hget⟩ := ih hnodup.2 hothers
    rw [List.flatMap_cons, List.flatMap_cons, learnAll_append]
    constructor
    · simp only [hfirst.events_eq, hevents]
    · intro key
      refine (hget key).trans ?_
      by_cases hmem : key ∈ sysids
      · rw [if_pos hmem, if_pos (List.mem_cons_of_mem _ hmem)]
      · rw [if_neg hmem, hfirst.get?_eq]
        by_cases hkey : key = sysid
        · rw [if_pos hkey, hkey, if_pos (List.mem_cons_self ..)]
        · rw [if_neg hkey, if_neg (List.not_mem_cons_of_ne_of_not_mem hkey hmem)]

end Ledger

namespace Sample

open Ledger

/-- The numbers of the exporters below `count`. -/
def sysids (count : UInt16) : List UInt16 := (List.range count.toNat).map UInt16.ofNat

theorem mem_sysids_iff {count sysid : UInt16} : sysid ∈ sysids count ↔ sysid < count := by
  rw [sysids, List.mem_map, UInt16.lt_iff_toNat_lt]
  constructor
  · rintro ⟨n, hn, rfl⟩
    rw [List.mem_range] at hn
    rwa [UInt16.toNat_ofNat_of_lt' (Nat.lt_trans hn count.toNat_lt)]
  · intro hlt
    exact ⟨sysid.toNat, List.mem_range.mpr hlt, UInt16.ofNat_toNat⟩

theorem nodup_sysids (count : UInt16) : (sysids count).Nodup := by
  have hsmall {n : Nat} (hn : n ∈ List.range count.toNat) : (UInt16.ofNat n).toNat = n :=
    UInt16.toNat_ofNat_of_lt' (Nat.lt_trans (List.mem_range.mp hn) count.toNat_lt)
  refine List.Nodup.map_on ?_ List.nodup_range
  intro n hn m hm heq
  rw [← hsmall hn, ← hsmall hm, heq]

/-- The entry of a sample exporter before and after its counters have come. -/
def entry (counters : Option CounterSnapshot) (sysid : UInt16) : Entry :=
  ⟨exporter sysid, counters, [sampler sysid (100 + sysid.toUInt32)]⟩

theorem sysid_exporter (sysid : UInt16) : (exporter sysid).sysid = sysid := by
  unfold exporter
  dsimp only
  split <;> rfl

def introduction (sysid : UInt16) : List Notice :=
  [.exporter (exporter sysid), .sampler (sampler sysid (100 + sysid.toUInt32))]

theorem tells_introduction {ledger : Ledger} {sysid : UInt16} (h : ledger.get? sysid = none) :
    ledger.Tells sysid (introduction sysid) [.exporterAdded sysid] (entry none sysid) := by
  have hexporter : ledger.Tells sysid [.exporter (exporter sysid)] [.exporterAdded sysid]
      (.ofExporter (exporter sysid)) := by
    refine .of_respond (congrArg UInt16.toUInt32 (sysid_exporter sysid)) ?_
    rw [h, respond, sysid_exporter]
  refine hexporter.append fun next hnext => ?_
  refine .of_respond rfl ?_
  rw [hnext]
  rfl

theorem tells_counters {ledger : Ledger} {sysid : UInt16}
    (h : ledger.get? sysid = some (entry none sysid)) (round : UInt64) :
    ledger.Tells sysid [.counters (snapshot sysid round)] []
      (entry (some (snapshot sysid round)) sysid) := by
  refine .of_respond rfl ?_
  rw [h]
  rfl

/-- The flows of an exporter tell a ledger nothing. -/
theorem ofRecords_exporterRecords (sysid : UInt16) (flows : Nat) :
    Notice.ofRecords (exporterRecords sysid flows) = introduction sysid := by
  have hflows : ((List.range flows).map fun seed =>
      Record.foreign (flow (UInt8.ofNat seed))).flatMap Record.notices = [] := by
    simp [Record.notices]
  simp only [Notice.ofRecords, exporterRecords, List.flatMap_cons, hflows]
  rfl

theorem records_eq (count : UInt16) (flows : Nat) :
    records count flows = (sysids count).flatMap (exporterRecords · flows) ++
      [.counters ⟨(sysids count).map (snapshot · 1)⟩] := rfl

theorem ofRecords_records (count : UInt16) (flows : Nat) :
    Notice.ofRecords (records count flows) =
      (sysids count).flatMap introduction ++
        (sysids count).flatMap fun sysid => [.counters (snapshot sysid 1)] := by
  have hfirst : Notice.ofRecords ((sysids count).flatMap (exporterRecords · flows)) =
      (sysids count).flatMap introduction :=
    List.flatMap_assoc.trans (congrArg (List.flatMap · (sysids count))
      (funext fun sysid => ofRecords_exporterRecords sysid flows))
  have hlast : Notice.ofRecords [.counters ⟨(sysids count).map (snapshot · 1)⟩] =
      (sysids count).flatMap fun sysid => [.counters (snapshot sysid 1)] := by
    simp [Notice.ofRecords, Record.notices, List.map_eq_flatMap, List.flatMap_assoc]
  rw [records_eq, Notice.ofRecords_append, hfirst, hlast]

/-- A ledger of a sample session knows its exporters with their counters and samplers, and each was
reported as added in its turn. -/
theorem applyAll_records (count : UInt16) (flows : Nat) :
    let folded := empty.applyAll (records count flows)
    folded.2 = (sysids count).map .exporterAdded ∧
      ∀ sysid, folded.1.get? sysid =
        if sysid ∈ sysids count then some (entry (some (snapshot sysid 1)) sysid) else none := by
  intro folded
  have hfolded : folded = _ := applyAll_eq_learnAll empty (records count flows)
  rw [ofRecords_records, learnAll_append] at hfolded
  obtain ⟨hadded, hknown⟩ := @learnAll_in_turn introduction (fun sysid => [.exporterAdded sysid])
    (entry none) empty _ (nodup_sysids count) fun _ _ _ hnow => tells_introduction hnow
  obtain ⟨hquiet, hcounted⟩ := @learnAll_in_turn (fun sysid => [.counters (snapshot sysid 1)])
    (fun _ => []) (fun sysid => entry (some (snapshot sysid 1)) sysid)
    (empty.learnAll ((sysids count).flatMap introduction)).1 _ (nodup_sysids count)
    fun sysid hmem now hnow => by
      rw [hknown, if_pos hmem] at hnow
      exact tells_counters hnow 1
  rw [hfolded]
  constructor
  · change _ ++ _ = _
    rw [hadded, hquiet]
    simp [List.map_eq_flatMap]
  · intro sysid
    refine (hcounted sysid).trans ?_
    by_cases hmem : sysid ∈ sysids count
    · rw [if_pos hmem, if_pos hmem]
    · rw [if_neg hmem, if_neg hmem, hknown, if_neg hmem]
      rfl

theorem size_applyAll_records (count : UInt16) (flows : Nat) :
    (empty.applyAll (records count flows)).1.size = count.toNat := by
  have hevents := (applyAll_records count flows).1
  have hall : ∀ sysid ∈ sysids count, (Event.isAdded ∘ Event.exporterAdded) sysid = true :=
    fun _ _ => rfl
  rw [applyAll_eq_learnAll] at hevents ⊢
  rw [size_learnAll, hevents, List.countP_map, List.countP_eq_length.mpr hall, sysids,
    List.length_map, List.length_range]
  exact Nat.zero_add _

section Writing

open ExporterRecords.Stream

variable {format : WireFormat} {count : UInt16} {flows : Nat}

/-- Everything in a sample session can be written, except perhaps for its last record. -/
theorem writable_of_mem {record : Record}
    (h : record ∈ (sysids count).flatMap (exporterRecords · flows)) : record.Writable := by
  obtain ⟨sysid, -, hmem⟩ := List.mem_flatMap.mp h
  rw [exporterRecords, List.mem_cons, List.mem_cons, List.mem_map] at hmem
  rcases hmem with rfl | rfl | ⟨seed, -, rfl⟩
  · trivial
  · trivial
  · have hforeign : RecordKind.flowCode ≠ RecordKind.exporterCode ∧
        RecordKind.flowCode ≠ RecordKind.countersCode ∧
        RecordKind.flowCode ≠ RecordKind.samplerCode := by decide
    exact hforeign

theorem length_snapshots (count : UInt16) (round : UInt64) :
    ((sysids count).map (snapshot · round)).length = count.toNat := by
  rw [sysids, List.length_map, List.length_map, List.length_range]

theorem exists_stream (hfamilies : format.families.inet ≠ format.families.inet6)
    (hcount : count.toNat ≤ CounterBatch.capacity) (flows : Nat) :
    ∃ bytes, stream format count flows = .ok bytes ∧
      decodeAll format bytes = .ok (records count flows) := by
  have hrecords : ∀ record ∈ records count flows, record.Writable := by
    intro record hmem
    rw [records_eq, List.mem_append, List.mem_singleton] at hmem
    rcases hmem with hmem | rfl
    · exact writable_of_mem hmem
    · exact Nat.le_trans (Nat.le_of_eq (length_snapshots count 1)) hcount
  obtain ⟨frames, writer, hwritten, hbytes, hreads⟩ := exists_written hfamilies hrecords
  refine ⟨writer.bytes, ?_, decodeAll_eq_ok_iff.mpr ⟨frames, hbytes, hreads⟩⟩
  rw [stream, hwritten]
  rfl

/-- All records are written up to the counters, which are too many for one record. -/
theorem stream_eq_error (hfamilies : format.families.inet ≠ format.families.inet6)
    (hcount : CounterBatch.capacity < count.toNat) (flows : Nat) :
    stream format count flows = .error (.recordTooLarge 8 (8 + 24 * count.toNat)) := by
  have hformat : format.validate = .ok () := FamilyCodes.validate_eq_ok_iff.mpr hfamilies
  obtain ⟨frames, hencodes, -⟩ :=
    exists_frames hformat fun _ => @writable_of_mem count flows _
  let counters : Record := .counters ⟨(sysids count).map (snapshot · 1)⟩
  let writer := (Writer.new format).appendAll (frames.map (ForeignRecord.encode format))
  have hfirst : (Writer.new format).writeAll ((sysids count).flatMap (exporterRecords · flows)) =
      .ok writer := by
    rw [Writer.writeAll_eq_writeEach, Writer.writeEach_of_encode (Writer.new format) hencodes]
    rfl
  have hlast : writer.writeAll [counters] = .error (.recordTooLarge 8 (8 + 24 * count.toNat)) := by
    have hlength := length_snapshots count 1
    apply Writer.writeAll_cons_of_error
    rw [Writer.format_appendAll, ← hlength]
    exact CounterBatch.encode_eq_error_iff.mpr ⟨hlength.symm ▸ hcount, rfl⟩
  rw [stream, records_eq, Writer.writeAll_append, hfirst, Except.bind, hlast]
  rfl

end Writing

/-- A sample stream is written exactly if the counters of its exporters fit into one record. Then it
is read back as the session that it was written from. A ledger that starts with a session reports
each exporter as added, in ascending order and without anything else, and knows of each what the
session told. -/
theorem stream_round_trip (format : WireFormat)
    (hfamilies : format.families.inet ≠ format.families.inet6) (count : UInt16) (flows : Nat) :
    ((∃ bytes, stream format count flows = .ok bytes) ↔ count.toNat ≤ CounterBatch.capacity) ∧
    (CounterBatch.capacity < count.toNat →
      stream format count flows = .error (.recordTooLarge 8 (8 + 24 * count.toNat))) ∧
    (∀ bytes, stream format count flows = .ok bytes →
      Stream.decodeAll format bytes = .ok (records count flows)) ∧
    let folded := empty.applyAll (records count flows)
    folded.2 = (List.range count.toNat).map (fun n => .exporterAdded (UInt16.ofNat n)) ∧
    folded.1.size = count.toNat ∧
    ∀ sysid, folded.1.get? sysid = if sysid < count then
      some ⟨exporter sysid, some (snapshot sysid 1), [sampler sysid (100 + sysid.toUInt32)]⟩
    else none := by
  have hgranted : (∃ bytes, stream format count flows = .ok bytes) →
      count.toNat ≤ CounterBatch.capacity := by
    rintro ⟨bytes, hbytes⟩
    apply Nat.le_of_not_lt
    intro hlarge
    rw [stream_eq_error hfamilies hlarge] at hbytes
    cases hbytes
  refine ⟨⟨hgranted, ?_⟩, fun hlarge => stream_eq_error hfamilies hlarge flows, ?_, ?_, ?_, ?_⟩
  · intro hcount
    obtain ⟨bytes, hbytes, -⟩ := exists_stream hfamilies hcount flows
    exact ⟨bytes, hbytes⟩
  · intro bytes hbytes
    obtain ⟨written, hwritten, hread⟩ := exists_stream hfamilies (hgranted ⟨bytes, hbytes⟩) flows
    rw [hbytes, Except.ok.injEq] at hwritten
    rw [hwritten, hread]
  · rw [(applyAll_records count flows).1, sysids, List.map_map]
    rfl
  · exact size_applyAll_records count flows
  · intro sysid
    rw [(applyAll_records count flows).2]
    simp only [mem_sysids_iff]
    rfl

/-- A session of two exporters, and one that is too large by one exporter. -/
theorem stream_round_trip_of_two :
    (∃ bytes, stream {} 2 1 = .ok bytes ∧ Stream.decodeAll {} bytes = .ok (records 2 1)) ∧
    (empty.applyAll (records 2 1)).2 = [.exporterAdded 0, .exporterAdded 1] ∧
    stream {} 2731 0 = .error (.recordTooLarge 8 65552) := by
  obtain ⟨hgranted, -, hread, hevents, -⟩ := stream_round_trip {} (by decide) 2 1
  obtain ⟨bytes, hbytes⟩ := hgranted.mpr (by decide)
  have hlarge := (stream_round_trip {} (by decide) 2731 0).2.1 (by decide)
  exact ⟨⟨bytes, hbytes, hread bytes hbytes⟩, hevents, hlarge⟩

end Sample

end ExporterRecords
