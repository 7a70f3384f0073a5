import ExporterRecords.Proofs.Ledger.Regressions

/-!
# The life of an exporter

An exporter becomes known with its first record and stays known. Each later record of it is
compared with the one before: another device takes the number over, the same device comes back in
another version, or nothing has changed. Whatever else comes for a number before the first record of
its exporter changes nothing and is reported.
-/
namespace ExporterRecords.Ledger

open Notice

/-- Whether an event says that an exporter is known from now on. -/
def Event.isAdded : Event → Bool
  | exporterAdded _ => true
  | _ => false

/-- Whether an event says that a record was for an exporter that is not known. -/
def Event.isUnknown : Event → Bool
  | unknownExporter .. => true
  | _ => false

variable {ledger : Ledger} {sysid : UInt16} {notices : List Notice}

theorem sameDevice_eq_true_iff {previous exporter : Exporter} :
    previous.sameDevice exporter = true ↔
      previous.address = exporter.address ∧ previous.id = exporter.id := by
  simp [Exporter.sameDevice]

section Size

theorem size_update_of_known {entry : Entry} (h : ledger.get? sysid = some entry)
    (change : Entry × List Event) : (ledger.update sysid change).1.size = ledger.size := by
  have hknown : ¬ ledger.entries.get? sysid = none := by
    rw [← get?, h]
    exact Option.some_ne_none entry
  exact (CodeMap.size_insert ..).trans (if_neg hknown)

theorem size_update_of_unknown (h : ledger.get? sysid = none) (change : Entry × List Event) :
    (ledger.update sysid change).1.size = ledger.size + 1 :=
  (CodeMap.size_insert ..).trans (if_pos h)

/-- Nothing but the first record of an exporter says that it is known from now on. -/
theorem countP_isAdded_respond_some (entry : Entry) (notice : Notice) :
    (respond (some entry) notice).2.countP Event.isAdded = 0 := by
  rw [List.countP_eq_zero]
  intro event hmem
  cases mem_respond_iff.mp hmem with
  | added unseen => cases unseen
  | _ => exact Bool.false_ne_true

/-- A ledger grows by one entry with each exporter that it reports as added. -/
theorem size_learn (ledger : Ledger) (notice : Notice) :
    (ledger.learn notice).1.size =
      ledger.size + (ledger.learn notice).2.countP Event.isAdded := by
  by_cases hnamed : ∃ sysid : UInt16, notice.number = sysid.toUInt32
  · obtain ⟨sysid, hsysid⟩ := hnamed
    rw [events_learn hsysid, learn_eq_respond hsysid]
    cases hknown : ledger.get? sysid with
    | some entry =>
      obtain ⟨next, hnext⟩ := respond_some entry notice
      rw [countP_isAdded_respond_some, Nat.add_zero]
      cases hrespond : respond (some entry) notice with
      | mk stored events =>
        rw [hrespond] at hnext
        cases hnext
        exact size_update_of_known hknown _
    | none =>
      cases notice with
      | exporter exporter => exact size_update_of_unknown hknown _
      | counters snapshot => rfl
      | sampler sampler => rfl
  · rw [learn_of_stranger fun sysid hsysid => hnamed ⟨sysid, hsysid⟩]
    rfl

theorem size_learnAll (ledger : Ledger) (notices : List Notice) :
    (ledger.learnAll notices).1.size =
      ledger.size + (ledger.learnAll notices).2.countP Event.isAdded := by
  induction notices generalizing ledger with
  | nil => rfl
  | cons notice notices ih =>
    simp only [learnAll, ih, size_learn, List.countP_append]
    omega

end Size

/-- What an exporter record changes and reports is told by the record before it. -/
theorem learn_exporter {exporter : Exporter} (hsysid : exporter.sysid = sysid) :
    let answer := (ofNotices notices).learn (.exporter exporter)
    match (exportersOf sysid notices).getLast? with
    | none =>
      answer.2 = [.exporterAdded sysid] ∧ answer.1.get? sysid = some ⟨exporter, none, []⟩
    | some previous =>
      if previous.address = exporter.address ∧ previous.id = exporter.id then
        answer.2 = (if previous.version = exporter.version then []
          else [.versionChanged sysid previous.version exporter.version]) ∧
        answer.1.get? sysid = ((ofNotices notices).get? sysid).map ({ · with exporter })
      else
        answer.2 = [.exporterReplaced sysid previous] ∧
        answer.1.get? sysid = some ⟨exporter, none, []⟩ := by
  intro answer
  have hnumber : (Notice.exporter exporter).number = sysid.toUInt32 :=
    congrArg UInt16.toUInt32 hsysid
  have hevents : answer.2 = _ := events_learn hnumber
  have hentry : answer.1.get? sysid = _ := get?_learn hnumber
  rw [← exporter_ofNotices, hevents, hentry]
  cases (ofNotices notices).get? sysid with
  | none => exact ⟨by rw [respond, hsysid], rfl⟩
  | some entry =>
    simp only [Option.map_some, respond, Entry.announce, hsysid, sameDevice_eq_true_iff]
    split
    · exact ⟨rfl, rfl⟩
    · exact ⟨rfl, rfl⟩

/-- The counters that an entry holds came under its own number. -/
theorem sysid_of_counters {entry : Entry} {snapshot : CounterSnapshot}
    (hknown : (ofNotices notices).get? sysid = some entry)
    (hcounters : entry.counters = some snapshot) : snapshot.sysid = sysid.toUInt32 := by
  have hbaseline := counters_ofNotices sysid notices
  rw [hknown, Option.bind_some, hcounters, baseline] at hbaseline
  obtain ⟨session, -, hlast⟩ := Option.bind_eq_some_iff.mp hbaseline.symm
  obtain ⟨notice, -, hnotice⟩ := List.mem_filterMap.mp (List.mem_of_getLast? hlast)
  exact (snapshot?_eq_some_iff.mp hnotice).2

/-- A known exporter is not reported as unknown. -/
theorem not_isUnknown_respond_some {entry : Entry} {notice : Notice} {event : Event}
    (h : event ∈ (respond (some entry) notice).2) : event.isUnknown = false := by
  cases mem_respond_iff.mp h with
  | strangeCounters unseen => cases unseen
  | strangeSampler unseen => cases unseen
  | _ => rfl

/-- A notice that cannot make its exporter known changes nothing and is reported as long as no
record of the exporter has come, and never after that. -/
theorem learn_unless_seen {records : List Record} {notice : Notice} {event : Event}
    (hnumber : notice.number = sysid.toUInt32) (hunknown : respond none notice = (none, [event])) :
    let ledger := ofNotices (ofRecords records)
    let seen := ∃ exporter, .exporter exporter ∈ records ∧ exporter.sysid = sysid
    (¬ seen → ledger.learn notice = (ledger, [event])) ∧
      (seen → ∀ event ∈ (ledger.learn notice).2, event.isUnknown = false) := by
  intro ledger seen
  rw [learn_eq_respond hnumber]
  constructor
  · intro hunseen
    cases hknown : ledger.get? sysid with
    | none => rw [hunknown]
    | some entry => exact absurd (known_iff.mp ⟨entry, hknown⟩) hunseen
  · intro hseen
    obtain ⟨entry, hknown⟩ := known_iff.mpr hseen
    intro event hmem
    rw [← learn_eq_respond hnumber, events_learn hnumber, hknown] at hmem
    exact not_isUnknown_respond_some hmem

/-- A number beyond 16 bits is no exporter's. -/
theorem ne_toUInt32_of_lt {number : UInt32} (h : 65535 < number.toNat) (sysid : UInt16) :
    number ≠ sysid.toUInt32 := by
  rintro rfl
  have hlt := sysid.toNat_lt
  rw [UInt16.toNat_toUInt32] at h
  omega

theorem apply_counters_singleton (ledger : Ledger) (snapshot : CounterSnapshot) :
    ledger.apply (.counters ⟨[snapshot]⟩) = ledger.learn (.counters snapshot) := by
  rw [apply_eq_learnAll]
  simp only [Record.notices, List.map_cons, List.map_nil, learnAll, List.append_nil]

/-- A batch of counters is taken in like its snapshots one after the other. -/
theorem apply_counters (ledger : Ledger) (batch : CounterBatch) :
    ledger.apply (.counters batch) =
      ledger.applyAll (batch.entries.map fun snapshot => .counters ⟨[snapshot]⟩) := by
  rw [apply_eq_learnAll, applyAll_eq_learnAll]
  congr 1
  simp only [ofRecords, Record.notices, List.flatMap_map, List.map_cons, List.map_nil]
  exact List.map_eq_flatMap

/-- In any run, an exporter is added by its first record, and each later record of it is compared
with the one before. The ledger holds the latest record, forgets no exporter, and counts those that
were added. Counters and samplers of an exporter without a record change nothing and are reported,
and so are counters with a number that no exporter can have. -/
theorem lifecycle_of_run (records : List Record) (sysid : UInt16) :
    let ledger := (empty.applyAll records).1
    let latest := (exportersOf sysid (ofRecords records)).getLast?
    let seen := ∃ exporter, .exporter exporter ∈ records ∧ exporter.sysid = sysid
    (∀ exporter : Exporter, exporter.sysid = sysid →
      let answer := ledger.apply (.exporter exporter)
      match latest with
      | none =>
        answer.2 = [.exporterAdded sysid] ∧ answer.1.get? sysid = some ⟨exporter, none, []⟩
      | some previous =>
        if previous.address = exporter.address ∧ previous.id = exporter.id then
          answer.2 = (if previous.version = exporter.version then []
            else [.versionChanged sysid previous.version exporter.version]) ∧
          answer.1.get? sysid = (ledger.get? sysid).map ({ · with exporter })
        else
          answer.2 = [.exporterReplaced sysid previous] ∧
          answer.1.get? sysid = some ⟨exporter, none, []⟩) ∧
    (ledger.get? sysid).map (·.exporter) = latest ∧
    (∀ entry snapshot, ledger.get? sysid = some entry → entry.counters = some snapshot →
      snapshot.sysid = sysid.toUInt32) ∧
    (∀ more entry, ledger.get? sysid = some entry →
      ∃ later, (empty.applyAll (records ++ more)).1.get? sysid = some later) ∧
    ledger.size = (empty.applyAll records).2.countP Event.isAdded ∧
    (∀ batch, ledger.apply (.counters batch) =
      ledger.applyAll (batch.entries.map fun snapshot => .counters ⟨[snapshot]⟩)) ∧
    (∀ snapshot : CounterSnapshot, snapshot.sysid = sysid.toUInt32 →
      let answer := ledger.apply (.counters ⟨[snapshot]⟩)
      (¬ seen → answer = (ledger, [.unknownExporter sysid.toUInt32 8])) ∧
      (seen → ∀ event ∈ answer.2, event.isUnknown = false)) ∧
    (∀ sampler : Sampler, sampler.exporterSysid = sysid →
      let answer := ledger.apply (.sampler sampler)
      (¬ seen → answer = (ledger, [.unknownExporter sysid.toUInt32 15])) ∧
      (seen → ∀ event ∈ answer.2, event.isUnknown = false)) ∧
    ∀ snapshot : CounterSnapshot, 65535 < snapshot.sysid.toNat →
      ledger.apply (.counters ⟨[snapshot]⟩) = (ledger, [.unknownExporter snapshot.sysid 8]) := by
  intro ledger latest seen
  have hledger : ledger = ofNotices (ofRecords records) := applyAll_empty records
  refine ⟨?_, ?_, ?_, ?_, ?_, apply_counters ledger, ?_, ?_, ?_⟩
  · intro exporter hsysid
    rw [hledger]
    exact learn_exporter hsysid
  · rw [hledger]
    exact exporter_ofNotices sysid (ofRecords records)
  · intro entry snapshot hknown hcounters
    rw [hledger] at hknown
    exact sysid_of_counters hknown hcounters
  · intro more entry hknown
    rw [hledger] at hknown
    obtain ⟨exporter, hmem, hsysid⟩ := known_iff.mp ⟨entry, hknown⟩
    rw [applyAll_empty]
    exact known_iff.mpr ⟨exporter, List.mem_append_left more hmem, hsysid⟩
  · rw [applyAll_eq_learnAll, hledger, ofNotices, size_learnAll]
    exact Nat.zero_add _
  · intro snapshot hsysid
    rw [apply_counters_singleton, hledger]
    exact learn_unless_seen hsysid (by rw [respond, hsysid]; rfl)
  · intro sampler hsysid
    rw [hledger]
    have hnumber : (Notice.sampler sampler).number = sysid.toUInt32 :=
      congrArg UInt16.toUInt32 hsysid
    exact learn_unless_seen hnumber (by rw [respond, hsysid]; rfl)
  · intro snapshot hwide
    rw [apply_counters_singleton]
    exact learn_of_stranger (ne_toUInt32_of_lt hwide)

end ExporterRecords.Ledger
