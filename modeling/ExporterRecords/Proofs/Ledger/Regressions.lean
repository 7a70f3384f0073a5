import ExporterRecords.Proofs.Ledger.Sessions
import Mathlib.Data.List.Chain

/-!
# Counters that go backwards

A snapshot is compared with the one before it in the same session, be that in an earlier record or
further in front in the same one. Each counter that is smaller now is reported, in the order of the
record's fields, and nothing else is. So a run reports nothing of an exporter exactly if in each of
its sessions no counter ever goes backwards.
-/
namespace ExporterRecords

/-- A snapshot is at most another one if each of its counters is. -/
instance : LE CounterSnapshot where
  le previous current := ∀ counter : Counter, counter.value previous ≤ counter.value current

namespace Ledger

open Notice

/-- The snapshot with which the next one is compared. -/
def baseline (sysid : UInt16) (notices : List Notice) : Option CounterSnapshot :=
  (sessions sysid notices).head?.bind fun session => (snapshotsOf sysid session).getLast?

variable {sysid : UInt16} {notices : List Notice}

@[simp] theorem counters_count (entry : Entry) (snapshot : CounterSnapshot) :
    (entry.count snapshot).1.counters = some snapshot := rfl

@[simp] theorem counters_sample (entry : Entry) (sampler : Sampler) :
    (entry.sample sampler).1.counters = entry.counters := rfl

/-- The counters of an exporter are those counted last in its session. -/
theorem reads_counters (sysid : UInt16) :
    Reads sysid Entry.counters fun session => (snapshotsOf sysid session).getLast? where
  start _ := rfl
  other session notice hnumber := by simp [snapshotsOf, snapshot?_of_ne hnumber]
  exporter session entry exporter h := by simpa [snapshotsOf, List.filterMap_cons] using h
  counters session entry snapshot hsysid _ := by simp [snapshotsOf, snapshot?, hsysid]
  sampler session entry sampler _ h := by simpa [snapshotsOf, List.filterMap_cons] using h

theorem counters_ofNotices (sysid : UInt16) (notices : List Notice) :
    ((ofNotices notices).get? sysid).bind (·.counters) = baseline sysid notices := by
  have h := (reads_counters sysid).get?_ofNotices notices
  rw [baseline]
  cases hknown : (ofNotices notices).get? sysid with
  | none =>
    rw [hknown] at h
    rw [Option.map_eq_none_iff.mp h.symm]
    rfl
  | some entry =>
    rw [hknown] at h
    obtain ⟨session, hsession, hcounters⟩ := Option.map_eq_some_iff.mp h.symm
    rw [hsession, Option.bind_some, Option.bind_some, hcounters]

/-- A snapshot of a known exporter is compared with the baseline and becomes the next one. -/
theorem learn_counters {snapshot : CounterSnapshot} (hsysid : snapshot.sysid = sysid.toUInt32)
    {entry : Entry} (hknown : (ofNotices notices).get? sysid = some entry) :
    ((ofNotices notices).learn (.counters snapshot)).2 = (match baseline sysid notices with
        | none => []
        | some previous => setbacks sysid previous snapshot) ∧
      ((ofNotices notices).learn (.counters snapshot)).1.get? sysid =
        some { entry with counters := some snapshot } := by
  have hnumber : (Notice.counters snapshot).number = sysid.toUInt32 := hsysid
  have hbaseline := counters_ofNotices sysid notices
  rw [hknown, Option.bind_some] at hbaseline
  rw [events_learn hnumber, get?_learn hnumber, hknown, ← hbaseline]
  refine ⟨?_, rfl⟩
  rw [respond, Entry.count, sysid_of_get? hknown]
  cases entry.counters with
  | none => rfl
  | some previous => exact regressions_eq_setbacks sysid previous snapshot

/-- What a notice reports as a regression of an exporter is told by the exporter's baseline. -/
theorem regression_mem_learn_iff {notice : Notice} {counter : Counter} {before after : UInt64} :
    .counterRegression sysid counter before after ∈ ((ofNotices notices).learn notice).2 ↔
      ∃ snapshot previous, notice.snapshot? sysid = some snapshot ∧
        baseline sysid notices = some previous ∧
        counter.value snapshot < counter.value previous ∧
        before = counter.value previous ∧ after = counter.value snapshot := by
  constructor
  · intro h
    rcases brings_of_mem_learn h with ⟨key, hkey, hbrings⟩ | hunknown
    · cases hbrings with
      | @setback snapshot previous entry _ seen counted less =>
        have hkeyed := sysid_of_get? seen
        subst hkeyed
        have hbaseline := counters_ofNotices entry.exporter.sysid notices
        rw [seen, Option.bind_some, counted] at hbaseline
        exact ⟨snapshot, previous, if_pos hkey, hbaseline.symm, less, rfl, rfl⟩
    · cases hunknown
  · rintro ⟨snapshot, previous, hsnapshot, hbaseline, hless, rfl, rfl⟩
    obtain ⟨rfl, hsysid⟩ := snapshot?_eq_some_iff.mp hsnapshot
    have hcounters := (counters_ofNotices sysid notices).trans hbaseline
    obtain ⟨entry, hknown, -⟩ := Option.bind_eq_some_iff.mp hcounters
    rw [(learn_counters hsysid hknown).1, hbaseline]
    exact mem_setbacks_iff.mpr ⟨counter, hless, rfl⟩

/-- The snapshots of each session climb exactly as long as each new one is at least the baseline. -/
theorem climbing_concat_iff (notices : List Notice) (notice : Notice) :
    (∀ session ∈ sessions sysid (notices ++ [notice]),
        (snapshotsOf sysid session).IsChain (· ≤ ·)) ↔
      (∀ session ∈ sessions sysid notices, (snapshotsOf sysid session).IsChain (· ≤ ·)) ∧
        ∀ snapshot previous, notice.snapshot? sysid = some snapshot →
          baseline sysid notices = some previous → previous ≤ snapshot := by
  rw [sessions_concat, baseline]
  -- A new session has no snapshots yet; otherwise only the latest session may have one more.
  cases hopens : ((ofNotices notices).learn notice).2.any (·.opens sysid) with
  | true =>
    have hsnapshot : notice.snapshot? sysid = none := by
      obtain ⟨exporter, rfl, -⟩ := exporter_of_opens hopens
      rfl
    rw [enter_of_opens notice hopens, hsnapshot]
    simp [snapshotsOf]
  | false =>
    obtain ⟨hnil, hcons⟩ := enter_of_not_opens notice hopens
    cases sessions sysid notices with
    | nil => simp [hnil]
    | cons current earlier =>
      rw [hcons, List.forall_mem_cons, List.forall_mem_cons, snapshotsOf, filterMap_concat,
        List.isChain_append, ← snapshotsOf]
      cases hsnapshot : notice.snapshot? sysid with
      | none => simp
      | some snapshot =>
        simp only [Option.toList_some, List.isChain_singleton, List.head?_cons, Option.bind_some,
          Option.mem_def, Option.some.injEq, forall_eq', true_and]
        constructor
        · rintro ⟨⟨hcurrent, hlast⟩, hearlier⟩
          refine ⟨⟨hcurrent, hearlier⟩, ?_⟩
          rintro _ previous rfl hprevious
          exact hlast previous hprevious
        · rintro ⟨⟨hcurrent, hearlier⟩, hlast⟩
          exact ⟨⟨hcurrent, fun previous hprevious => hlast snapshot previous rfl hprevious⟩,
            hearlier⟩

/-- A notice reports no regression exactly if it brings no snapshot below the baseline. -/
theorem no_regression_learn_iff {notice : Notice} :
    (∀ counter before after, .counterRegression sysid counter before after ∉
      ((ofNotices notices).learn notice).2) ↔
      ∀ snapshot previous, notice.snapshot? sysid = some snapshot →
        baseline sysid notices = some previous → previous ≤ snapshot := by
  simp only [regression_mem_learn_iff]
  constructor
  · intro h snapshot previous hsnapshot hbaseline counter
    apply UInt64.not_lt.mp
    intro hless
    exact h counter _ _ ⟨snapshot, previous, hsnapshot, hbaseline, hless, rfl, rfl⟩
  · rintro h counter _ _ ⟨snapshot, previous, hsnapshot, hbaseline, hless, -, -⟩
    exact UInt64.not_lt.mpr (h snapshot previous hsnapshot hbaseline counter) hless

theorem no_regression_iff (sysid : UInt16) (notices : List Notice) :
    (∀ counter before after,
      .counterRegression sysid counter before after ∉ (empty.learnAll notices).2) ↔
      ∀ session ∈ sessions sysid notices, (snapshotsOf sysid session).IsChain (· ≤ ·) := by
  induction notices using List.reverseRecOn with
  | nil => simp [learnAll, sessions, log]
  | append_singleton notices notice ih =>
    rw [climbing_concat_iff, ← ih, ← no_regression_learn_iff, learnAll_concat]
    simp only [List.mem_append, not_or, forall_and]
    rfl

/-- The next record of the same device leaves the baseline, also if it is in a new version. -/
theorem baseline_exporter {exporter previous : Exporter} (hsysid : exporter.sysid = sysid)
    (hlast : (exportersOf sysid notices).getLast? = some previous)
    (hsame : previous.sameDevice exporter = true) :
    baseline sysid (notices ++ [.exporter exporter]) = baseline sysid notices := by
  have hnumber : (Notice.exporter exporter).number = sysid.toUInt32 :=
    congrArg UInt16.toUInt32 hsysid
  rw [← exporter_ofNotices] at hlast
  obtain ⟨entry, hknown, rfl⟩ := Option.map_eq_some_iff.mp hlast
  rw [← counters_ofNotices, ← counters_ofNotices, ofNotices_concat, get?_learn hnumber, hknown]
  simp only [respond, Entry.announce, hsame, ↓reduceIte, Option.bind_some]

/-- In any run, a snapshot of a known exporter reports its setbacks against the snapshot before it
in the same session, and nothing if it is the first one there. It is then stored as it is. A new
version does not start anew. So a run reports no regression of an exporter exactly if in each of
its sessions the counters never go backwards. -/
theorem applyAll_reports_setbacks (records : List Record) (sysid : UInt16) :
    (∀ before entries snapshot later after,
      records = before ++ .counters ⟨entries ++ snapshot :: later⟩ :: after →
      snapshot.sysid = sysid.toUInt32 →
      (∃ exporter, .exporter exporter ∈ before ∧ exporter.sysid = sysid) →
      let past := before ++ [.counters ⟨entries⟩]
      let known := empty.applyAll past
      let answer := known.1.applySnapshot snapshot
      let rest := answer.1.applyAll (.counters ⟨later⟩ :: after)
      empty.applyAll records = (rest.1, known.2 ++ answer.2 ++ rest.2) ∧
      answer.2 = (match baseline sysid (ofRecords past) with
        | none => []
        | some previous => setbacks sysid previous snapshot) ∧
      (answer.1.get? sysid).bind (·.counters) = some snapshot) ∧
    (∀ exporter previous, exporter.sysid = sysid →
      (exportersOf sysid (ofRecords records)).getLast? = some previous →
      previous.sameDevice exporter = true →
      baseline sysid (ofRecords (records ++ [.exporter exporter])) =
        baseline sysid (ofRecords records)) ∧
    ((∀ counter previous current,
        .counterRegression sysid counter previous current ∉ (empty.applyAll records).2) ↔
      ∀ session ∈ sessions sysid (ofRecords records),
        (snapshotsOf sysid session).IsChain (· ≤ ·)) := by
  refine ⟨?_, ?_, ?_⟩
  · rintro before entries snapshot later after rfl hsysid ⟨exporter, hmem, hexporter⟩
    intro past known answer rest
    obtain ⟨entry, hentry⟩ : ∃ entry, (ofNotices (ofRecords past)).get? sysid = some entry :=
      known_iff.mpr ⟨exporter, List.mem_append_left _ hmem, hexporter⟩
    obtain ⟨hevents, hstored⟩ := learn_counters hsysid hentry
    have hknown : known.1 = ofNotices (ofRecords past) := applyAll_empty past
    have hanswer : answer = (ofNotices (ofRecords past)).learn (.counters snapshot) := by
      rw [← hknown]
      rfl
    refine ⟨?_, ?_, ?_⟩
    · have hnotices : ofRecords (before ++ .counters ⟨entries ++ snapshot :: later⟩ :: after) =
          ofRecords past ++ .counters snapshot :: ofRecords (.counters ⟨later⟩ :: after) := by
        simp [past, ofRecords, Record.notices]
      simp only [rest, answer, known, applyAll_eq_learnAll, hnotices, learnAll_append, learnAll,
        List.append_assoc]
      rfl
    · rw [hanswer]
      exact hevents
    · rw [hanswer, hstored]
      rfl
  · intro exporter previous hsysid hlast hsame
    rw [ofRecords_append]
    exact baseline_exporter hsysid hlast hsame
  · rw [applyAll_eq_learnAll]
    exact no_regression_iff sysid (ofRecords records)

/-- A new version and a stranger's counters, of the same low 16 bits, come between the two
snapshots; the second is compared with the first all the same. -/
theorem applyAll_reports_setbacks_across_version :
    let device : Exporter := { version := 9, address := .v4 0x0a000005, sysid := 5, id := 1 }
    let first : CounterSnapshot := ⟨5, 10, 100, 1000⟩
    let strange : CounterSnapshot := ⟨65541, 0, 0, 0⟩
    let second : CounterSnapshot := ⟨5, 3, 100, 999⟩
    let before : List Record :=
      [.exporter device, .counters ⟨[first]⟩, .exporter { device with version := 10 }]
    ((empty.applyAll (before ++ [.counters ⟨[strange]⟩])).1.applySnapshot second).2 =
      [.counterRegression 5 .sequenceFailures 10 3, .counterRegression 5 .flows 1000 999] := by
  intro device first strange second before
  have hknown : ∃ exporter, .exporter exporter ∈ before ∧ exporter.sysid = 5 :=
    ⟨device, List.mem_cons_self, rfl⟩
  obtain ⟨-, hreported, -⟩ :=
    (applyAll_reports_setbacks (before ++ [.counters ⟨[strange, second]⟩]) 5).1
      before [strange] second [] [] rfl rfl hknown
  rw [hreported]
  decide

end Ledger

end ExporterRecords
