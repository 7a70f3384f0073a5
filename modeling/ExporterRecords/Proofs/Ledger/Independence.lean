import ExporterRecords.Proofs.Ledger.Sessions

/-!
# Exporters side by side

A ledger treats each exporter as if it were the only one. What is known of an exporter, and what is
reported of it, depends on the notices that name it and on nothing in between. So records of several
exporters may be interleaved in any way, and counters batched in any way, as long as each exporter's
own notices keep their order.
-/
namespace ExporterRecords

/-- What a record tells of the exporter with this number. -/
def Record.restrict (number : UInt32) : Record → Option Record
  | exporter e => if e.sysid.toUInt32 = number then some (exporter e) else none
  | counters batch => some (counters ⟨batch.entries.filter (·.sysid = number)⟩)
  | sampler s => if s.exporterSysid.toUInt32 = number then some (sampler s) else none
  | foreign _ => none

namespace Notice

/-- The notices of the exporter with this number. -/
def about (number : UInt32) (notices : List Notice) : List Notice :=
  notices.filter (·.number = number)

theorem about_cons (number : UInt32) (notice : Notice) (notices : List Notice) :
    about number (notice :: notices) =
      if notice.number = number then notice :: about number notices else about number notices := by
  simp only [about, List.filter_cons, decide_eq_true_eq]

theorem about_append (number : UInt32) (notices more : List Notice) :
    about number (notices ++ more) = about number notices ++ about number more :=
  List.filter_append ..

end Notice

open Notice

/-- What several records tell of the exporter with this number. -/
def Record.restrictAll (number : UInt32) (records : List Record) : List Record :=
  records.filterMap (Record.restrict number)

theorem notices_restrict (number : UInt32) (record : Record) :
    ofRecords (record.restrict number).toList = about number record.notices := by
  cases record with
  | exporter e =>
    by_cases h : e.sysid.toUInt32 = number <;>
      simp [Record.restrict, Record.notices, ofRecords, about, Notice.number, h]
  | counters batch =>
    simp only [Record.restrict, Record.notices, ofRecords, about, Option.toList_some,
      List.flatMap_cons, List.flatMap_nil, List.append_nil, List.filter_map]
    rfl
  | sampler s =>
    by_cases h : s.exporterSysid.toUInt32 = number <;>
      simp [Record.restrict, Record.notices, ofRecords, about, Notice.number, h]
  | foreign record => rfl

/-- Restricting records keeps exactly the notices of the one exporter. -/
theorem ofRecords_restrictAll (number : UInt32) (records : List Record) :
    ofRecords (Record.restrictAll number records) = about number (ofRecords records) := by
  induction records with
  | nil => rfl
  | cons record records ih =>
    have hfirst := notices_restrict number record
    have hrest : ofRecords (record :: records) = record.notices ++ ofRecords records := rfl
    rw [hrest, about_append, ← ih, ← hfirst, ← ofRecords_append, Record.restrictAll,
      Record.restrictAll, List.filterMap_cons]
    cases record.restrict number <;> rfl

namespace Ledger

/-- The number of the exporter that an event is about. -/
def Event.number : Event → UInt32
  | exporterAdded sysid => sysid.toUInt32
  | versionChanged sysid _ _ => sysid.toUInt32
  | exporterReplaced sysid _ => sysid.toUInt32
  | counterRegression sysid _ _ _ => sysid.toUInt32
  | unknownExporter number _ => number
  | samplersCleared sysid _ => sysid.toUInt32

/-- The events about the exporter with this number. -/
def eventsAbout (number : UInt32) (events : List Event) : List Event :=
  events.filter (·.number = number)

/-- What is known of the exporter with this number; nothing if no exporter can have it. -/
def known (ledger : Ledger) (number : UInt32) : Option Entry :=
  if number.toUInt16.toUInt32 = number then ledger.get? number.toUInt16 else none

/-- What is known of an exporter after several notices of it, and the events of that. -/
def respondAll (known : Option Entry) : List Notice → Option Entry × List Event
  | [] => (known, [])
  | notice :: notices =>
    let (next, events) := respond known notice
    let (last, later) := respondAll next notices
    (last, events ++ later)

section Known

variable {ledger other : Ledger} {notice : Notice} {number : UInt32}

@[simp] theorem known_toUInt32 (ledger : Ledger) (sysid : UInt16) :
    ledger.known sysid.toUInt32 = ledger.get? sysid := by
  simp [known]

theorem known_of_stranger (h : ∀ sysid : UInt16, number ≠ sysid.toUInt32) :
    ledger.known number = none :=
  if_neg fun heq => h _ heq.symm

/-- A ledger is told by what it knows of each exporter. -/
theorem eq_of_known_eq (h : ∀ number, ledger.known number = other.known number) :
    ledger = other := by
  obtain ⟨entries⟩ := ledger
  obtain ⟨entries'⟩ := other
  congr 1
  apply CodeMap.eq_of_get?_eq
  intro sysid
  simpa [get?] using h sysid.toUInt32

/-- A notice changes what is known of its exporter, and nothing else. -/
theorem learn_known (ledger : Ledger) (notice : Notice) :
    (ledger.learn notice).2 = (respond (ledger.known notice.number) notice).2 ∧
      ∀ number, (ledger.learn notice).1.known number =
        if notice.number = number then (respond (ledger.known notice.number) notice).1
        else ledger.known number := by
  by_cases hnamed : ∃ sysid : UInt16, notice.number = sysid.toUInt32
  · obtain ⟨sysid, hsysid⟩ := hnamed
    obtain ⟨hevents, hget⟩ := @learn_of_number ledger notice sysid hsysid
    rw [hsysid, known_toUInt32]
    refine ⟨hevents, fun number => ?_⟩
    by_cases hnumber : ∃ key : UInt16, number = key.toUInt32
    · obtain ⟨key, rfl⟩ := hnumber
      simp only [known_toUInt32, hget, UInt16.toUInt32_inj, eq_comm]
    · have hwide : ∀ key : UInt16, number ≠ key.toUInt32 := fun key hkey => hnumber ⟨key, hkey⟩
      rw [known_of_stranger hwide, known_of_stranger hwide, if_neg (Ne.symm (hwide sysid))]
  · have hstranger : ∀ sysid : UInt16, notice.number ≠ sysid.toUInt32 :=
      fun sysid hsysid => hnamed ⟨sysid, hsysid⟩
    rw [learn_of_stranger hstranger, known_of_stranger hstranger]
    cases notice with
    | exporter exporter => exact absurd rfl (hstranger exporter.sysid)
    | sampler sampler => exact absurd rfl (hstranger sampler.exporterSysid)
    | counters snapshot =>
      refine ⟨rfl, fun number => ?_⟩
      split
      · rename_i hnumber
        rw [← hnumber, known_of_stranger hstranger]
        rfl
      · rfl

/-- A known exporter stands under its own number. -/
theorem sysid_of_known {notices : List Notice} {entry : Entry}
    (h : (ofNotices notices).known number = some entry) :
    entry.exporter.sysid.toUInt32 = number := by
  unfold known at h
  split at h
  · rename_i hnarrow
    rw [sysid_of_get? h, hnarrow]
  · cases h

/-- Whatever a notice brings about is about its exporter. -/
theorem number_of_mem_learn {notices : List Notice} {event : Event}
    (h : event ∈ ((ofNotices notices).learn notice).2) : event.number = notice.number := by
  rw [(learn_known _ _).1, mem_respond_iff] at h
  cases h with
  | setback seen counted less => exact sysid_of_known seen
  | _ => rfl

theorem eventsAbout_learn (notices : List Notice) (notice : Notice) (number : UInt32) :
    eventsAbout number ((ofNotices notices).learn notice).2 =
      if notice.number = number then (respond ((ofNotices notices).known number) notice).2
      else [] := by
  split
  · rename_i hnumber
    subst hnumber
    rw [← (learn_known _ _).1]
    apply List.filter_eq_self.mpr
    intro event hmem
    exact decide_eq_true (number_of_mem_learn hmem)
  · rename_i hother
    apply List.filter_eq_nil_iff.mpr
    intro event hmem habout
    exact hother ((number_of_mem_learn hmem).symm.trans (of_decide_eq_true habout))

/-- In a run, each exporter is answered as if all notices were its own. -/
theorem learnAll_known (past notices : List Notice) (number : UInt32) :
    let answer := (ofNotices past).learnAll notices
    let own := respondAll ((ofNotices past).known number) (about number notices)
    answer.1.known number = own.1 ∧ eventsAbout number answer.2 = own.2 := by
  induction notices generalizing past with
  | nil => exact ⟨rfl, rfl⟩
  | cons notice notices ih =>
    have hstep := (learn_known (ofNotices past) notice).2 number
    have hevents := eventsAbout_learn past notice number
    obtain ⟨hknown, hlater⟩ := ih (past ++ [notice])
    rw [ofNotices_concat, hstep] at hknown hlater
    simp only [learnAll, eventsAbout, List.filter_append] at hevents hlater ⊢
    rw [hknown, hlater, hevents, about_cons]
    by_cases hnumber : notice.number = number
    · simp only [hnumber, ↓reduceIte, respondAll, and_self]
    · simp only [hnumber, ↓reduceIte, List.nil_append, and_self]

end Known

/-- Two lists of records that tell the same of an exporter, in the same order, come to the same for
it. -/
theorem applyAll_congr (past : List Record) {records others : List Record} (number : UInt32)
    (h : about number (ofRecords records) = about number (ofRecords others)) :
    let ledger := (empty.applyAll past).1
    (ledger.applyAll records).1.known number = (ledger.applyAll others).1.known number ∧
      eventsAbout number (ledger.applyAll records).2 =
        eventsAbout number (ledger.applyAll others).2 := by
  intro ledger
  have hledger : ledger = ofNotices (ofRecords past) := applyAll_empty past
  obtain ⟨hknown, hevents⟩ := learnAll_known (ofRecords past) (ofRecords records) number
  obtain ⟨hknown', hevents'⟩ := learnAll_known (ofRecords past) (ofRecords others) number
  rw [applyAll_eq_learnAll, applyAll_eq_learnAll, hledger, hknown, hknown', hevents, hevents', h]
  exact ⟨rfl, rfl⟩

/-- From any ledger on, what becomes of an exporter and what is reported of it is told by the
records restricted to that exporter. So two lists of records with the same restrictions, but for
how they batch counters, lead to the same ledger and to the same events of each exporter. -/
theorem applyAll_restrictAll (past records : List Record) :
    let ledger := (empty.applyAll past).1
    let answer := ledger.applyAll records
    (∀ number : UInt32,
      let own := ledger.applyAll (Record.restrictAll number records)
      (∀ sysid : UInt16, sysid.toUInt32 = number → answer.1.get? sysid = own.1.get? sysid) ∧
      eventsAbout number answer.2 = eventsAbout number own.2) ∧
    ∀ others : List Record,
      (∀ number, ofRecords (Record.restrictAll number records) =
        ofRecords (Record.restrictAll number others)) →
      answer.1 = (ledger.applyAll others).1 ∧
        ∀ number, eventsAbout number answer.2 =
          eventsAbout number (ledger.applyAll others).2 := by
  intro ledger answer
  constructor
  · intro number own
    have hsame : about number (ofRecords records) =
        about number (ofRecords (Record.restrictAll number records)) := by
      rw [ofRecords_restrictAll, about, about, List.filter_filter]
      simp only [Bool.and_self]
    obtain ⟨hknown, hevents⟩ := applyAll_congr past number hsame
    refine ⟨?_, hevents⟩
    rintro sysid rfl
    rwa [known_toUInt32, known_toUInt32] at hknown
  · intro others hsame
    simp only [ofRecords_restrictAll] at hsame
    have hboth (number : UInt32) := applyAll_congr past number (hsame number)
    exact ⟨eq_of_known_eq fun number => (hboth number).1, fun number => (hboth number).2⟩

/-- One batch for two exporters and a stranger, or three batches in another order among the records
of the exporters. -/
theorem applyAll_restrictAll_of_batches :
    let device (sysid : UInt16) : Exporter := { version := 9, address := .v4 7, sysid, id := 1 }
    let count (sysid : UInt32) (packets : UInt64) : CounterSnapshot := ⟨sysid, 0, packets, 0⟩
    let records : List Record := [.exporter (device 5), .exporter (device 6),
      .counters ⟨[count 5 8, count 6 4, count 65541 0, count 5 3]⟩]
    let others : List Record := [.exporter (device 6), .counters ⟨[count 65541 0, count 6 4]⟩,
      .exporter (device 5), .counters ⟨[count 5 8]⟩, .counters ⟨[count 5 3]⟩]
    (∀ number, ofRecords (Record.restrictAll number records) =
      ofRecords (Record.restrictAll number others)) ∧
    (empty.applyAll records).1 = (empty.applyAll others).1 ∧
    eventsAbout 5 (empty.applyAll others).2 =
      [.exporterAdded 5, .counterRegression 5 .packets 8 3] ∧
    eventsAbout 65541 (empty.applyAll others).2 = [.unknownExporter 65541 8] := by
  intro device count records others
  have hsame : ∀ number, ofRecords (Record.restrictAll number records) =
      ofRecords (Record.restrictAll number others) := by
    intro number
    rw [ofRecords_restrictAll, ofRecords_restrictAll]
    by_cases hfive : (5 : UInt32) = number
    · rw [← hfive]
      decide
    · by_cases hsix : (6 : UInt32) = number
      · rw [← hsix]
        decide
      · simp [records, others, ofRecords, Record.notices, about_cons, Notice.number, device, count,
          hfive, hsix]
  obtain ⟨hledger, hevents⟩ := (applyAll_restrictAll [] records).2 others hsame
  have hfive := (hevents 5).symm
  have hstranger := (hevents 65541).symm
  exact ⟨hsame, hledger, hfive.trans (by decide), hstranger.trans (by decide)⟩

end Ledger

end ExporterRecords
