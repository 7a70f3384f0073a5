import ExporterRecords.Proofs.Ledger.Events
import Mathlib.Data.List.Induction

/-!
# Sessions

The number of an exporter is given to a device when the first record of the exporter comes, and
again whenever a record shows that another device has taken the number over. Both are reported. The
notices that come before the next such report are one session. A ledger knows the latest record of
each exporter; what else it knows of it can be read off the notices of the latest session.
-/
namespace ExporterRecords

namespace Notice

/-- The exporter record, if the notice is one of the exporter with this number. -/
def exporter? (sysid : UInt16) : Notice → Option Exporter
  | exporter e => if e.sysid = sysid then some e else none
  | _ => none

def snapshot? (sysid : UInt16) : Notice → Option CounterSnapshot
  | counters snapshot => if snapshot.sysid = sysid.toUInt32 then some snapshot else none
  | _ => none

def sampler? (sysid : UInt16) : Notice → Option Sampler
  | sampler s => if s.exporterSysid = sysid then some s else none
  | _ => none

theorem filterMap_concat {β : Type} (read? : Notice → Option β) (notices : List Notice)
    (notice : Notice) :
    (notices ++ [notice]).filterMap read? = notices.filterMap read? ++ (read? notice).toList := by
  cases h : read? notice <;> simp [h]

def exportersOf (sysid : UInt16) (notices : List Notice) : List Exporter :=
  notices.filterMap (exporter? sysid)

def snapshotsOf (sysid : UInt16) (notices : List Notice) : List CounterSnapshot :=
  notices.filterMap (snapshot? sysid)

def samplersOf (sysid : UInt16) (notices : List Notice) : List Sampler :=
  notices.filterMap (sampler? sysid)

@[simp] theorem snapshot?_exporter (sysid : UInt16) (e : Exporter) :
    (exporter e).snapshot? sysid = none := rfl

@[simp] theorem snapshot?_sampler (sysid : UInt16) (s : Sampler) :
    (sampler s).snapshot? sysid = none := rfl

@[simp] theorem sampler?_exporter (sysid : UInt16) (e : Exporter) :
    (exporter e).sampler? sysid = none := rfl

@[simp] theorem sampler?_counters (sysid : UInt16) (snapshot : CounterSnapshot) :
    (counters snapshot).sampler? sysid = none := rfl

section Numbers

variable {sysid : UInt16} {notice : Notice}

theorem exporter?_of_ne (h : notice.number ≠ sysid.toUInt32) : notice.exporter? sysid = none := by
  cases notice with
  | exporter e => exact if_neg fun heq => h (congrArg UInt16.toUInt32 heq)
  | _ => rfl

theorem snapshot?_of_ne (h : notice.number ≠ sysid.toUInt32) : notice.snapshot? sysid = none := by
  cases notice with
  | counters snapshot => exact if_neg h
  | _ => rfl

theorem sampler?_of_ne (h : notice.number ≠ sysid.toUInt32) : notice.sampler? sysid = none := by
  cases notice with
  | sampler s => exact if_neg fun heq => h (congrArg UInt16.toUInt32 heq)
  | _ => rfl

theorem exporter?_eq_some_iff {e : Exporter} :
    notice.exporter? sysid = some e ↔ notice = .exporter e ∧ e.sysid = sysid := by
  cases notice with
  | exporter other =>
    simp only [exporter?, Option.ite_none_right_eq_some, Option.some.injEq, exporter.injEq]
    constructor
    · rintro ⟨hsysid, rfl⟩
      exact ⟨rfl, hsysid⟩
    · rintro ⟨rfl, hsysid⟩
      exact ⟨hsysid, rfl⟩
  | _ => simp [exporter?]

theorem snapshot?_eq_some_iff {snapshot : CounterSnapshot} :
    notice.snapshot? sysid = some snapshot ↔
      notice = .counters snapshot ∧ snapshot.sysid = sysid.toUInt32 := by
  cases notice with
  | counters other =>
    simp only [snapshot?, Option.ite_none_right_eq_some, Option.some.injEq, counters.injEq]
    constructor
    · rintro ⟨hsysid, rfl⟩
      exact ⟨rfl, hsysid⟩
    · rintro ⟨rfl, hsysid⟩
      exact ⟨hsysid, rfl⟩
  | _ => simp [snapshot?]

theorem sampler?_eq_some_iff {s : Sampler} :
    notice.sampler? sysid = some s ↔ notice = .sampler s ∧ s.exporterSysid = sysid := by
  cases notice with
  | sampler other =>
    simp only [sampler?, Option.ite_none_right_eq_some, Option.some.injEq, sampler.injEq]
    constructor
    · rintro ⟨hsysid, rfl⟩
      exact ⟨rfl, hsysid⟩
    · rintro ⟨rfl, hsysid⟩
      exact ⟨hsysid, rfl⟩
  | _ => simp [sampler?]

theorem mem_exportersOf_iff {notices : List Notice} {e : Exporter} :
    e ∈ exportersOf sysid notices ↔ .exporter e ∈ notices ∧ e.sysid = sysid := by
  rw [exportersOf, List.mem_filterMap]
  constructor
  · rintro ⟨notice, hmem, hnotice⟩
    obtain ⟨rfl, hsysid⟩ := exporter?_eq_some_iff.mp hnotice
    exact ⟨hmem, hsysid⟩
  · rintro ⟨hmem, hsysid⟩
    exact ⟨.exporter e, hmem, exporter?_eq_some_iff.mpr ⟨rfl, hsysid⟩⟩

end Numbers

theorem exporter_mem_ofRecords_iff {records : List Record} {e : Exporter} :
    .exporter e ∈ ofRecords records ↔ .exporter e ∈ records := by
  rw [ofRecords, List.mem_flatMap]
  constructor
  · rintro ⟨record, hmem, hnotice⟩
    cases record with
    | exporter other =>
      cases List.mem_singleton.mp hnotice
      exact hmem
    | counters batch =>
      obtain ⟨snapshot, -, hsnapshot⟩ := List.mem_map.mp hnotice
      cases hsnapshot
    | sampler s => cases List.mem_singleton.mp hnotice
    | foreign record => cases hnotice
  · intro hmem
    exact ⟨.exporter e, hmem, List.mem_singleton_self _⟩

end Notice

namespace Ledger

open Notice

/-- Whether an event says that this number was given to a device. -/
def Event.opens (sysid : UInt16) : Event → Bool
  | exporterAdded number => number = sysid
  | exporterReplaced number _ => number = sysid
  | _ => false

/-- The ledger that has taken in these notices and no others. -/
def ofNotices (notices : List Notice) : Ledger := (empty.learnAll notices).1

/-- Each notice with the events that come of it. -/
def log (ledger : Ledger) : List Notice → List (Notice × List Event)
  | [] => []
  | notice :: notices =>
    (notice, (ledger.learn notice).2) :: (ledger.learn notice).1.log notices

/-- The sessions with one notice more. Notices before the first session belong to none. -/
def enter (sysid : UInt16) (sessions : List (List Notice)) (step : Notice × List Event) :
    List (List Notice) :=
  if step.2.any (·.opens sysid) then [] :: sessions
  else match sessions with
    | [] => []
    | current :: earlier => (current ++ [step.1]) :: earlier

section Enter

variable {sysid : UInt16} {events : List Event}

theorem enter_of_opens (notice : Notice) (h : events.any (·.opens sysid) = true)
    (sessions : List (List Notice)) : enter sysid sessions (notice, events) = [] :: sessions :=
  if_pos h

theorem enter_of_not_opens (notice : Notice) (h : events.any (·.opens sysid) = false) :
    enter sysid [] (notice, events) = [] ∧ ∀ current earlier,
      enter sysid (current :: earlier) (notice, events) = (current ++ [notice]) :: earlier := by
  simp [enter, h]

end Enter

/-- The sessions of a number, the latest first. -/
def sessions (sysid : UInt16) (notices : List Notice) : List (List Notice) :=
  (empty.log notices).foldl (enter sysid) []

section Steps

variable {sysid : UInt16} {known : Option Entry} {entry : Entry} {notice : Notice}

theorem ofNotices_concat (notices : List Notice) (notice : Notice) :
    ofNotices (notices ++ [notice]) = ((ofNotices notices).learn notice).1 := by
  rw [ofNotices, learnAll_concat]
  rfl

theorem ofNotices_append (notices more : List Notice) :
    ofNotices (notices ++ more) = ((ofNotices notices).learnAll more).1 := by
  rw [ofNotices, learnAll_append]
  rfl

theorem log_concat (ledger : Ledger) (notices : List Notice) (notice : Notice) :
    ledger.log (notices ++ [notice]) =
      ledger.log notices ++ [(notice, ((ledger.learnAll notices).1.learn notice).2)] := by
  induction notices generalizing ledger with
  | nil => rfl
  | cons first notices ih => simp only [List.cons_append, log, learnAll, ih]

theorem sessions_concat (sysid : UInt16) (notices : List Notice) (notice : Notice) :
    sessions sysid (notices ++ [notice]) =
      enter sysid (sessions sysid notices) (notice, ((ofNotices notices).learn notice).2) := by
  rw [sessions, log_concat, List.foldl_append]
  rfl

/-- Only an exporter record gives a number to a device, and nothing else is known of it then. -/
theorem respond_of_opens (h : (respond known notice).2.any (·.opens sysid) = true) :
    ∃ exporter, notice = .exporter exporter ∧ exporter.sysid = sysid ∧
      (respond known notice).1 = some (.ofExporter exporter) := by
  obtain ⟨event, hmem, hopens⟩ := List.any_eq_true.mp h
  rw [mem_respond_iff] at hmem
  cases hmem with
  | @added exporter unseen =>
    exact ⟨exporter, rfl, of_decide_eq_true hopens, by rw [unseen, respond]⟩
  | @replaced exporter entry seen other =>
    exact ⟨exporter, rfl, of_decide_eq_true hopens, by simp [seen, respond, Entry.announce, other]⟩
  | _ => cases hopens

/-- The first exporter record gives the number to a device, and no other notice makes an exporter
known. -/
theorem respond_none_of_not_opens (hnumber : notice.number = sysid.toUInt32)
    (h : (respond none notice).2.any (·.opens sysid) = false) : (respond none notice).1 = none := by
  cases notice with
  | exporter exporter =>
    have hsysid : exporter.sysid = sysid := UInt16.toUInt32_inj.mp hnumber
    simp [respond, Event.opens, hsysid] at h
  | counters snapshot => rfl
  | sampler sampler => rfl

theorem opens_learn_of_ne (ledger : Ledger) (h : notice.number ≠ sysid.toUInt32) :
    (ledger.learn notice).2.any (·.opens sysid) = false := by
  rw [List.any_eq_false]
  intro event hmem hopens
  rcases brings_of_mem_learn hmem with ⟨key, -, hbrings⟩ | rfl
  · cases hbrings with
    | added unseen => exact h (congrArg UInt16.toUInt32 (of_decide_eq_true hopens))
    | replaced seen other => exact h (congrArg UInt16.toUInt32 (of_decide_eq_true hopens))
    | _ => cases hopens
  · cases hopens

/-- Only an exporter record of the same number gives it to a device. -/
theorem exporter_of_opens {ledger : Ledger}
    (h : (ledger.learn notice).2.any (·.opens sysid) = true) :
    ∃ exporter, notice = .exporter exporter ∧ exporter.sysid = sysid := by
  by_cases hnumber : notice.number = sysid.toUInt32
  · rw [events_learn hnumber] at h
    obtain ⟨exporter, hnotice, hsysid, -⟩ := respond_of_opens h
    exact ⟨exporter, hnotice, hsysid⟩
  · rw [opens_learn_of_ne ledger hnumber] at h
    cases h

/-- The latest session is what came after the last record that gave the number to a device. -/
theorem exists_of_head?_sessions {notices session : List Notice}
    (h : (sessions sysid notices).head? = some session) :
    ∃ earlier exporter, notices = earlier ++ .exporter exporter :: session ∧
      ((ofNotices earlier).learn (.exporter exporter)).2.any (·.opens sysid) = true ∧
      ((ofNotices (earlier ++ [.exporter exporter])).learnAll session).2.any
        (·.opens sysid) = false := by
  induction notices using List.reverseRecOn generalizing session with
  | nil => cases h
  | append_singleton notices notice ih =>
    rw [sessions_concat] at h
    cases hopens : ((ofNotices notices).learn notice).2.any (·.opens sysid) with
    | true =>
      obtain ⟨exporter, rfl, -⟩ := exporter_of_opens hopens
      rw [enter_of_opens _ hopens] at h
      cases h
      exact ⟨notices, exporter, rfl, hopens, rfl⟩
    | false =>
      obtain ⟨hnil, hcons⟩ := enter_of_not_opens notice hopens
      cases hsessions : sessions sysid notices with
      | nil =>
        rw [hsessions, hnil] at h
        cases h
      | cons current others =>
        rw [hsessions, hcons] at h
        cases h
        obtain ⟨earlier, exporter, hnotices, hopened, hquiet⟩ := ih (by rw [hsessions]; rfl)
        have hledger : ((ofNotices (earlier ++ [.exporter exporter])).learnAll current).1 =
            ofNotices notices := by
          rw [← ofNotices_append, List.append_assoc, List.singleton_append, ← hnotices]
        refine ⟨earlier, exporter, ?_, hopened, ?_⟩
        · rw [hnotices, List.append_assoc, List.cons_append]
        · rw [learnAll_concat, hledger, List.any_append, hquiet, hopens]
          rfl

/-- A value of an entry that can be read off the notices of its session: each notice changes both
in the same way, and so does not change the value if it names another exporter. -/
structure Reads {β : Type} (sysid : UInt16) (value : Entry → β) (reading : List Notice → β) :
    Prop where
  start : ∀ exporter, value (.ofExporter exporter) = reading []
  other : ∀ session notice, notice.number ≠ sysid.toUInt32 →
    reading (session ++ [notice]) = reading session
  exporter : ∀ session entry exporter, value entry = reading session →
    value { entry with exporter } = reading (session ++ [.exporter exporter])
  counters : ∀ session entry snapshot, snapshot.sysid = sysid.toUInt32 →
    value entry = reading session →
    value (entry.count snapshot).1 = reading (session ++ [.counters snapshot])
  sampler : ∀ session entry sampler, sampler.exporterSysid = sysid →
    value entry = reading session →
    value (entry.sample sampler).1 = reading (session ++ [.sampler sampler])

/-- A notice within a session. -/
theorem Reads.respond {β : Type} {value : Entry → β} {reading : List Notice → β}
    (h : Reads sysid value reading) {session : List Notice}
    (hnumber : notice.number = sysid.toUInt32) (hentry : value entry = reading session)
    (hstays : (respond (some entry) notice).2.any (·.opens sysid) = false) :
    (Ledger.respond (some entry) notice).1.map value = some (reading (session ++ [notice])) := by
  cases notice with
  | exporter exporter =>
    have hsysid : exporter.sysid = sysid := UInt16.toUInt32_inj.mp hnumber
    simp only [Ledger.respond, Entry.announce] at hstays ⊢
    split at hstays
    · rename_i hsame
      rw [if_pos hsame]
      exact congrArg some (h.exporter session entry exporter hentry)
    · simp [Event.opens, hsysid] at hstays
  | counters snapshot => exact congrArg some (h.counters session entry snapshot hnumber hentry)
  | sampler sampler =>
    have hsysid : sampler.exporterSysid = sysid := UInt16.toUInt32_inj.mp hnumber
    exact congrArg some (h.sampler session entry sampler hsysid hentry)

/-- Whatever can be read off a session is read off the latest one. -/
theorem Reads.get?_ofNotices {β : Type} {value : Entry → β} {reading : List Notice → β}
    (h : Reads sysid value reading) (notices : List Notice) :
    ((ofNotices notices).get? sysid).map value = (sessions sysid notices).head?.map reading := by
  -- The last notice either starts both sides anew or is one more of the latest session.
  induction notices using List.reverseRecOn with
  | nil => rfl
  | append_singleton notices notice ih =>
    rw [ofNotices_concat, sessions_concat]
    by_cases hnumber : notice.number = sysid.toUInt32
    · rw [events_learn hnumber, get?_learn hnumber]
      generalize (ofNotices notices).get? sysid = known at *
      cases hopens : (Ledger.respond known notice).2.any (·.opens sysid) with
      | true =>
        obtain ⟨exporter, -, -, hknown⟩ := respond_of_opens hopens
        rw [hknown, enter_of_opens notice hopens]
        exact congrArg some (h.start exporter)
      | false =>
        obtain ⟨hnil, hcons⟩ := enter_of_not_opens notice hopens
        cases hsessions : sessions sysid notices with
        | nil =>
          have hnone : known = none := by simpa [hsessions] using ih
          subst hnone
          rw [respond_none_of_not_opens hnumber hopens, hnil]
          rfl
        | cons current earlier =>
          obtain ⟨entry, rfl, hentry⟩ : ∃ entry, known = some entry ∧
              value entry = reading current := by simpa [hsessions] using ih
          rw [h.respond hnumber hentry hopens, hcons]
          rfl
    · have hopens := opens_learn_of_ne (ofNotices notices) hnumber
      obtain ⟨hnil, hcons⟩ := enter_of_not_opens notice hopens
      rw [get?_learn_of_ne hnumber, ih]
      cases sessions sysid notices with
      | nil => rw [hnil]
      | cons current earlier =>
        rw [hcons]
        exact congrArg some (h.other current notice hnumber).symm

end Steps

/-- A ledger knows the latest record of each exporter. -/
theorem exporter_ofNotices (sysid : UInt16) (notices : List Notice) :
    ((ofNotices notices).get? sysid).map (·.exporter) = (exportersOf sysid notices).getLast? := by
  induction notices using List.reverseRecOn with
  | nil => rfl
  | append_singleton notices notice ih =>
    rw [ofNotices_concat, exportersOf, filterMap_concat, ← exportersOf, List.getLast?_append, ← ih]
    by_cases hnumber : notice.number = sysid.toUInt32
    · rw [get?_learn hnumber]
      cases notice with
      | exporter exporter =>
        have hsysid : exporter.sysid = sysid := UInt16.toUInt32_inj.mp hnumber
        cases (ofNotices notices).get? sysid with
        | none => simp [respond, exporter?, hsysid, Entry.ofExporter]
        | some entry =>
          simp only [respond, Entry.announce, exporter?, hsysid]
          split <;> rfl
      | counters snapshot => cases (ofNotices notices).get? sysid <;> rfl
      | sampler sampler => cases (ofNotices notices).get? sysid <;> rfl
    · simp [get?_learn_of_ne hnumber, exporter?_of_ne hnumber]

theorem sysid_of_get? {sysid : UInt16} {notices : List Notice} {entry : Entry}
    (h : (ofNotices notices).get? sysid = some entry) : entry.exporter.sysid = sysid := by
  have hlast := exporter_ofNotices sysid notices
  rw [h, Option.map_some] at hlast
  exact (mem_exportersOf_iff.mp (List.mem_of_getLast? hlast.symm)).2

/-- The ledger after some records is that of the notices in them. -/
theorem applyAll_empty (records : List Record) :
    (empty.applyAll records).1 = ofNotices (ofRecords records) := by
  rw [applyAll_eq_learnAll, ofNotices]

/-- An exporter is known exactly if a record of it has come. -/
theorem known_iff {sysid : UInt16} {records : List Record} :
    (∃ entry, (ofNotices (ofRecords records)).get? sysid = some entry) ↔
      ∃ exporter, .exporter exporter ∈ records ∧ exporter.sysid = sysid := by
  have hlast := exporter_ofNotices sysid (ofRecords records)
  constructor
  · rintro ⟨entry, hentry⟩
    rw [hentry, Option.map_some] at hlast
    obtain ⟨hmem, hsysid⟩ := mem_exportersOf_iff.mp (List.mem_of_getLast? hlast.symm)
    exact ⟨entry.exporter, exporter_mem_ofRecords_iff.mp hmem, hsysid⟩
  · rintro ⟨exporter, hmem, hsysid⟩
    have hexporter : exporter ∈ exportersOf sysid (ofRecords records) :=
      mem_exportersOf_iff.mpr ⟨exporter_mem_ofRecords_iff.mpr hmem, hsysid⟩
    rw [List.getLast?_eq_some_getLast (List.ne_nil_of_mem hexporter)] at hlast
    obtain ⟨entry, hentry, -⟩ := Option.map_eq_some_iff.mp hlast
    exact ⟨entry, hentry⟩

end Ledger

end ExporterRecords
