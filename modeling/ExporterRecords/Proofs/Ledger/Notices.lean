import ExporterRecords.Ledger

/-!
# Notices

A record tells something of one exporter, or, as a batch of counters, of several exporters one
after the other. A ledger takes a record in notice by notice. Each notice touches the entry of the
one exporter that it names, and what comes of it depends on that entry alone.
-/
namespace ExporterRecords

/-- One thing that a record tells of one exporter. -/
inductive Notice where
  | exporter (exporter : Exporter)
  | counters (snapshot : CounterSnapshot)
  | sampler (sampler : Sampler)
  deriving DecidableEq, Repr

/-- What a record tells, in order. -/
def Record.notices : Record → List Notice
  | exporter e => [.exporter e]
  | counters batch => batch.entries.map .counters
  | sampler s => [.sampler s]
  | foreign _ => []

namespace Notice

/-- The number by which a notice names its exporter. -/
def number : Notice → UInt32
  | exporter e => e.sysid.toUInt32
  | counters snapshot => snapshot.sysid
  | sampler s => s.exporterSysid.toUInt32

/-- What several records tell, in order. -/
def ofRecords (records : List Record) : List Notice := records.flatMap Record.notices

@[simp] theorem ofRecords_append (records more : List Record) :
    ofRecords (records ++ more) = ofRecords records ++ ofRecords more := by
  simp [ofRecords]

end Notice

namespace Ledger

def learn (ledger : Ledger) : Notice → Ledger × List Event
  | .exporter exporter => ledger.applyExporter exporter
  | .counters snapshot => ledger.applySnapshot snapshot
  | .sampler sampler => ledger.applySampler sampler

/-- Takes in notices in order and reports all changes in order. -/
def learnAll (ledger : Ledger) : List Notice → Ledger × List Event
  | [] => (ledger, [])
  | notice :: notices =>
    let (ledger, events) := ledger.learn notice
    let (ledger, later) := ledger.learnAll notices
    (ledger, events ++ later)

theorem learnAll_append (ledger : Ledger) (notices more : List Notice) :
    ledger.learnAll (notices ++ more) =
      let (middle, events) := ledger.learnAll notices
      let (last, later) := middle.learnAll more
      (last, events ++ later) := by
  induction notices generalizing ledger with
  | nil => rfl
  | cons notice notices ih => simp only [List.cons_append, learnAll, ih, List.append_assoc]

theorem learnAll_concat (ledger : Ledger) (notices : List Notice) (notice : Notice) :
    ledger.learnAll (notices ++ [notice]) =
      (((ledger.learnAll notices).1.learn notice).1,
        (ledger.learnAll notices).2 ++ ((ledger.learnAll notices).1.learn notice).2) := by
  rw [learnAll_append]
  simp only [learnAll, List.append_nil]

theorem applySnapshots_eq_learnAll (ledger : Ledger) (snapshots : List CounterSnapshot) :
    ledger.applySnapshots snapshots = ledger.learnAll (snapshots.map .counters) := by
  induction snapshots generalizing ledger with
  | nil => rfl
  | cons snapshot snapshots ih =>
    rw [applySnapshots, List.map_cons, learnAll]
    simp only [ih]
    rfl

theorem apply_eq_learnAll (ledger : Ledger) (record : Record) :
    ledger.apply record = ledger.learnAll record.notices := by
  cases record with
  | exporter exporter => simp [apply, Record.notices, learnAll, learn]
  | counters batch => exact applySnapshots_eq_learnAll ledger batch.entries
  | sampler sampler => simp [apply, Record.notices, learnAll, learn]
  | foreign record => rfl

/-- A ledger takes records in notice by notice. -/
theorem applyAll_eq_learnAll (ledger : Ledger) (records : List Record) :
    ledger.applyAll records = ledger.learnAll (Notice.ofRecords records) := by
  induction records generalizing ledger with
  | nil => rfl
  | cons record records ih =>
    rw [applyAll, Notice.ofRecords, List.flatMap_cons, learnAll_append, ← apply_eq_learnAll]
    simp only [ih]
    rfl

/-- What is known of an exporter after a notice of it, and the events of that. -/
def respond (known : Option Entry) : Notice → Option Entry × List Event
  | .exporter exporter => match known with
    | none => (some (.ofExporter exporter), [.exporterAdded exporter.sysid])
    | some entry => (some (entry.announce exporter).1, (entry.announce exporter).2)
  | .counters snapshot => match known with
    | none => (none, [.unknownExporter snapshot.sysid RecordKind.countersCode])
    | some entry => (some (entry.count snapshot).1, (entry.count snapshot).2)
  | .sampler sampler => match known with
    | none => (none, [.unknownExporter sampler.exporterSysid.toUInt32 RecordKind.samplerCode])
    | some entry => (some (entry.sample sampler).1, (entry.sample sampler).2)

section Learning

variable {ledger : Ledger} {notice : Notice} {sysid : UInt16}

theorem get?_update (ledger : Ledger) (sysid : UInt16) (change : Entry × List Event)
    (key : UInt16) :
    (ledger.update sysid change).1.get? key =
      if key = sysid then some change.1 else ledger.get? key :=
  CodeMap.get?_insert ..

theorem applySnapshot_of_sysid {snapshot : CounterSnapshot}
    (h : snapshot.sysid = sysid.toUInt32) :
    ledger.applySnapshot snapshot = match ledger.get? sysid with
      | none => (ledger, [.unknownExporter snapshot.sysid RecordKind.countersCode])
      | some entry => ledger.update sysid (entry.count snapshot) := by
  have hnarrow : snapshot.sysid.toUInt16 = sysid := by rw [h, UInt16.toUInt16_toUInt32]
  rw [applySnapshot, hnarrow]
  cases ledger.get? sysid <;> simp [h]

/-- A ledger stores what it knows of a notice's exporter from then on, if anything. -/
theorem learn_eq_respond (h : notice.number = sysid.toUInt32) :
    ledger.learn notice = match respond (ledger.get? sysid) notice with
      | (none, events) => (ledger, events)
      | (some entry, events) => ledger.update sysid (entry, events) := by
  cases notice with
  | exporter exporter =>
    obtain rfl : exporter.sysid = sysid := UInt16.toUInt32_inj.mp h
    rw [learn, applyExporter]
    cases ledger.get? exporter.sysid <;> rfl
  | counters snapshot =>
    rw [learn, applySnapshot_of_sysid h]
    cases ledger.get? sysid <;> rfl
  | sampler sampler =>
    obtain rfl : sampler.exporterSysid = sysid := UInt16.toUInt32_inj.mp h
    rw [learn, applySampler]
    cases ledger.get? sampler.exporterSysid <;> rfl

/-- What is known is never forgotten. -/
theorem respond_some (entry : Entry) (notice : Notice) :
    ∃ next, (respond (some entry) notice).1 = some next := by
  cases notice with
  | exporter exporter => exact ⟨_, rfl⟩
  | counters snapshot => exact ⟨_, rfl⟩
  | sampler sampler => exact ⟨_, rfl⟩

/-- A notice has the same effect on what is known of its exporter as if there were no others, and
no effect on what is known of the others. -/
theorem learn_of_number (h : notice.number = sysid.toUInt32) :
    (ledger.learn notice).2 = (respond (ledger.get? sysid) notice).2 ∧
      ∀ key, (ledger.learn notice).1.get? key =
        if key = sysid then (respond (ledger.get? sysid) notice).1 else ledger.get? key := by
  rw [learn_eq_respond h]
  cases hrespond : respond (ledger.get? sysid) notice with
  | mk next events =>
    cases next with
    | some entry => exact ⟨rfl, get?_update ledger sysid _⟩
    | none =>
      refine ⟨rfl, fun key => ?_⟩
      by_cases hkey : key = sysid
      · rw [if_pos hkey, hkey]
        cases hknown : ledger.get? sysid with
        | none => rfl
        | some entry =>
          obtain ⟨next, hnext⟩ := respond_some entry notice
          rw [← hknown, hrespond] at hnext
          cases hnext
      · rw [if_neg hkey]

theorem events_learn (h : notice.number = sysid.toUInt32) :
    (ledger.learn notice).2 = (respond (ledger.get? sysid) notice).2 := (learn_of_number h).1

theorem get?_learn (h : notice.number = sysid.toUInt32) :
    (ledger.learn notice).1.get? sysid = (respond (ledger.get? sysid) notice).1 := by
  rw [(learn_of_number h).2, if_pos rfl]

/-- Only counters can name a number that no exporter has. Nothing comes of them but a report. -/
theorem learn_of_stranger (h : ∀ sysid : UInt16, notice.number ≠ sysid.toUInt32) :
    ledger.learn notice =
      (ledger, [.unknownExporter notice.number RecordKind.countersCode]) := by
  cases notice with
  | exporter exporter => exact absurd rfl (h exporter.sysid)
  | counters snapshot =>
    have hwide : ¬ snapshot.sysid.toUInt16.toUInt32 = snapshot.sysid := fun heq => h _ heq.symm
    rw [learn, applySnapshot]
    simp only [hwide, ↓reduceIte, Notice.number]
  | sampler sampler => exact absurd rfl (h sampler.exporterSysid)

theorem get?_learn_of_ne (h : notice.number ≠ sysid.toUInt32) :
    (ledger.learn notice).1.get? sysid = ledger.get? sysid := by
  by_cases hnamed : ∃ key : UInt16, notice.number = key.toUInt32
  · obtain ⟨key, hkey⟩ := hnamed
    have hne : sysid ≠ key := fun heq => h (heq ▸ hkey)
    rw [(learn_of_number hkey).2, if_neg hne]
  · rw [learn_of_stranger fun key hkey => hnamed ⟨key, hkey⟩]

end Learning

end Ledger

end ExporterRecords
