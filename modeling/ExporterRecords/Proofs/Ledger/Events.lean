import ExporterRecords.Proofs.Ledger.Notices

/-!
# What a notice brings about

The events that come of a notice are told by the notice and by what was known of its exporter: a
change of the device or its version, the counters that went backwards, a chain that was cleared, or
that the exporter is not known.
-/
namespace ExporterRecords

namespace Counter

/-- The counters in the order of a snapshot's fields. -/
def all : List Counter := [.sequenceFailures, .packets, .flows]

def value : Counter → CounterSnapshot → UInt64
  | sequenceFailures, snapshot => snapshot.sequenceFailures.toUInt64
  | packets, snapshot => snapshot.packets
  | flows, snapshot => snapshot.flows

theorem mem_all (counter : Counter) : counter ∈ all := by
  cases counter <;> simp [all]

end Counter

namespace Ledger

/-- The reports of the counters that went backwards from one snapshot to the next. -/
def setbacks (sysid : UInt16) (previous current : CounterSnapshot) : List Event :=
  (Counter.all.filter fun counter => counter.value current < counter.value previous).map
    fun counter => .counterRegression sysid counter (counter.value previous) (counter.value current)

theorem regressions_eq_setbacks (sysid : UInt16) (previous current : CounterSnapshot) :
    Entry.regressions sysid previous current = setbacks sysid previous current := by
  have hone (counters : List Counter) :
      (counters.filter fun counter => counter.value current < counter.value previous).map
          (fun counter => Event.counterRegression sysid counter (counter.value previous)
            (counter.value current)) =
        counters.flatMap fun counter => Entry.regression sysid counter (counter.value previous)
          (counter.value current) := by
    induction counters with
    | nil => rfl
    | cons counter counters ih =>
      rw [List.flatMap_cons, ← ih, List.filter_cons, Entry.regression]
      by_cases hless : counter.value current < counter.value previous <;> simp [hless]
  rw [setbacks, hone]
  simp [Entry.regressions, Counter.all, Counter.value]

theorem mem_setbacks_iff {sysid : UInt16} {previous current : CounterSnapshot} {event : Event} :
    event ∈ setbacks sysid previous current ↔
      ∃ counter : Counter, counter.value current < counter.value previous ∧
        event = .counterRegression sysid counter (counter.value previous)
          (counter.value current) := by
  rw [setbacks, List.mem_map]
  constructor
  · rintro ⟨counter, hmem, rfl⟩
    exact ⟨counter, of_decide_eq_true (List.mem_filter.mp hmem).2, rfl⟩
  · rintro ⟨counter, hless, rfl⟩
    exact ⟨counter, List.mem_filter.mpr ⟨counter.mem_all, decide_eq_true hless⟩, rfl⟩

/-- The events that a notice brings about, where this much is known of its exporter. -/
inductive Brings (known : Option Entry) : Notice → Event → Prop
  | added {exporter : Exporter} (unseen : known = none) :
    Brings known (.exporter exporter) (.exporterAdded exporter.sysid)
  | versionChanged {exporter : Exporter} {entry : Entry} (seen : known = some entry)
    (same : entry.exporter.sameDevice exporter = true)
    (differs : entry.exporter.version ≠ exporter.version) :
    Brings known (.exporter exporter)
      (.versionChanged exporter.sysid entry.exporter.version exporter.version)
  | replaced {exporter : Exporter} {entry : Entry} (seen : known = some entry)
    (other : entry.exporter.sameDevice exporter = false) :
    Brings known (.exporter exporter) (.exporterReplaced exporter.sysid entry.exporter)
  | setback {snapshot previous : CounterSnapshot} {entry : Entry} {counter : Counter}
    (seen : known = some entry) (counted : entry.counters = some previous)
    (less : counter.value snapshot < counter.value previous) :
    Brings known (.counters snapshot) (.counterRegression entry.exporter.sysid counter
      (counter.value previous) (counter.value snapshot))
  | cleared {sampler : Sampler} {entry : Entry} (seen : known = some entry)
    (overwrites : sampler.selector = .overwrite) (chained : entry.samplers ≠ []) :
    Brings known (.sampler sampler)
      (.samplersCleared sampler.exporterSysid entry.samplers.length)
  | strangeCounters {snapshot : CounterSnapshot} (unseen : known = none) :
    Brings known (.counters snapshot)
      (.unknownExporter snapshot.sysid RecordKind.countersCode)
  | strangeSampler {sampler : Sampler} (unseen : known = none) :
    Brings known (.sampler sampler)
      (.unknownExporter sampler.exporterSysid.toUInt32 RecordKind.samplerCode)

theorem mem_respond_iff {known : Option Entry} {notice : Notice} {event : Event} :
    event ∈ (respond known notice).2 ↔ Brings known notice event := by
  constructor
  · intro h
    cases notice with
    | exporter exporter =>
      cases known with
      | none =>
        cases List.mem_singleton.mp h
        exact .added rfl
      | some entry =>
        simp only [respond, Entry.announce] at h
        split at h
        · rename_i hsame
          simp only [List.mem_ite_nil_left, List.mem_singleton] at h
          obtain ⟨hdiffers, rfl⟩ := h
          exact .versionChanged rfl hsame hdiffers
        · rename_i hother
          cases List.mem_singleton.mp h
          exact .replaced rfl (Bool.eq_false_iff.mpr hother)
    | counters snapshot =>
      cases known with
      | none =>
        cases List.mem_singleton.mp h
        exact .strangeCounters rfl
      | some entry =>
        cases hcounters : entry.counters with
        | none => simp [respond, Entry.count, hcounters] at h
        | some previous =>
          simp only [respond, Entry.count, hcounters, regressions_eq_setbacks,
            mem_setbacks_iff] at h
          obtain ⟨counter, hless, rfl⟩ := h
          exact .setback rfl hcounters hless
    | sampler sampler =>
      cases known with
      | none =>
        cases List.mem_singleton.mp h
        exact .strangeSampler rfl
      | some entry =>
        simp only [respond, Entry.sample] at h
        split at h
        · rename_i hclears
          cases List.mem_singleton.mp h
          exact .cleared rfl hclears.1 hclears.2
        · cases h
  · intro h
    cases h with
    | added unseen => simp [unseen, respond]
    | versionChanged seen same differs =>
      simp [seen, respond, Entry.announce, same, differs]
    | replaced seen other => simp [seen, respond, Entry.announce, other]
    | setback seen counted less =>
      simp only [seen, respond, Entry.count, counted, regressions_eq_setbacks]
      exact mem_setbacks_iff.mpr ⟨_, less, rfl⟩
    | cleared seen overwrites chained =>
      simp [seen, respond, Entry.sample, overwrites, chained]
    | strangeCounters unseen => simp [unseen, respond]
    | strangeSampler unseen => simp [unseen, respond]

/-- An event is one that the notice brings about for its exporter, unless no exporter can have the
number. -/
theorem brings_of_mem_learn {ledger : Ledger} {notice : Notice} {event : Event}
    (h : event ∈ (ledger.learn notice).2) :
    (∃ sysid : UInt16, notice.number = sysid.toUInt32 ∧ Brings (ledger.get? sysid) notice event) ∨
      event = .unknownExporter notice.number RecordKind.countersCode := by
  by_cases hnamed : ∃ sysid : UInt16, notice.number = sysid.toUInt32
  · obtain ⟨sysid, hsysid⟩ := hnamed
    rw [events_learn hsysid, mem_respond_iff] at h
    exact .inl ⟨sysid, hsysid, h⟩
  · rw [learn_of_stranger fun sysid hsysid => hnamed ⟨sysid, hsysid⟩] at h
    exact .inr (List.mem_singleton.mp h)

end Ledger

end ExporterRecords
