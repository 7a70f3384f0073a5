import ExporterRecords.Proofs.Ledger.Chains
import ExporterRecords.Proofs.Ledger.Independence
import ExporterRecords.Proofs.Ledger.Lifecycle

/-!
# Taking in the same records again

The second time, an exporter starts with all that the records left behind. Its first record either
shows another device, and all of that is forgotten; or it is laid under what comes now, which takes
its place piece by piece. What was taken in once has nothing below it that could show through, so
the ledger ends as it began.
-/
namespace ExporterRecords.Ledger

open Notice

/-- The chain that is left when a newer chain was announced on top of an older one. -/
def overlay (older newer : List Sampler) : List Sampler :=
  if newer.any (·.selector = .overwrite) then newer
  else older.filter (fun below => newer.all (·.selector ≠ below.selector)) ++ newer

/-- What is known when newer records came on top of what was known before of the same device. -/
def Entry.beneath (older newer : Entry) : Entry where
  exporter := newer.exporter
  counters := newer.counters.or older.counters
  samplers := overlay older.samplers newer.samplers

section Overlay

variable {newer : List Sampler} {sampler : Sampler}

/-- A chain covers itself. -/
theorem overlay_self (chain : List Sampler) : overlay chain chain = chain := by
  unfold overlay
  split
  · rfl
  · have hcovered : chain.filter
        (fun below => chain.all (·.selector ≠ below.selector)) = [] := by
      apply List.filter_eq_nil_iff.mpr
      intro below hmem hall
      exact of_decide_eq_true (List.all_eq_true.mp hall below hmem) rfl
    rw [hcovered, List.nil_append]

theorem any_overwrite_concat (h : sampler.selector ≠ .overwrite) :
    (newer.filter (·.selector ≠ sampler.selector) ++ [sampler]).any (·.selector = .overwrite) =
      newer.any (·.selector = .overwrite) := by
  rw [List.any_append, List.any_filter]
  simp only [List.any_cons, List.any_nil, h, decide_false, Bool.or_false]
  congr 1
  funext other
  by_cases hother : other.selector = .overwrite
  · simp [hother, Ne.symm h]
  · simp [hother]

/-- With a sampler more, a chain covers that sampler's selector too. -/
theorem all_ne_concat (selector : Sampler.Selector) :
    (newer.filter (·.selector ≠ sampler.selector) ++ [sampler]).all (·.selector ≠ selector) =
      (decide (selector ≠ sampler.selector) && newer.all (·.selector ≠ selector)) := by
  by_cases h : selector = sampler.selector
  · simp [h]
  · rw [List.all_append, List.all_filter, Bool.and_comm]
    congr 1
    · simp [h, Ne.symm h]
    · congr 1
      funext other
      by_cases hother : other.selector = sampler.selector
      · simp [hother, Ne.symm h]
      · simp [hother]

/-- A sampler goes to the end of what shows of both chains as it goes to the end of the newer. -/
theorem overlay_concat (older newer : List Sampler) (h : sampler.selector ≠ .overwrite) :
    overlay older (newer.filter (·.selector ≠ sampler.selector) ++ [sampler]) =
      (overlay older newer).filter (·.selector ≠ sampler.selector) ++ [sampler] := by
  unfold overlay
  rw [any_overwrite_concat h]
  split
  · rfl
  · rw [List.filter_append, List.filter_filter, List.append_assoc]
    simp only [all_ne_concat]

end Overlay

namespace Entry

theorem beneath_self (entry : Entry) : entry.beneath entry = entry := by
  obtain ⟨exporter, counters, samplers⟩ := entry
  simp only [beneath, overlay_self, Option.or_self]

/-- An exporter record starts anew, on top of what was known if that was of the same device. -/
theorem announce_eq_or (older : Entry) (exporter : Exporter) :
    (older.announce exporter).1 = .ofExporter exporter ∨
      (older.announce exporter).1 = older.beneath (.ofExporter exporter) := by
  unfold announce
  dsimp only
  split
  · right
    simp [beneath, ofExporter, overlay]
  · exact .inl rfl

theorem beneath_count (older newer : Entry) (snapshot : CounterSnapshot) :
    ((older.beneath newer).count snapshot).1 = older.beneath (newer.count snapshot).1 := rfl

theorem beneath_sample (older newer : Entry) (sampler : Sampler) :
    ((older.beneath newer).sample sampler).1 = older.beneath (newer.sample sampler).1 := by
  have hsamplers : ((older.beneath newer).sample sampler).1.samplers =
      overlay older.samplers (newer.sample sampler).1.samplers := by
    rw [samplers_sample, samplers_sample]
    by_cases hoverwrite : sampler.selector = .overwrite
    · simp [hoverwrite, overlay]
    · rw [if_neg hoverwrite, if_neg hoverwrite, overlay_concat _ _ hoverwrite]
      rfl
  exact congrArg (fun samplers => Entry.mk newer.exporter _ samplers) hsamplers

end Entry

section Again

variable {notices : List Notice}

/-- A notice either leaves what lies below, or shows another device and forgets it. -/
theorem respond_beneath (older newer : Entry) (notice : Notice) :
    ∃ next, (respond (some newer) notice).1 = some next ∧
      ((respond (some (older.beneath newer)) notice).1 = some next ∨
        (respond (some (older.beneath newer)) notice).1 = some (older.beneath next)) := by
  cases notice with
  | exporter exporter =>
    refine ⟨_, rfl, ?_⟩
    have hexporter : (older.beneath newer).exporter = newer.exporter := rfl
    simp only [respond, Entry.announce, hexporter]
    split
    · exact .inr rfl
    · exact .inl rfl
  | counters snapshot =>
    exact ⟨_, rfl, .inr (congrArg some (Entry.beneath_count older newer snapshot))⟩
  | sampler sampler =>
    exact ⟨_, rfl, .inr (congrArg some (Entry.beneath_sample older newer sampler))⟩

/-- The same after several notices: once another device was shown, both are the same. -/
theorem respondAll_beneath (older newer : Entry) (notices : List Notice) :
    ∃ last, (respondAll (some newer) notices).1 = some last ∧
      ((respondAll (some (older.beneath newer)) notices).1 = some last ∨
        (respondAll (some (older.beneath newer)) notices).1 = some (older.beneath last)) := by
  induction notices generalizing newer with
  | nil => exact ⟨newer, rfl, .inr rfl⟩
  | cons notice notices ih =>
    obtain ⟨next, hnext, hcovered⟩ := respond_beneath older newer notice
    obtain ⟨last, hlast, hlater⟩ := ih next
    refine ⟨last, ?_, ?_⟩
    · simp only [respondAll, hnext, hlast]
    · rcases hcovered with hsame | hbeneath
      · simp only [respondAll, hsame, hlast, true_or]
      · simp only [respondAll, hbeneath]
        exact hlater

theorem respondAll_some (entry : Entry) (notices : List Notice) :
    ∃ last, (respondAll (some entry) notices).1 = some last := by
  induction notices generalizing entry with
  | nil => exact ⟨entry, rfl⟩
  | cons notice notices ih =>
    obtain ⟨next, hnext⟩ := respond_some entry notice
    simp only [respondAll, hnext]
    exact ih next

/-- A known exporter is neither added nor reported as unknown. -/
theorem quiet_respondAll_some (entry : Entry) (notices : List Notice) :
    ∀ event ∈ (respondAll (some entry) notices).2,
      event.isAdded = false ∧ event.isUnknown = false := by
  induction notices generalizing entry with
  | nil =>
    intro event hmem
    cases hmem
  | cons notice notices ih =>
    obtain ⟨next, hnext⟩ := respond_some entry notice
    intro event hmem
    simp only [respondAll, hnext, List.mem_append] at hmem
    rcases hmem with hnow | hlater
    · have hadded := List.countP_eq_zero.mp (countP_isAdded_respond_some entry notice) event hnow
      exact ⟨Bool.eq_false_iff.mpr hadded, not_isUnknown_respond_some hnow⟩
    · exact ih next event hlater

/-- An exporter of which nothing came before its first record ends the second time as the first
time, and is neither added again nor unknown. -/
theorem respondAll_again (h : ∀ event ∈ (respondAll none notices).2, event.isUnknown = false) :
    let first := respondAll none notices
    let second := respondAll first.1 notices
    second.1 = first.1 ∧
      ∀ event ∈ second.2, event.isAdded = false ∧ event.isUnknown = false := by
  cases notices with
  | nil => exact ⟨rfl, nofun⟩
  | cons notice later =>
    cases notice with
    | counters snapshot => cases h _ (List.mem_append_left _ (List.mem_singleton_self _))
    | sampler sampler => cases h _ (List.mem_append_left _ (List.mem_singleton_self _))
    | exporter exporter =>
      intro first second
      have hfirst : first.1 = (respondAll (some (.ofExporter exporter)) later).1 := rfl
      obtain ⟨base, hbase⟩ := respondAll_some (.ofExporter exporter) later
      have hsecond : second = respondAll (some base) (.exporter exporter :: later) := by
        simp only [second, hfirst, hbase]
      rw [hsecond]
      refine ⟨?_, quiet_respondAll_some base _⟩
      obtain ⟨last, hlast, hcovered⟩ := respondAll_beneath base (.ofExporter exporter) later
      obtain rfl : base = last := Option.some.inj (hbase.symm.trans hlast)
      rw [hfirst, hbase]
      simp only [respondAll, respond]
      rcases base.announce_eq_or exporter with hanew | hbeneath
      · rw [hanew, hlast]
      · rw [hbeneath]
        rcases hcovered with hsame | hself
        · exact hsame
        · rw [hself, base.beneath_self]

end Again

/-- In a run from the start, each exporter is answered by its own notices alone, from nothing. -/
theorem learnAll_empty_known (notices : List Notice) (number : UInt32) :
    (ofNotices notices).known number = (respondAll none (about number notices)).1 ∧
      eventsAbout number (empty.learnAll notices).2 =
        (respondAll none (about number notices)).2 := by
  have hstart : (ofNotices []).known number = none := by
    unfold known
    split <;> rfl
  have h := learnAll_known [] notices number
  rw [hstart] at h
  exact h

/-- Records none of which is for an exporter that is not known yet can be taken in again: the
ledger stays as it is, and no exporter is added or unknown the second time. -/
theorem applyAll_again (records : List Record)
    (hknown : ∀ event ∈ (empty.applyAll records).2, event.isUnknown = false) :
    let first := empty.applyAll records
    let second := first.1.applyAll records
    second.1 = first.1 ∧
      ∀ event ∈ second.2, event.isAdded = false ∧ event.isUnknown = false := by
  intro first second
  have hledger : first.1 = ofNotices (ofRecords records) := applyAll_empty records
  have hanswer : second = (ofNotices (ofRecords records)).learnAll (ofRecords records) := by
    rw [← hledger]
    exact applyAll_eq_learnAll _ _
  rw [applyAll_eq_learnAll] at hknown
  rw [hanswer, hledger]
  generalize ofRecords records = notices at hknown ⊢
  have hagain (number : UInt32) : let own := about number notices
      (respondAll ((ofNotices notices).known number) own).1 = (ofNotices notices).known number ∧
        ∀ event ∈ (respondAll ((ofNotices notices).known number) own).2,
          event.isAdded = false ∧ event.isUnknown = false := by
    obtain ⟨hfirst, hevents⟩ := learnAll_empty_known notices number
    intro own
    rw [hfirst]
    apply respondAll_again
    intro event hmem
    rw [← hevents] at hmem
    exact hknown event (List.mem_filter.mp hmem).1
  constructor
  · apply eq_of_known_eq
    intro number
    rw [(learnAll_known notices notices number).1]
    exact (hagain number).1
  · intro event hmem
    have habout : event ∈ eventsAbout event.number ((ofNotices notices).learnAll notices).2 :=
      List.mem_filter.mpr ⟨hmem, decide_eq_true rfl⟩
    rw [(learnAll_known notices notices event.number).2] at habout
    exact (hagain event.number).2 event habout

/-- Another device has the number in between, so the number changes hands the second time too, and
the chain is overwritten on both sides of that. -/
theorem applyAll_again_after_return :
    let device : Exporter := { version := 9, address := .v4 7, sysid := 5, id := 1 }
    let guest : Exporter := { device with id := 2 }
    let sampler (selector : Sampler.Selector) (interval : UInt32) : Record :=
      .sampler ⟨5, 1, selector, interval, 0⟩
    let records : List Record := [.exporter device, .counters ⟨[⟨5, 0, 9, 9⟩]⟩,
      sampler (.explicit 7) 1, .exporter guest, .exporter device, sampler .overwrite 2,
      sampler (.explicit 7) 3, .counters ⟨[⟨5, 0, 4, 4⟩, ⟨5, 0, 6, 6⟩]⟩, sampler .overwrite 4,
      sampler .generic 5]
    (∀ event ∈ (empty.applyAll records).2, event.isUnknown = false) ∧
      ((empty.applyAll records).1.applyAll records).1 = (empty.applyAll records).1 ∧
      .exporterReplaced 5 guest ∈ ((empty.applyAll records).1.applyAll records).2 := by
  intro device guest sampler records
  have hknown : ∀ event ∈ (empty.applyAll records).2, event.isUnknown = false := by decide
  exact ⟨hknown, (applyAll_again records hknown).1, by decide⟩

end ExporterRecords.Ledger
