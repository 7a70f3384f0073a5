import ExporterRecords.Proofs.Ledger.Sessions

/-!
# Chains of samplers

The chain of an exporter holds the samplers of its latest session from the last overwriting one on.
A sampler that was announced again stands only where it was announced last, so a chain has each
selector once, and an overwriting one at most at its front.
-/
namespace ExporterRecords.Ledger

/-- The samplers from the last overwriting one on, or all of them if none overwrites. -/
def sinceOverwrite : List Sampler → List Sampler
  | [] => []
  | sampler :: later =>
    if later.any (·.selector = .overwrite) then sinceOverwrite later else sampler :: later

/-- The samplers of which no later one has the same selector. -/
def lastOfEach : List Sampler → List Sampler
  | [] => []
  | sampler :: later =>
    if later.any (·.selector = sampler.selector) then lastOfEach later
    else sampler :: lastOfEach later

/-- The chain that is left when these samplers were announced in this order. -/
def chain (samplers : List Sampler) : List Sampler := lastOfEach (sinceOverwrite samplers)

variable {samplers : List Sampler} {sampler : Sampler}

theorem sinceOverwrite_concat (samplers : List Sampler) (sampler : Sampler) :
    sinceOverwrite (samplers ++ [sampler]) =
      if sampler.selector = .overwrite then [sampler] else sinceOverwrite samplers ++ [sampler] := by
  induction samplers with
  | nil => simp [sinceOverwrite]
  | cons first later ih =>
    by_cases hoverwrite : sampler.selector = .overwrite
    · simp [sinceOverwrite, ih, hoverwrite]
    · by_cases hlater : later.any (·.selector = .overwrite) = true
      · simp [sinceOverwrite, ih, hoverwrite, hlater]
      · simp [sinceOverwrite, hoverwrite, hlater]

theorem getLast?_sinceOverwrite (samplers : List Sampler) :
    (sinceOverwrite samplers).getLast? = samplers.getLast? := by
  induction samplers using List.reverseRecOn with
  | nil => rfl
  | append_singleton samplers sampler _ =>
    rw [sinceOverwrite_concat]
    split <;> simp

theorem sinceOverwrite_sublist (samplers : List Sampler) :
    (sinceOverwrite samplers).Sublist samplers := by
  induction samplers with
  | nil => exact .slnil
  | cons first later ih =>
    rw [sinceOverwrite]
    split
    · exact ih.cons first
    · exact .refl _

theorem not_overwrite_of_mem_tail (h : sampler ∈ (sinceOverwrite samplers).tail) :
    sampler.selector ≠ .overwrite := by
  induction samplers with
  | nil => cases h
  | cons first later ih =>
    rw [sinceOverwrite] at h
    split at h
    · exact ih h
    · rename_i hlater
      intro hoverwrite
      exact hlater (List.any_eq_true.mpr ⟨sampler, h, decide_eq_true hoverwrite⟩)

theorem lastOfEach_concat (samplers : List Sampler) (sampler : Sampler) :
    lastOfEach (samplers ++ [sampler]) =
      (lastOfEach samplers).filter (·.selector ≠ sampler.selector) ++ [sampler] := by
  induction samplers with
  | nil => rfl
  | cons first later ih =>
    have hany : (later ++ [sampler]).any (·.selector = first.selector) =
        (later.any (·.selector = first.selector) || decide (sampler.selector = first.selector)) := by
      simp
    rw [List.cons_append, lastOfEach, lastOfEach, hany, ih]
    by_cases hlater : later.any (·.selector = first.selector) = true
    · rw [hlater]
      rfl
    · rw [Bool.not_eq_true] at hlater
      rw [hlater]
      by_cases hsame : sampler.selector = first.selector
      · simp [hsame]
      · simp [hsame, Ne.symm hsame]

theorem lastOfEach_sublist (samplers : List Sampler) : (lastOfEach samplers).Sublist samplers := by
  induction samplers with
  | nil => exact .slnil
  | cons first later ih =>
    rw [lastOfEach]
    split
    · exact ih.cons first
    · exact ih.cons_cons first

theorem mem_tail_of_mem_tail_lastOfEach (h : sampler ∈ (lastOfEach samplers).tail) :
    sampler ∈ samplers.tail := by
  cases samplers with
  | nil => cases h
  | cons first later =>
    rw [lastOfEach] at h
    split at h
    · exact (lastOfEach_sublist later).subset (List.mem_of_mem_tail h)
    · exact (lastOfEach_sublist later).subset h

theorem nodup_lastOfEach (samplers : List Sampler) :
    ((lastOfEach samplers).map (·.selector)).Nodup := by
  induction samplers with
  | nil => exact .nil
  | cons first later ih =>
    rw [lastOfEach]
    split
    · exact ih
    · rename_i hlater
      rw [List.map_cons, List.nodup_cons]
      refine ⟨fun hmem => hlater ?_, ih⟩
      obtain ⟨other, hother, hselector⟩ := List.mem_map.mp hmem
      exact List.any_eq_true.mpr
        ⟨other, (lastOfEach_sublist later).subset hother, decide_eq_true hselector⟩

theorem getLast?_lastOfEach (samplers : List Sampler) :
    (lastOfEach samplers).getLast? = samplers.getLast? := by
  induction samplers using List.reverseRecOn with
  | nil => rfl
  | append_singleton samplers sampler _ =>
    rw [lastOfEach_concat, List.getLast?_concat, List.getLast?_concat]

/-- The last sampler with a selector is the same as among all samplers. -/
theorem getLast?_filter_lastOfEach (samplers : List Sampler) (selector : Sampler.Selector) :
    ((lastOfEach samplers).filter (·.selector = selector)).getLast? =
      (samplers.filter (·.selector = selector)).getLast? := by
  induction samplers using List.reverseRecOn with
  | nil => rfl
  | append_singleton samplers sampler ih =>
    rw [lastOfEach_concat, List.filter_append, List.filter_append, List.getLast?_append,
      List.getLast?_append]
    by_cases hsampler : sampler.selector = selector
    · simp [hsampler]
    · have hkept : ((lastOfEach samplers).filter (·.selector ≠ sampler.selector)).filter
          (·.selector = selector) = (lastOfEach samplers).filter (·.selector = selector) := by
        rw [List.filter_filter]
        apply List.filter_congr
        intro other _
        by_cases hother : other.selector = selector
        · simp [hother, Ne.symm hsampler]
        · simp [hother]
      rw [hkept, ih]

theorem chain_concat (samplers : List Sampler) (sampler : Sampler) :
    chain (samplers ++ [sampler]) =
      if sampler.selector = .overwrite then [sampler]
      else (chain samplers).filter (·.selector ≠ sampler.selector) ++ [sampler] := by
  rw [chain, sinceOverwrite_concat]
  split
  · rfl
  · exact lastOfEach_concat ..

theorem samplers_sample (entry : Entry) (sampler : Sampler) :
    (entry.sample sampler).1.samplers =
      if sampler.selector = .overwrite then [sampler]
      else entry.samplers.filter (·.selector ≠ sampler.selector) ++ [sampler] := by
  by_cases hoverwrite : sampler.selector = .overwrite
  · by_cases hempty : entry.samplers = [] <;> simp [Entry.sample, hoverwrite, hempty]
  · simp [Entry.sample, hoverwrite]

@[simp] theorem samplers_count (entry : Entry) (snapshot : CounterSnapshot) :
    (entry.count snapshot).1.samplers = entry.samplers := rfl

section Ledgers

open Notice

variable {sysid : UInt16}

theorem exporterSysid_of_mem_samplersOf {notices : List Notice}
    (h : sampler ∈ samplersOf sysid notices) : sampler.exporterSysid = sysid := by
  obtain ⟨notice, -, hnotice⟩ := List.mem_filterMap.mp h
  exact (sampler?_eq_some_iff.mp hnotice).2

/-- The chain of an exporter is that of the samplers in its session. -/
theorem reads_samplers (sysid : UInt16) :
    Reads sysid Entry.samplers fun session => chain (samplersOf sysid session) where
  start _ := rfl
  other session notice hnumber := by simp [samplersOf, sampler?_of_ne hnumber]
  exporter session entry exporter h := by simpa [samplersOf, List.filterMap_cons] using h
  counters session entry snapshot _ h := by simpa [samplersOf, List.filterMap_cons] using h
  sampler session entry sampler hsysid h := by
    simp [samplersOf, Notice.sampler?, hsysid, samplers_sample, h, chain_concat]

theorem explicit?_eq_some_iff {selector : Sampler.Selector} {id : Int64} :
    selector.explicit? = some id ↔ selector = .explicit id := by
  cases selector <;> simp [Sampler.Selector.explicit?]

/-- Looking up an explicit id finds the last sampler with it since the chain was overwritten. -/
theorem sampler?_some_of_samplers {entry : Entry} (h : entry.samplers = chain samplers)
    (id : Int64) :
    entry.sampler? (some id) =
      ((sinceOverwrite samplers).filter (·.selector = .explicit id)).getLast? := by
  simp only [Entry.sampler?, explicit?_eq_some_iff]
  rw [← List.getLast?_filter, h, chain, getLast?_filter_lastOfEach]

/-- Whether an event says that a chain was cleared. -/
def Event.isClearing : Event → Bool
  | samplersCleared .. => true
  | _ => false

theorem filter_isClearing_learn (ledger : Ledger) (sampler : Sampler) :
    (ledger.learn (.sampler sampler)).2.filter Event.isClearing =
      let chain := ((ledger.get? sampler.exporterSysid).map (·.samplers)).getD []
      if sampler.selector = .overwrite ∧ chain ≠ [] then
        [.samplersCleared sampler.exporterSysid chain.length]
      else [] := by
  have hnumber : (Notice.sampler sampler).number = sampler.exporterSysid.toUInt32 := rfl
  rw [events_learn hnumber]
  cases ledger.get? sampler.exporterSysid with
  | none => simp [respond, Event.isClearing]
  | some entry =>
    simp only [respond, Entry.sample, Option.map_some, Option.getD_some]
    split <;> rfl

/-- In any run, the chain of an exporter holds what was sampled since its number was given to a
device: from the last overwriting sampler on, each selector where it was announced last. The sampler
in effect is the latest one, or the latest with an explicit id. An overwriting sampler reports how
long a chain it cleared. -/
theorem samplers_eq_chain (records : List Record) (sysid : UInt16) :
    let ledger := (empty.applyAll records).1
    (∀ entry, ledger.get? sysid = some entry → ∃ earlier exporter session,
      ofRecords records = earlier ++ .exporter exporter :: session ∧
      ((ofNotices earlier).learn (.exporter exporter)).2.any (·.opens sysid) = true ∧
      ((ofNotices (earlier ++ [.exporter exporter])).learnAll session).2.any
        (·.opens sysid) = false ∧
      let announced := samplersOf sysid session
      let kept := sinceOverwrite announced
      entry.samplers = lastOfEach kept ∧
      (entry.samplers.map (·.selector)).Nodup ∧
      (∀ sampler ∈ entry.samplers.tail, sampler.selector ≠ .overwrite) ∧
      (∀ sampler ∈ entry.samplers, sampler.exporterSysid = sysid) ∧
      ledger.sampler? sysid none = announced.getLast? ∧
      ∀ id, ledger.sampler? sysid (some id) =
        (kept.filter (·.selector = .explicit id)).getLast?) ∧
    ∀ sampler,
      let chain := ((ledger.get? sampler.exporterSysid).map (·.samplers)).getD []
      (ledger.apply (.sampler sampler)).2.filter Event.isClearing =
        if sampler.selector = .overwrite ∧ chain ≠ [] then
          [.samplersCleared sampler.exporterSysid chain.length]
        else [] := by
  intro ledger
  refine ⟨fun entry hentry => ?_, filter_isClearing_learn ledger⟩
  have hread := (reads_samplers sysid).get?_ofNotices (ofRecords records)
  rw [ofNotices, ← applyAll_eq_learnAll, hentry, Option.map_some] at hread
  obtain ⟨session, hsession, hsamplers⟩ := Option.map_eq_some_iff.mp hread.symm
  have hchain : entry.samplers = chain (samplersOf sysid session) := hsamplers.symm
  obtain ⟨earlier, exporter, hrecords, hopened, hquiet⟩ := exists_of_head?_sessions hsession
  refine ⟨earlier, exporter, session, hrecords, hopened, hquiet, hchain, ?_, ?_, ?_, ?_, ?_⟩
  · rw [hchain]
    exact nodup_lastOfEach _
  · intro sampler hmem
    rw [hchain] at hmem
    exact not_overwrite_of_mem_tail (mem_tail_of_mem_tail_lastOfEach hmem)
  · intro sampler hmem
    rw [hchain] at hmem
    exact exporterSysid_of_mem_samplersOf
      ((sinceOverwrite_sublist _).subset ((lastOfEach_sublist _).subset hmem))
  · rw [sampler?, hentry, Option.bind_some, Entry.sampler?, Entry.currentSampler?, hchain, chain,
      getLast?_lastOfEach, getLast?_sinceOverwrite]
  · intro id
    rw [sampler?, hentry, Option.bind_some]
    exact sampler?_some_of_samplers hchain id

/-- The chain after samplers that overwrite, come again, and come before and after a replacement. -/
theorem samplers_eq_chain_after_replacement :
    let device : Exporter := { version := 9, address := .v4 0x0a000005, sysid := 5, id := 1 }
    let sampler (selector : Sampler.Selector) (interval : UInt32) : Record :=
      .sampler ⟨5, 1, selector, interval, 0⟩
    let records := [.exporter device, sampler .generic 1, .exporter { device with id := 2 },
      sampler (.explicit 7) 2, sampler .overwrite 3, sampler (.explicit 7) 4, sampler .generic 5,
      sampler (.explicit 7) 6]
    ∃ entry, (empty.applyAll records).1.get? 5 = some entry ∧
      entry.samplers.map (·.packetInterval) = [3, 5, 6] ∧
      (entry.samplers.map (·.selector)).Nodup := by
  intro device sampler records
  obtain ⟨entry, hentry⟩ : ∃ entry, (empty.applyAll records).1.get? 5 = some entry := ⟨_, rfl⟩
  obtain ⟨_, _, _, -, -, -, -, hnodup, -⟩ := (samplers_eq_chain records 5).1 entry hentry
  refine ⟨entry, hentry, ?_, hnodup⟩
  cases hentry
  decide

end Ledgers

end ExporterRecords.Ledger
