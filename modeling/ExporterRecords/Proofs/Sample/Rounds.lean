import ExporterRecords.Proofs.Ledger.Lifecycle
import ExporterRecords.Sample

/-!
# Sample counters from round to round

The counters of a sample exporter grow with its rounds, as long as the largest of them has 64 bits.
The number of sequence failures has only 32. It is made of the lowest bits of the round, so it falls
wherever these do, and a ledger reports it then.
-/
namespace ExporterRecords.Sample

open Ledger

variable {sysid : UInt16} {round earlier later : UInt64}

theorem toNat_packets (h : 1000 * round.toNat + sysid.toNat < UInt64.size) :
    (snapshot sysid round).packets.toNat = 1000 * round.toNat + sysid.toNat := by
  have hproduct : 1000 * round.toNat < UInt64.size := Nat.lt_of_le_of_lt (Nat.le_add_right ..) h
  have hvalue : (1000 * round).toNat = 1000 * round.toNat := by
    rw [UInt64.toNat_mul]
    exact Nat.mod_eq_of_lt hproduct
  rw [snapshot, UInt64.toNat_add, hvalue, UInt16.toNat_toUInt64, Nat.mod_eq_of_lt h]

theorem toNat_flows (h : 10 * round.toNat < UInt64.size) :
    (snapshot sysid round).flows.toNat = 10 * round.toNat := by
  rw [snapshot, UInt64.toNat_mul]
  exact Nat.mod_eq_of_lt h

/-- Only the narrow counter can be smaller in a later round. -/
theorem value_lt_iff (hle : earlier ≤ later)
    (hfits : 1000 * later.toNat + sysid.toNat < UInt64.size) (counter : Counter) :
    counter.value (snapshot sysid later) < counter.value (snapshot sysid earlier) ↔
      counter = .sequenceFailures ∧ later.toUInt32 < earlier.toUInt32 := by
  rw [UInt64.le_iff_toNat_le] at hle
  cases counter with
  | sequenceFailures =>
    change later.toUInt32.toUInt64 < earlier.toUInt32.toUInt64 ↔ _
    rw [UInt64.lt_iff_toNat_lt, UInt32.toNat_toUInt64, UInt32.toNat_toUInt64,
      ← UInt32.lt_iff_toNat_lt]
    simp
  | packets =>
    have hnever : ¬ (snapshot sysid later).packets < (snapshot sysid earlier).packets := by
      rw [UInt64.lt_iff_toNat_lt, toNat_packets hfits, toNat_packets (by omega)]
      omega
    refine iff_of_false hnever ?_
    rintro ⟨hcounter, -⟩
    cases hcounter
  | flows =>
    have hnever : ¬ (snapshot sysid later).flows < (snapshot sysid earlier).flows := by
      rw [UInt64.lt_iff_toNat_lt, toNat_flows (by omega), toNat_flows (by omega)]
      omega
    refine iff_of_false hnever ?_
    rintro ⟨hcounter, -⟩
    cases hcounter

theorem setbacks_snapshot (number : UInt16) (hle : earlier ≤ later)
    (hfits : 1000 * later.toNat + sysid.toNat < UInt64.size) :
    setbacks number (snapshot sysid earlier) (snapshot sysid later) =
      if later.toUInt32 < earlier.toUInt32 then
        [.counterRegression number .sequenceFailures earlier.toUInt32.toUInt64
          later.toUInt32.toUInt64]
      else [] := by
  simp only [setbacks, value_lt_iff hle hfits, Counter.all]
  by_cases hless : later.toUInt32 < earlier.toUInt32
  · simp [hless]
    exact ⟨rfl, rfl⟩
  · simp [hless]

/-- A known exporter whose snapshots of two rounds come one after the other is compared by them. -/
theorem events_of_rounds {ledger : Ledger} {entry : Entry}
    (h : ledger.get? sysid = some entry) :
    ((ledger.learn (.counters (snapshot sysid earlier))).1.learn
      (.counters (snapshot sysid later))).2 =
        setbacks entry.exporter.sysid (snapshot sysid earlier) (snapshot sysid later) := by
  have hnumber (round : UInt64) :
      (Notice.counters (snapshot sysid round)).number = sysid.toUInt32 := rfl
  rw [events_learn (hnumber later), get?_learn (hnumber earlier), h]
  exact regressions_eq_setbacks ..

/-- From one round to a later one, the numbers of packets and flows never fall, and the number of
sequence failures falls exactly if the lowest 32 bits of the round do. That is what a ledger reports
of an exporter that it knows, and nothing else. No counter falls up to the largest round that has no
more than these bits. -/
theorem falls_with_low_bits (sysid : UInt16) (earlier later : UInt64) (hle : earlier ≤ later)
    (hfits : 1000 * later.toNat + sysid.toNat < UInt64.size) :
    (∀ counter : Counter,
      counter.value (snapshot sysid later) < counter.value (snapshot sysid earlier) ↔
        counter = .sequenceFailures ∧ later.toUInt32 < earlier.toUInt32) ∧
    (later.toNat < UInt32.size → snapshot sysid earlier ≤ snapshot sysid later) ∧
    ∀ (ledger : Ledger) (entry : Entry), ledger.get? sysid = some entry →
      ((ledger.apply (.counters ⟨[snapshot sysid earlier]⟩)).1.apply
        (.counters ⟨[snapshot sysid later]⟩)).2 =
          if later.toUInt32 < earlier.toUInt32 then
            [.counterRegression entry.exporter.sysid .sequenceFailures
              earlier.toUInt32.toUInt64 later.toUInt32.toUInt64]
          else [] := by
  refine ⟨value_lt_iff hle hfits, ?_, ?_⟩
  · intro hsmall counter
    have hbits : later.toNat < 4294967296 := hsmall
    apply UInt64.not_lt.mp
    intro hless
    have hfalls := ((value_lt_iff hle hfits counter).mp hless).2
    rw [UInt64.le_iff_toNat_le] at hle
    rw [UInt32.lt_iff_toNat_lt, UInt64.toNat_toUInt32, UInt64.toNat_toUInt32] at hfalls
    omega
  · intro ledger entry hknown
    rw [apply_counters_singleton, apply_counters_singleton, events_of_rounds hknown,
      setbacks_snapshot _ hle hfits]

/-- Small rounds, and the last round that has 32 bits before the first that has more. -/
theorem falls_with_low_bits_of_rounds :
    snapshot 0 1 ≤ snapshot 0 2 ∧
    let known := (empty.apply (.exporter (exporter 0))).1
    ((known.apply (.counters ⟨[snapshot 0 4294967295]⟩)).1.apply
      (.counters ⟨[snapshot 0 4294967296]⟩)).2 =
        [.counterRegression 0 .sequenceFailures 4294967295 0] :=
  ⟨(falls_with_low_bits 0 1 2 (by decide) (by decide)).2.1 (by decide),
    (falls_with_low_bits 0 4294967295 4294967296 (by decide) (by decide)).2.2 _
      (.ofExporter (exporter 0)) rfl⟩

/-- A later round does not always count at least as much as an earlier one. -/
theorem later_round_counts_less :
    let known := (empty.apply (.exporter (exporter 0))).1
    (4294967295 : UInt64) ≤ 4294967296 ∧
    1000 * (4294967296 : UInt64).toNat + (0 : UInt16).toNat < UInt64.size ∧
    ¬ snapshot 0 4294967295 ≤ snapshot 0 4294967296 ∧
    known.get? 0 = some ⟨exporter 0, none, []⟩ ∧
    ((known.apply (.counters ⟨[snapshot 0 4294967295]⟩)).1.apply
      (.counters ⟨[snapshot 0 4294967296]⟩)).2 ≠ [] := by
  refine ⟨by decide, by decide, fun hle => ?_, rfl, by decide⟩
  have hfailures : ¬ Counter.sequenceFailures.value (snapshot 0 4294967295) ≤
      Counter.sequenceFailures.value (snapshot 0 4294967296) := by decide
  exact hfailures (hle .sequenceFailures)

end ExporterRecords.Sample
