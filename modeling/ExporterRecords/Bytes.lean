/-!
# Byte strings

Records travel as lists of bytes. A number is written in a fixed number of bytes, lowest byte
first; the other order is its reversal. A buffer is cut only where it is long enough.
-/
namespace ExporterRecords

abbrev Bytes := List UInt8

namespace Bytes

/-- The lowest `width` bytes of a number, lowest first. -/
def littleEndian : Nat → Nat → Bytes
  | 0, _ => []
  | width + 1, n => UInt8.ofNat n :: littleEndian width (n / 256)

/-- The number whose bytes, lowest first, are given. -/
def ofLittleEndian : Bytes → Nat
  | [] => 0
  | b :: bs => b.toNat + 256 * ofLittleEndian bs

@[simp] theorem length_littleEndian (width n : Nat) : (littleEndian width n).length = width := by
  induction width generalizing n <;> simp [littleEndian, *]

/-- How many numbers can be told apart in `width` bytes. -/
def range : Nat → Nat
  | 0 => 1
  | width + 1 => 256 * range width

/-- Bytes beyond the width are lost, nothing else. -/
theorem ofLittleEndian_littleEndian (width n : Nat) :
    ofLittleEndian (littleEndian width n) = n % range width := by
  induction width generalizing n with
  | zero => simp [littleEndian, ofLittleEndian, range, Nat.mod_one]
  | succ width ih =>
    rw [littleEndian, ofLittleEndian, ih, range, Nat.mod_mul, UInt8.toNat_ofNat']

theorem ofLittleEndian_lt (bs : Bytes) : ofLittleEndian bs < range bs.length := by
  induction bs with
  | nil => simp [ofLittleEndian, range]
  | cons b bs ih =>
    have hb := b.toNat_lt
    simp only [ofLittleEndian, List.length_cons, range]
    omega

/-- Every byte string is the written form of its number. -/
theorem littleEndian_ofLittleEndian (bs : Bytes) :
    littleEndian bs.length (ofLittleEndian bs) = bs := by
  induction bs with
  | nil => rfl
  | cons b bs ih =>
    have hb := b.toNat_lt
    have hlow : UInt8.ofNat (b.toNat + 256 * ofLittleEndian bs) = b := by
      apply UInt8.toNat_inj.mp
      rw [UInt8.toNat_ofNat']
      omega
    have hrest : (b.toNat + 256 * ofLittleEndian bs) / 256 = ofLittleEndian bs := by omega
    simp only [List.length_cons, ofLittleEndian, littleEndian, hlow, hrest, ih]

/-- The first `n` bytes and the bytes after them, where there are that many. -/
def split? (n : Nat) (bs : Bytes) : Option ({ front : Bytes // front.length = n } × Bytes) :=
  if h : (bs.take n).length = n then some (⟨bs.take n, h⟩, bs.drop n) else none

theorem split?_eq_some_iff {n : Nat} {bs rest : Bytes}
    {front : { front : Bytes // front.length = n }} :
    split? n bs = some (front, rest) ↔ bs = front.1 ++ rest := by
  unfold split?
  obtain ⟨front, hfront⟩ := front
  constructor
  · intro h
    split at h
    · simp only [Option.some.injEq, Prod.mk.injEq, Subtype.mk.injEq] at h
      show bs = front ++ rest
      rw [← h.1, ← h.2, List.take_append_drop]
    · simp at h
  · rintro rfl
    simp [List.take_left' hfront, List.drop_left' hfront, hfront]

theorem split?_eq_none_iff {n : Nat} {bs : Bytes} : split? n bs = none ↔ bs.length < n := by
  unfold split?
  constructor
  · intro h
    split at h
    · simp at h
    · rename_i hn
      rw [List.length_take] at hn
      omega
  · intro h
    rw [dif_neg]
    rw [List.length_take]
    omega

end Bytes

end ExporterRecords
