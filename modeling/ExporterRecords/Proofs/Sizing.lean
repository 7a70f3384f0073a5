import ExporterRecords.Proofs.Faults
import ExporterRecords.Proofs.InPlace

/-!
# Sizing a batch

The count in front of a batch is chosen by its sender, and it is what a reader in place reserves
room by and how often it reads a snapshot. Before either, the whole batch is held against the length
of the body. The product is computed so that it cannot leave 64 bits, and with a count of 32 bits it
is the exact one. So no room is reserved for snapshots that are not there, and no snapshot that is
counted is missing.
-/
namespace ExporterRecords

namespace CounterSnapshot

def readInPlace : CursorReader CounterSnapshot := do
  let sysid ← CursorReader.u32
  let sequenceFailures ← CursorReader.u32
  let packets ← CursorReader.u64
  let flows ← CursorReader.u64
  return { sysid, sequenceFailures, packets, flows }

def readManyInPlace : Nat → CursorReader (List CounterSnapshot)
  | 0 => return []
  | count + 1 => do
    let snapshot ← readInPlace
    return snapshot :: (← readManyInPlace count)

variable {cursor : BodyCursor}

theorem readInPlace_of_room (h : cursor.InRange)
    (hroom : cursor.position + length ≤ cursor.body.length) :
    readInPlace cursor =
      some (.ok (found cursor.order cursor.body cursor.position), cursor.advance length) := by
  rw [length] at hroom
  rw [readInPlace, CursorReader.bind_of_ok (Asks.u32.inPlace_of_room cursor h (by omega)),
    CursorReader.bind_of_ok (Asks.u32.inPlace_ahead h (by omega)),
    CursorReader.bind_of_ok (Asks.u64.inPlace_ahead h (by omega)),
    CursorReader.bind_of_ok (Asks.u64.inPlace_ahead h (by omega))]
  rfl

/-- Where there is room for them, snapshots are always read in place. -/
theorem readManyInPlace_of_room {count : Nat} (h : cursor.InRange)
    (hroom : cursor.position + count * length ≤ cursor.body.length) :
    readManyInPlace count cursor =
      some (.ok ((List.range count).map fun i =>
        found cursor.order cursor.body (cursor.position + length * i)),
        cursor.advance (count * length)) := by
  induction count generalizing cursor with
  | zero =>
    rw [Nat.zero_mul]
    rfl
  | succ count ih =>
    have hnext : length + count * length = (count + 1) * length := by
      rw [Nat.succ_mul, Nat.add_comm]
    rw [← hnext, ← Nat.add_assoc] at hroom
    have hfirst : cursor.position + length ≤ cursor.body.length := Nat.le_of_add_right_le hroom
    have hothers := ih (h.advance hfirst) hroom
    rw [readManyInPlace, CursorReader.bind_of_ok (readInPlace_of_room h hfirst),
      CursorReader.bind_of_ok hothers, BodyCursor.advance_advance, hnext, map_found_succ]
    rfl

end CounterSnapshot

namespace CounterBatch

/-- The product of two lengths; one beyond 64 bits as the largest. -/
def saturatedProduct (a b : Nat) : Nat := min (a * b) BodyInput.largestLength

def readInPlace : CursorReader CounterBatch := do
  let count ← CursorReader.u32
  CursorReader.require (saturatedProduct count.toNat CounterSnapshot.length)
  CursorReader.reserve count.toNat
  return ⟨← CounterSnapshot.readManyInPlace count.toNat⟩

/-- The snapshots of any count have together a length that is told exactly. -/
theorem saturatedProduct_count (count : UInt32) :
    saturatedProduct count.toNat CounterSnapshot.length = count.toNat * CounterSnapshot.length := by
  have hcount : count.toNat < 4294967296 := count.toNat_lt
  have hvalue : BodyInput.largestLength = 18446744073709551615 := rfl
  apply Nat.min_eq_left
  rw [CounterSnapshot.length, hvalue]
  omega

/-- As many snapshots as the number in front of a body says, one behind the other. -/
def inBody (order : ByteOrder) (body : Bytes) : CounterBatch where
  entries := (List.range (order.u32At body 0).toNat).map fun i =>
    .found order body (4 + CounterSnapshot.length * i)

theorem length_entries_inBody (order : ByteOrder) (body : Bytes) :
    (inBody order body).entries.length = (order.u32At body 0).toNat := by
  rw [inBody, List.length_map, List.length_range]

section Read

variable {order : ByteOrder} {body : Bytes}

theorem read_of_short (h : body.length < 4) (recordType : UInt16) (order : ByteOrder) :
    read (.ofBody recordType order body) = .error (.truncatedBody recordType 4 body.length) := by
  have hcount := Asks.u32.reader_of_shortage (.ofBody recordType order body) (Nat.zero_le _)
    (Nat.lt_of_lt_of_eq h (Nat.zero_add 4).symm)
  rw [BodyCursor.shortage_input (Nat.zero_le _)] at hcount
  exact BodyReader.bind_eq_error_iff.mpr (.inl hcount)

theorem read_of_room
    (h : 4 + (order.u32At body 0).toNat * CounterSnapshot.length ≤ body.length)
    (recordType : UInt16) :
    read (.ofBody recordType order body) = .ok (inBody order body, .behind recordType order body
      (4 + (order.u32At body 0).toNat * CounterSnapshot.length)) := by
  have hleft : (order.u32At body 0).toNat * CounterSnapshot.length ≤
      (BodyInput.behind recordType order body 4).rest.length := by
    rw [BodyInput.behind, List.length_drop]
    exact Nat.le_sub_of_add_le' h
  rw [read, ← BodyInput.behind_zero,
    BodyReader.bind_of_ok (BodyReader.u32_behind (Nat.le_of_add_right_le h)),
    BodyReader.bind_of_ok ((@BodyReader.require_eq_ok_iff _ _ _ ()).mpr ⟨hleft, rfl⟩),
    BodyReader.bind_of_ok (CounterSnapshot.readMany_behind h)]
  rfl

end Read

section InPlace

variable {cursor : BodyCursor}

theorem readInPlace_of_short (h : cursor.InRange)
    (hshort : cursor.body.length < cursor.position + 4) :
    readInPlace cursor = some (.error (cursor.input.shortage 4), cursor) :=
  CursorReader.bind_of_error (Asks.u32.inPlace_of_shortage cursor h hshort)

/-- Too few bytes behind the count leave the reader there, and no room is reserved. -/
theorem readInPlace_of_missing {count : UInt32} (h : cursor.InRange)
    (hcount : cursor.order.u32At cursor.body cursor.position = count)
    (hfour : cursor.position + 4 ≤ cursor.body.length)
    (hshort : cursor.body.length < cursor.position + 4 + count.toNat * CounterSnapshot.length) :
    readInPlace cursor = some (.error ((cursor.advance 4).input.shortage
      (count.toNat * CounterSnapshot.length)), cursor.advance 4) := by
  subst hcount
  rw [readInPlace, CursorReader.bind_of_ok (Asks.u32.inPlace_of_room cursor h hfour),
    saturatedProduct_count]
  exact CursorReader.bind_of_error (CursorReader.require_of_shortage (h.advance hfour) hshort)

/-- Where all snapshots are there, room is reserved for them before the first is read. -/
theorem readInPlace_of_room {count : UInt32} (h : cursor.InRange)
    (hcount : cursor.order.u32At cursor.body cursor.position = count)
    (hroom : cursor.position + 4 + count.toNat * CounterSnapshot.length ≤ cursor.body.length) :
    readInPlace cursor =
      some (.ok ⟨(List.range count.toNat).map fun i => .found cursor.order cursor.body
          (cursor.position + 4 + CounterSnapshot.length * i)⟩,
        (cursor.advance (4 + count.toNat * CounterSnapshot.length)).reserving count.toNat) := by
  have hfour := Nat.le_of_add_right_le hroom
  have hmany := CounterSnapshot.readManyInPlace_of_room
    ((h.advance hfour).reserving count.toNat) hroom
  have hreserve : CursorReader.reserve count.toNat (cursor.advance 4) =
      some (.ok (), (cursor.advance 4).reserving count.toNat) := rfl
  subst hcount
  rw [readInPlace, CursorReader.bind_of_ok (Asks.u32.inPlace_of_room cursor h hfour),
    saturatedProduct_count,
    CursorReader.bind_of_ok (CursorReader.require_of_room (h.advance hfour) hroom),
    CursorReader.bind_of_ok hreserve, CursorReader.bind_of_ok hmany,
    BodyCursor.advance_reserving, BodyCursor.advance_advance]
  rfl

end InPlace

/-- A body that is shorter than its count demands is refused for exactly the bytes that are missing,
before a snapshot is read or room is reserved. Otherwise room is reserved for as many snapshots as
are there, none of the reads fails, and the batch takes what its count demands. -/
theorem sized_before_read (format : WireFormat) (body : Bytes) :
    let count := (format.order.u32At body 0).toNat
    let needed := 4 + 24 * count
    let batch := inBody format.order body
    let decoded : Except Fault (CounterBatch × Nat) := Layout.decodeBody format body
    let cursor := BodyCursor.mk 8 format.order body
    (body.length < 4 → decoded = .error (.truncatedBody 8 4 body.length)) ∧
    (4 ≤ body.length → body.length < needed →
      decoded = .error (.truncatedBody 8 needed body.length)) ∧
    (needed ≤ body.length →
      decoded = .ok (batch, needed) ∧ batch.entries.length = count ∧ count ≤ body.length / 24 ∧
      ∀ i < count, CounterSnapshot.read (.behind 8 format.order body (4 + 24 * i)) =
        .ok (.found format.order body (4 + 24 * i),
          .behind 8 format.order body (4 + 24 * (i + 1)))) ∧
    (body.length ≤ BodyInput.largestLength →
      (body.length < 4 → readInPlace (cursor 0 []) =
        some (.error (.truncatedBody 8 4 body.length), cursor 0 [])) ∧
      (4 ≤ body.length → body.length < needed → readInPlace (cursor 0 []) =
        some (.error (.truncatedBody 8 needed body.length), cursor 4 [])) ∧
      (needed ≤ body.length →
        readInPlace (cursor 0 []) = some (.ok batch, cursor needed [count]) ∧
        ∀ i < count, CounterSnapshot.readInPlace (cursor (4 + 24 * i) [count]) =
          some (.ok (.found format.order body (4 + 24 * i)),
            cursor (4 + 24 * (i + 1)) [count]))) := by
  intro count needed batch decoded cursor
  have hneeded : 4 + count * CounterSnapshot.length = needed :=
    congrArg (4 + ·) (Nat.mul_comm ..)
  have hwithin {i : Nat} (hi : i < count) (hroom : needed ≤ body.length) :
      4 + 24 * i + CounterSnapshot.length ≤ body.length := by
    rw [CounterSnapshot.length]
    omega
  refine ⟨?_, ?_, ?_, ?_⟩
  · intro hshort
    exact Layout.decodeBody_eq_error_iff.mpr (read_of_short hshort 8 format.order)
  · intro hfour hshort
    rw [← hneeded] at hshort ⊢
    exact Layout.decodeBody_eq_error_iff.mpr ((read_eq_error_iff hfour).mpr (.room hshort))
  · intro hroom
    refine ⟨?_, length_entries_inBody .., by omega, fun i hi => ?_⟩
    · have hread := @read_of_room format.order body (hneeded ▸ hroom) 8
      rw [hneeded] at hread
      exact Layout.decodeBody_eq_ok_iff.mpr ⟨_, hread, rfl⟩
    · exact CounterSnapshot.read_behind (hwithin hi hroom)
  · intro hlength
    have hrange : (cursor 0 []).InRange := ⟨Nat.zero_le _, hlength⟩
    refine ⟨?_, ?_, ?_⟩
    · intro hshort
      have hread := readInPlace_of_short hrange hshort
      rwa [BodyCursor.shortage_input (Nat.zero_le _)] at hread
    · intro hfour hshort
      rw [← hneeded] at hshort ⊢
      have hfault : (cursor 4 []).input.shortage (count * CounterSnapshot.length) =
          .truncatedBody 8 (4 + count * CounterSnapshot.length) body.length :=
        shortage_behind_count hfour format.order _
      rw [readInPlace_of_missing hrange rfl hfour hshort, ← hfault]
      rfl
    · intro hroom
      constructor
      · rw [← hneeded] at hroom ⊢
        have hend : ((cursor 0 []).advance (4 + count * CounterSnapshot.length)).reserving count =
            cursor (4 + count * CounterSnapshot.length) [count] :=
          congrArg (cursor · [count]) (Nat.zero_add _)
        rw [← hend]
        exact readInPlace_of_room hrange rfl hroom
      · intro i hi
        have hstart : (cursor (4 + 24 * i) [count]).InRange :=
          ⟨Nat.le_of_add_right_le (hwithin hi hroom), hlength⟩
        exact CounterSnapshot.readInPlace_of_room hstart (hwithin hi hroom)

/-- A body without a count, the largest count without snapshots, and a count of one with its
snapshot. -/
theorem sized_before_read_of_bodies :
    let decode (body : Bytes) : Except Fault (CounterBatch × Nat) := Layout.decodeBody {} body
    let one : Bytes := [1, 0, 0, 0] ++ List.replicate 24 0
    decode [0] = .error (.truncatedBody 8 4 1) ∧
    readInPlace ⟨8, .little, [0], 0, []⟩ =
      some (.error (.truncatedBody 8 4 1), ⟨8, .little, [0], 0, []⟩) ∧
    decode [255, 255, 255, 255] = .error (.truncatedBody 8 103079215084 4) ∧
    readInPlace ⟨8, .little, [255, 255, 255, 255], 0, []⟩ =
      some (.error (.truncatedBody 8 103079215084 4),
        ⟨8, .little, [255, 255, 255, 255], 4, []⟩) ∧
    decode one = .ok (⟨[⟨0, 0, 0, 0⟩]⟩, 28) ∧
    readInPlace ⟨8, .little, one, 0, []⟩ =
      some (.ok ⟨[⟨0, 0, 0, 0⟩]⟩, ⟨8, .little, one, 28, [1]⟩) ∧
    CounterSnapshot.readInPlace ⟨8, .little, one, 4, [1]⟩ =
      some (.ok ⟨0, 0, 0, 0⟩, ⟨8, .little, one, 28, [1]⟩) := by
  obtain ⟨hshort, -, -, hshortInPlace⟩ := sized_before_read {} [0]
  obtain ⟨-, hlarge, -, hlargeInPlace⟩ := sized_before_read {} [255, 255, 255, 255]
  obtain ⟨-, -, hone, honeInPlace⟩ := sized_before_read {} ([1, 0, 0, 0] ++ List.replicate 24 0)
  obtain ⟨hread, hsnapshot⟩ := (honeInPlace (by decide)).2.2 (by decide)
  exact ⟨hshort (by decide), (hshortInPlace (by decide)).1 (by decide),
    hlarge (by decide) (by decide), (hlargeInPlace (by decide)).2.1 (by decide) (by decide),
    (hone (by decide)).1, hread, hsnapshot 0 (by decide)⟩

end CounterBatch

end ExporterRecords
