import ExporterRecords.Proofs.Places

/-!
# Reading in place

In memory a body is not taken apart: a reader keeps the whole of it and a position. It adds lengths
in 64 bits and cuts bytes out by their indices, and either could leave the range. It never does,
since every request is held against the length of the body first. So a reader in place does what the
one that holds the bytes that are left does.
-/
namespace ExporterRecords

/-- A body that is read in place: how much of it was read, and for how many values room was set
aside, in order. -/
structure BodyCursor where
  recordType : UInt16
  order : ByteOrder
  body : Bytes
  position : Nat
  reserved : List Nat

namespace BodyCursor

def ofBody (recordType : UInt16) (order : ByteOrder) (body : Bytes) : BodyCursor :=
  ⟨recordType, order, body, 0, []⟩

/-- What is left of the body. -/
def input (cursor : BodyCursor) : BodyInput :=
  .behind cursor.recordType cursor.order cursor.body cursor.position

def advance (cursor : BodyCursor) (width : Nat) : BodyCursor :=
  { cursor with position := cursor.position + width }

def reserving (cursor : BodyCursor) (count : Nat) : BodyCursor :=
  { cursor with reserved := cursor.reserved ++ [count] }

/-- The position is one of the body, and the length of the body has 64 bits. -/
structure InRange (cursor : BodyCursor) : Prop where
  position_le : cursor.position ≤ cursor.body.length
  length_le : cursor.body.length ≤ BodyInput.largestLength

theorem inRange_ofBody {recordType : UInt16} {order : ByteOrder} {body : Bytes}
    (h : body.length ≤ BodyInput.largestLength) : (ofBody recordType order body).InRange :=
  ⟨Nat.zero_le _, h⟩

theorem InRange.advance {cursor : BodyCursor} {width : Nat} (h : cursor.InRange)
    (hroom : cursor.position + width ≤ cursor.body.length) : (cursor.advance width).InRange :=
  ⟨hroom, h.length_le⟩

theorem InRange.reserving {cursor : BodyCursor} (h : cursor.InRange) (count : Nat) :
    (cursor.reserving count).InRange :=
  ⟨h.position_le, h.length_le⟩

theorem shortage_input {cursor : BodyCursor} (h : cursor.position ≤ cursor.body.length)
    (width : Nat) :
    cursor.input.shortage width = .truncatedBody cursor.recordType
      (min (cursor.position + width) BodyInput.largestLength) cursor.body.length := by
  rw [input, BodyInput.shortage, BodyInput.behind, List.length_drop,
    Nat.add_sub_cancel' h]

/-- The body ends too early exactly if too few bytes of it are left. -/
theorem length_rest_lt_iff {cursor : BodyCursor} (h : cursor.position ≤ cursor.body.length)
    {width : Nat} : cursor.input.rest.length < width ↔
      cursor.body.length < cursor.position + width := by
  rw [input, BodyInput.behind, List.length_drop]
  omega

@[simp] theorem advance_advance (cursor : BodyCursor) (width more : Nat) :
    (cursor.advance width).advance more = cursor.advance (width + more) := by
  rw [advance, advance, advance, Nat.add_assoc]

@[simp] theorem advance_reserving (cursor : BodyCursor) (count width : Nat) :
    (cursor.reserving count).advance width = (cursor.advance width).reserving count := rfl

end BodyCursor

/-- A reader in place. It has no outcome if a sum or an index is out of range, and after a fault the
cursor is where the reader left it. -/
abbrev CursorReader (α : Type) := ExceptT Fault (StateT BodyCursor Option) α

namespace CursorReader

/-- The sum of two lengths, if it has 64 bits. -/
def sum? (a b : Nat) : Option Nat :=
  if a + b ≤ BodyInput.largestLength then some (a + b) else none

/-- The bytes from one index up to another, if both are in range. -/
def slice? (bytes : Bytes) (start stop : Nat) : Option Bytes :=
  if start ≤ stop ∧ stop ≤ bytes.length then some ((bytes.take stop).drop start) else none

/-- Checks that `width` bytes are left. A sum that is too large for 64 bits is reported as the
largest length. -/
def require (width : Nat) : CursorReader Unit := fun cursor =>
  let needed := sum? cursor.position width
  if needed.any (· ≤ cursor.body.length) then some (.ok (), cursor)
  else some (.error (.truncatedBody cursor.recordType (needed.getD BodyInput.largestLength)
    cursor.body.length), cursor)

/-- Sets room aside for `count` values. -/
def reserve (count : Nat) : CursorReader Unit :=
  modify (·.reserving count)

/-- Cuts out the next `width` bytes, which no one has checked to be there. -/
def cut (width : Nat) : CursorReader Bytes := fun cursor => do
  let stop ← sum? cursor.position width
  let bytes ← slice? cursor.body cursor.position stop
  if bytes.length = width then some (.ok bytes, { cursor with position := stop }) else none

def raw (width : Nat) : CursorReader Bytes := do
  require width
  cut width

def number (width : Nat) : CursorReader Nat := do
  let bytes ← raw width
  return (← get).order.decode bytes

def u16 : CursorReader UInt16 := UInt16.ofNat <$> number 2

def u32 : CursorReader UInt32 := UInt32.ofNat <$> number 4

def u64 : CursorReader UInt64 := UInt64.ofNat <$> number 8

def i64 : CursorReader Int64 := UInt64.toInt64 <$> u64

section Bind

variable {α β : Type} {reader : CursorReader α} {cursor stopped : BodyCursor}

theorem bind_of_ok {next : α → CursorReader β} {a : α}
    (h : reader cursor = some (.ok a, stopped)) : (reader >>= next) cursor = next a stopped := by
  change ((reader cursor).bind fun (outcome, stopped) => ExceptT.bindCont next outcome stopped) = _
  rw [h]
  rfl

theorem bind_of_error {next : α → CursorReader β} {fault : Fault}
    (h : reader cursor = some (.error fault, stopped)) :
    (reader >>= next) cursor = some (.error fault, stopped) := by
  change ((reader cursor).bind fun (outcome, stopped) => ExceptT.bindCont next outcome stopped) = _
  rw [h]
  rfl

theorem map_of_ok {f : α → β} {a : α} (h : reader cursor = some (.ok a, stopped)) :
    (f <$> reader) cursor = some (.ok (f a), stopped) := by
  rw [map_eq_pure_bind, bind_of_ok h]
  rfl

theorem map_of_error {f : α → β} {fault : Fault}
    (h : reader cursor = some (.error fault, stopped)) :
    (f <$> reader) cursor = some (.error fault, stopped) := by
  rw [map_eq_pure_bind, bind_of_error h]

end Bind

section Primitives

variable {cursor : BodyCursor} {width : Nat}

theorem sum?_of_le {a b : Nat} (h : a + b ≤ BodyInput.largestLength) : sum? a b = some (a + b) :=
  if_pos h

theorem require_of_room (h : cursor.InRange)
    (hroom : cursor.position + width ≤ cursor.body.length) :
    require width cursor = some (.ok (), cursor) := by
  simp [require, sum?_of_le (Nat.le_trans hroom h.length_le), hroom]

theorem require_of_shortage (h : cursor.InRange)
    (hshort : cursor.body.length < cursor.position + width) :
    require width cursor = some (.error (cursor.input.shortage width), cursor) := by
  rw [BodyCursor.shortage_input h.position_le, require, sum?]
  -- Either the sum has 64 bits and the body is shorter, or the largest length stands for it.
  split
  · next hsum => simp [Nat.not_le.mpr hshort, Nat.min_eq_left hsum]
  · next hsum => simp [Nat.min_eq_right (Nat.le_of_not_le hsum)]

theorem raw_of_room (h : cursor.InRange)
    (hroom : cursor.position + width ≤ cursor.body.length) :
    raw width cursor =
      some (.ok ((cursor.body.drop cursor.position).take width), cursor.advance width) := by
  have hslice : slice? cursor.body cursor.position (cursor.position + width) =
      some ((cursor.body.drop cursor.position).take width) := by
    rw [slice?, if_pos ⟨Nat.le_add_right .., hroom⟩, List.drop_take, Nat.add_sub_cancel_left]
  -- The check has passed, so the sum and both indices are in range.
  rw [raw, bind_of_ok (require_of_room h hroom), cut, sum?_of_le (Nat.le_trans hroom h.length_le)]
  simp only [Option.bind_eq_bind, Option.bind_some, hslice]
  exact if_pos (BodyInput.length_block hroom)

theorem raw_of_shortage (h : cursor.InRange)
    (hshort : cursor.body.length < cursor.position + width) :
    raw width cursor = some (.error (cursor.input.shortage width), cursor) :=
  bind_of_error (require_of_shortage h hshort)

theorem number_of_room (h : cursor.InRange)
    (hroom : cursor.position + width ≤ cursor.body.length) :
    number width cursor = some (.ok (cursor.order.numberAt width cursor.body cursor.position),
      cursor.advance width) := by
  rw [number, bind_of_ok (raw_of_room h hroom)]
  rfl

theorem number_of_shortage (h : cursor.InRange)
    (hshort : cursor.body.length < cursor.position + width) :
    number width cursor = some (.error (cursor.input.shortage width), cursor) :=
  bind_of_error (raw_of_shortage h hshort)

end Primitives

end CursorReader

/-- The reader in place and the one that takes its input apart ask for `width` bytes alike. Where
they are there, both find the same value and take `taken` of the bytes; elsewhere both report the
bytes that are missing and take nothing. -/
structure Asks {α : Type} (inPlace : CursorReader α) (reader : BodyReader α) (width taken : Nat)
    (found : BodyCursor → α) : Prop where
  inPlace_of_room : ∀ cursor : BodyCursor, cursor.InRange →
    cursor.position + width ≤ cursor.body.length →
      inPlace cursor = some (.ok (found cursor), cursor.advance taken)
  reader_of_room : ∀ cursor : BodyCursor, cursor.position + width ≤ cursor.body.length →
    reader cursor.input = .ok (found cursor, (cursor.advance taken).input)
  inPlace_of_shortage : ∀ cursor : BodyCursor, cursor.InRange →
    cursor.body.length < cursor.position + width →
      inPlace cursor = some (.error (cursor.input.shortage width), cursor)
  reader_of_shortage : ∀ cursor : BodyCursor, cursor.position ≤ cursor.body.length →
    cursor.body.length < cursor.position + width →
      reader cursor.input = .error (cursor.input.shortage width)

namespace Asks

variable {α β : Type} {inPlace : CursorReader α} {reader : BodyReader α} {width taken : Nat}
  {found : BodyCursor → α}

theorem map (h : Asks inPlace reader width taken found) (f : α → β) :
    Asks (f <$> inPlace) (f <$> reader) width taken fun cursor => f (found cursor) where
  inPlace_of_room cursor hrange hroom :=
    CursorReader.map_of_ok (h.inPlace_of_room cursor hrange hroom)
  reader_of_room cursor hroom :=
    BodyReader.map_eq_ok_iff.mpr ⟨_, h.reader_of_room cursor hroom, rfl⟩
  inPlace_of_shortage cursor hrange hshort :=
    CursorReader.map_of_error (h.inPlace_of_shortage cursor hrange hshort)
  reader_of_shortage cursor hposition hshort :=
    BodyReader.map_eq_error_iff.mpr (h.reader_of_shortage cursor hposition hshort)

theorem require (width : Nat) :
    Asks (CursorReader.require width) (BodyReader.require width) width 0 fun _ => () where
  inPlace_of_room _ := CursorReader.require_of_room
  reader_of_room cursor hroom := by
    have hposition := Nat.le_of_add_right_le hroom
    have hleft := mt (BodyCursor.length_rest_lt_iff hposition).mp (Nat.not_lt.mpr hroom)
    exact BodyReader.require_eq_ok_iff.mpr ⟨Nat.le_of_not_lt hleft, rfl⟩
  inPlace_of_shortage _ := CursorReader.require_of_shortage
  reader_of_shortage _ hposition hshort := BodyReader.require_eq_error_iff.mpr
    ⟨(BodyCursor.length_rest_lt_iff hposition).mpr hshort, rfl⟩

theorem raw (width : Nat) :
    Asks (CursorReader.raw width) ((·.1) <$> BodyReader.raw width) width width
      fun cursor => (cursor.body.drop cursor.position).take width where
  inPlace_of_room _ := CursorReader.raw_of_room
  reader_of_room _ hroom := BodyReader.map_eq_ok_iff.mpr
    ⟨⟨_, BodyInput.length_block hroom⟩,
      BodyReader.raw_eq_ok_iff.mpr (BodyInput.takes_block hroom), rfl⟩
  inPlace_of_shortage _ := CursorReader.raw_of_shortage
  reader_of_shortage _ hposition hshort := BodyReader.map_eq_error_iff.mpr
    (BodyReader.raw_eq_error_iff.mpr
      ⟨(BodyCursor.length_rest_lt_iff hposition).mpr hshort, rfl⟩)

theorem number (width : Nat) :
    Asks (CursorReader.number width) (BodyReader.number width) width width
      fun cursor => cursor.order.numberAt width cursor.body cursor.position where
  inPlace_of_room _ := CursorReader.number_of_room
  reader_of_room _ := BodyReader.number_behind
  inPlace_of_shortage _ := CursorReader.number_of_shortage
  reader_of_shortage _ hposition hshort := BodyReader.number_eq_error_iff.mpr
    ⟨(BodyCursor.length_rest_lt_iff hposition).mpr hshort, rfl⟩

theorem u16 : Asks CursorReader.u16 BodyReader.u16 2 2
    fun cursor => cursor.order.u16At cursor.body cursor.position :=
  (number 2).map UInt16.ofNat

theorem u32 : Asks CursorReader.u32 BodyReader.u32 4 4
    fun cursor => cursor.order.u32At cursor.body cursor.position :=
  (number 4).map UInt32.ofNat

theorem u64 : Asks CursorReader.u64 BodyReader.u64 8 8
    fun cursor => cursor.order.u64At cursor.body cursor.position :=
  (number 8).map UInt64.ofNat

theorem i64 : Asks CursorReader.i64 BodyReader.i64 8 8
    fun cursor => cursor.order.i64At cursor.body cursor.position :=
  u64.map UInt64.toInt64

/-- What is found in place further on, where everything up to there is in the body. -/
theorem inPlace_ahead (h : Asks inPlace reader width taken found) {cursor : BodyCursor}
    (hrange : cursor.InRange) {ahead : Nat}
    (hroom : cursor.position + ahead + width ≤ cursor.body.length) :
    inPlace (cursor.advance ahead) =
      some (.ok (found (cursor.advance ahead)), cursor.advance (ahead + taken)) := by
  rw [← BodyCursor.advance_advance]
  exact h.inPlace_of_room _ (hrange.advance (Nat.le_of_add_right_le hroom)) hroom

end Asks

end ExporterRecords
