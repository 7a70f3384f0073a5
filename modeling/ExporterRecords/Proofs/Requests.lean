import ExporterRecords.Proofs.InPlace

/-!
# Sequences of requests

A body can be read in any way: fields of any types in any order, checks between them, and further
requests after one that failed. Each request is answered from how much of the body was read before.
-/
namespace ExporterRecords

/-- The type of a field, with the width of a block. -/
inductive Field.Shape where
  | u16
  | u32
  | u64
  | i64
  | raw (width : Nat)

namespace Field

def shape : Field → Shape
  | u16 _ => .u16
  | u32 _ => .u32
  | u64 _ => .u64
  | i64 _ => .i64
  | raw bytes => .raw bytes.length

namespace Shape

def width : Shape → Nat
  | u16 => 2
  | u32 => 4
  | u64 => 8
  | i64 => 8
  | raw width => width

/-- The field of this shape that stands at an offset. -/
def found (order : ByteOrder) (body : Bytes) (offset : Nat) : Shape → Field
  | u16 => .u16 (order.u16At body offset)
  | u32 => .u32 (order.u32At body offset)
  | u64 => .u64 (order.u64At body offset)
  | i64 => .i64 (order.i64At body offset)
  | raw width => .raw ((body.drop offset).take width)

def read : Shape → BodyReader Field
  | u16 => .u16 <$> BodyReader.u16
  | u32 => .u32 <$> BodyReader.u32
  | u64 => .u64 <$> BodyReader.u64
  | i64 => .i64 <$> BodyReader.i64
  | raw width => .raw <$> (·.1) <$> BodyReader.raw width

def readInPlace : Shape → CursorReader Field
  | u16 => .u16 <$> CursorReader.u16
  | u32 => .u32 <$> CursorReader.u32
  | u64 => .u64 <$> CursorReader.u64
  | i64 => .i64 <$> CursorReader.i64
  | raw width => .raw <$> CursorReader.raw width

theorem asks (shape : Shape) : Asks shape.readInPlace shape.read shape.width shape.width
    fun cursor => shape.found cursor.order cursor.body cursor.position := by
  cases shape with
  | u16 => exact Asks.u16.map Field.u16
  | u32 => exact Asks.u32.map Field.u32
  | u64 => exact Asks.u64.map Field.u64
  | i64 => exact Asks.i64.map Field.i64
  | raw width => exact (Asks.raw width).map Field.raw

/-- A field that stands at the front is read back from there. -/
theorem read_of_takes {input out : BodyInput} {field : Field} (h : input.Takes [field] out) :
    field.shape.read input = .ok (field, out) := by
  cases field with
  | u16 value => exact BodyReader.map_eq_ok_iff.mpr ⟨_, BodyReader.u16_eq_ok_iff.mpr h, rfl⟩
  | u32 value => exact BodyReader.map_eq_ok_iff.mpr ⟨_, BodyReader.u32_eq_ok_iff.mpr h, rfl⟩
  | u64 value => exact BodyReader.map_eq_ok_iff.mpr ⟨_, BodyReader.u64_eq_ok_iff.mpr h, rfl⟩
  | i64 value => exact BodyReader.map_eq_ok_iff.mpr ⟨_, BodyReader.i64_eq_ok_iff.mpr h, rfl⟩
  | raw bytes =>
    have hraw : BodyReader.raw bytes.length input = .ok (⟨bytes, rfl⟩, out) :=
      BodyReader.raw_eq_ok_iff.mpr h
    exact BodyReader.map_eq_ok_iff.mpr ⟨_, BodyReader.map_eq_ok_iff.mpr ⟨_, hraw, rfl⟩, rfl⟩

end Shape

end Field

/-- What a reader can be asked for: the next field of a shape, or whether bytes are left. -/
inductive Request where
  | take (shape : Field.Shape)
  | require (width : Nat)

namespace Request

/-- The number of bytes that have to be left. -/
def width : Request → Nat
  | take shape => shape.width
  | require width => width

/-- The number of bytes that are taken then. -/
def taken : Request → Nat
  | take shape => shape.width
  | require _ => 0

/-- What is found at an offset. -/
def found (order : ByteOrder) (body : Bytes) (offset : Nat) : Request → Option Field
  | take shape => some (shape.found order body offset)
  | require _ => none

def read : Request → BodyReader (Option Field)
  | take shape => some <$> shape.read
  | require width => (fun _ => none) <$> BodyReader.require width

def readInPlace : Request → CursorReader (Option Field)
  | take shape => some <$> shape.readInPlace
  | require width => (fun _ => none) <$> CursorReader.require width

theorem asks (request : Request) :
    Asks request.readInPlace request.read request.width request.taken
      fun cursor => request.found cursor.order cursor.body cursor.position := by
  cases request with
  | take shape => exact shape.asks.map some
  | require width => exact (Asks.require width).map fun _ => none

theorem taken_le_width (request : Request) : request.taken ≤ request.width := by
  cases request with
  | take shape => exact Nat.le_refl _
  | require width => exact Nat.zero_le _

end Request

/-- What comes of a request, and how much of the body was read then. -/
abbrev Answer := Except Fault (Option Field) × Nat

namespace BodyInput

/-- A request that fails leaves the input to the next one. -/
def answer (input : BodyInput) (request : Request) : Except Fault (Option Field) × BodyInput :=
  match request.read input with
  | .ok (field, out) => (.ok field, out)
  | .error fault => (.error fault, input)

def after (input : BodyInput) (requests : List Request) : BodyInput :=
  requests.foldl (fun input request => (input.answer request).2) input

def answers (input : BodyInput) : List Request → List Answer
  | [] => []
  | request :: requests =>
    let (outcome, out) := input.answer request
    (outcome, out.consumed) :: out.answers requests

theorem answers_append (input : BodyInput) (earlier later : List Request) :
    input.answers (earlier ++ later) =
      input.answers earlier ++ (input.after earlier).answers later := by
  induction earlier generalizing input with
  | nil => rfl
  | cons request earlier ih => exact congrArg _ (ih (input.answer request).2)

/-- Fields that stand at the front are answered one by one, with the width of all up to each. -/
theorem answers_of_takes {input out : BodyInput} {fields : List Field}
    (h : input.Takes fields out) :
    input.answers (fields.map fun field => .take field.shape) =
      fields.mapIdx fun i field =>
        (.ok (some field), input.consumed + Field.widthAll (fields.take (i + 1))) := by
  induction fields generalizing input with
  | nil => rfl
  | cons field fields ih =>
    obtain ⟨mid, hfield, hfields⟩ := takes_cons.mp h
    have hread : (Request.take field.shape).read input = .ok (some field, mid) :=
      BodyReader.map_eq_ok_iff.mpr ⟨_, Field.Shape.read_of_takes hfield, rfl⟩
    have hconsumed : mid.consumed = input.consumed + field.width := by
      obtain ⟨rest, -, rfl⟩ := hfield
      rfl
    rw [List.map_cons, List.mapIdx_cons, answers, answer, hread]
    simp only [ih hfields, hconsumed, List.take_succ_cons, Field.widthAll, List.take_zero,
      Nat.add_zero, Nat.add_assoc]

section Behind

variable {recordType : UInt16} {order : ByteOrder} {body : Bytes} {offset : Nat}

theorem answer_of_room {request : Request} (h : offset + request.width ≤ body.length) :
    (behind recordType order body offset).answer request =
      (.ok (request.found order body offset),
        behind recordType order body (offset + request.taken)) := by
  have hread := request.asks.reader_of_room ⟨recordType, order, body, offset, []⟩ h
  rw [BodyCursor.input] at hread
  rw [answer, hread]
  rfl

theorem answer_of_shortage {request : Request} (hoffset : offset ≤ body.length)
    (h : body.length < offset + request.width) :
    (behind recordType order body offset).answer request =
      (.error (.truncatedBody recordType (min (offset + request.width) largestLength)
        body.length), behind recordType order body offset) := by
  have hread := request.asks.reader_of_shortage ⟨recordType, order, body, offset, []⟩ hoffset h
  rw [BodyCursor.shortage_input hoffset, BodyCursor.input] at hread
  rw [answer, hread]

theorem answers_behind (hoffset : offset ≤ body.length) (request : Request) :
    (behind recordType order body offset).answers [request] =
      [if offset + request.width ≤ body.length then
        (.ok (request.found order body offset), offset + request.taken)
      else
        (.error (.truncatedBody recordType (min (offset + request.width) largestLength)
          body.length), offset)] := by
  by_cases hroom : offset + request.width ≤ body.length
  · simp only [answers, answer_of_room hroom, if_pos hroom]
    rfl
  · simp only [answers, answer_of_shortage hoffset (Nat.lt_of_not_le hroom), if_neg hroom]
    rfl

/-- No request leads out of the body. -/
theorem exists_after_behind (hoffset : offset ≤ body.length) (requests : List Request) :
    ∃ position ≤ body.length, (behind recordType order body offset).after requests =
      behind recordType order body position := by
  induction requests generalizing offset with
  | nil => exact ⟨offset, hoffset, rfl⟩
  | cons request requests ih =>
    rw [after, List.foldl_cons]
    by_cases hroom : offset + request.width ≤ body.length
    · rw [answer_of_room hroom]
      have htaken := request.taken_le_width
      exact ih (by omega)
    · rw [answer_of_shortage hoffset (Nat.lt_of_not_le hroom)]
      exact ih hoffset

end Behind

end BodyInput

namespace BodyCursor

/-- The answers in place. There are none if a sum or an index is out of range. -/
def answers? (cursor : BodyCursor) : List Request → Option (List Answer)
  | [] => some []
  | request :: requests => do
    let (outcome, stopped) ← request.readInPlace cursor
    let later ← stopped.answers? requests
    return (outcome, stopped.position) :: later

/-- In place a request stays in range and is answered from what is left of the body. -/
theorem exists_readInPlace {cursor : BodyCursor} (h : cursor.InRange) (request : Request) :
    ∃ outcome stopped, request.readInPlace cursor = some (outcome, stopped) ∧ stopped.InRange ∧
      cursor.input.answer request = (outcome, stopped.input) := by
  by_cases hroom : cursor.position + request.width ≤ cursor.body.length
  · have htaken := request.taken_le_width
    refine ⟨_, _, request.asks.inPlace_of_room cursor h hroom, h.advance (by omega), ?_⟩
    rw [BodyInput.answer, request.asks.reader_of_room cursor hroom]
  · have hshort := Nat.lt_of_not_le hroom
    refine ⟨_, _, request.asks.inPlace_of_shortage cursor h hshort, h, ?_⟩
    rw [BodyInput.answer, request.asks.reader_of_shortage cursor h.position_le hshort]

theorem answers?_eq {cursor : BodyCursor} (h : cursor.InRange) (requests : List Request) :
    cursor.answers? requests = some (cursor.input.answers requests) := by
  induction requests generalizing cursor with
  | nil => rfl
  | cons request requests ih =>
    obtain ⟨outcome, stopped, hread, hstopped, hanswer⟩ := exists_readInPlace h request
    simp only [answers?, hread, Option.bind_eq_bind, Option.bind_some, ih hstopped,
      BodyInput.answers, hanswer]
    rfl

end BodyCursor

/-- Fields are read back as they were written, whatever stands behind them. Of any body, requests of
any kind get the same answers in place as from the bytes that are left, and there is always an
answer. A request is met exactly if the bytes are there; otherwise it reports the length that the
body would have to have, and nothing is taken. -/
theorem fields_read_back_in_range :
    (∀ (order : ByteOrder) (fields : List Field), ∃ written : Bytes,
      (∀ out, (BodyWriter.fields order fields).appendTo out = (.ok (), out ++ written)) ∧
      ∀ (recordType : UInt16) (rest : Bytes),
        (BodyInput.ofBody recordType order (written ++ rest)).answers
            (fields.map fun field => .take field.shape) =
          fields.mapIdx fun i field =>
            (.ok (some field), Field.widthAll (fields.take (i + 1)))) ∧
    ∀ (recordType : UInt16) (order : ByteOrder) (body : Bytes),
      (body.length ≤ BodyInput.largestLength → ∀ requests : List Request,
        (BodyCursor.ofBody recordType order body).answers? requests =
          some ((BodyInput.ofBody recordType order body).answers requests)) ∧
      ∀ (earlier : List Request) (request : Request),
        let input := BodyInput.ofBody recordType order body
        let position := (input.after earlier).consumed
        position ≤ body.length ∧
        input.answers (earlier ++ [request]) = input.answers earlier ++
          [if position + request.width ≤ body.length then
            (.ok (request.found order body position), position + request.taken)
          else
            (.error (.truncatedBody recordType
              (min (position + request.width) BodyInput.largestLength) body.length), position)] := by
  constructor
  · intro order fields
    refine ⟨_, BodyWriter.writes_fields order fields, fun recordType rest => ?_⟩
    have htakes : (BodyInput.ofBody recordType order (Field.encodeAll order fields ++ rest)).Takes
        fields _ := ⟨rest, rfl, rfl⟩
    rw [BodyInput.answers_of_takes htakes]
    simp only [BodyInput.ofBody, Nat.zero_add]
  · intro recordType order body
    refine ⟨fun h => BodyCursor.answers?_eq (BodyCursor.inRange_ofBody h), ?_⟩
    intro earlier request
    obtain ⟨position, hposition, hafter⟩ :=
      @BodyInput.exists_after_behind recordType order body 0 (Nat.zero_le _) earlier
    rw [BodyInput.behind_zero] at hafter
    simp only [BodyInput.answers_append, hafter]
    exact ⟨hposition, congrArg _ (BodyInput.answers_behind hposition request)⟩

/-- The second word is cut short; behind that fault a single byte is still read from where the first
word ends. -/
theorem fields_read_back_in_range_of_three_bytes :
    (BodyCursor.ofBody 15 .little [1, 0, 2]).answers?
        [.take .u16, .take .u16, .take (.raw 1)] =
      some [(.ok (some (.u16 1)), 2), (.error (.truncatedBody 15 4 3), 2),
        (.ok (some (.raw [2])), 3)] :=
  ((fields_read_back_in_range.2 15 .little [1, 0, 2]).1 (by decide) _).trans rfl

end ExporterRecords
