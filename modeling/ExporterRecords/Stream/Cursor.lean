import ExporterRecords.Registry

/-!
# Reading a whole buffer

A cursor walks over a buffer record by record. A record whose body is bad is an item like any
other, and the walk goes on behind it; where the framing itself is broken, the walk ends with one
last item and stays where it is.
-/
namespace ExporterRecords.Stream

structure Cursor where
  format : WireFormat
  registry : Registry
  offset : Nat
  /-- The bytes from `offset` on. -/
  rest : Bytes
  finished : Bool

namespace Cursor

def ofBytes (format : WireFormat) (registry : Registry) (bytes : Bytes) : Cursor :=
  ⟨format, registry, 0, bytes, false⟩

/-- The header at the cursor, the bytes that it delimits and those behind them. -/
def cut (cursor : Cursor) : Except Fault (Header × Bytes × Bytes) := do
  let header ← Header.decode cursor.format.order cursor.rest
  let _ ← header.bodyLength
  match cursor.rest.split? header.size.toNat with
  | some (span, rest) => return (header, span.1, rest)
  | none =>
    throw (.truncatedStream header.recordType cursor.offset header.size.toNat cursor.rest.length)

theorem cut_eq_ok {cursor : Cursor} {header : Header} {span rest : Bytes}
    (h : cursor.cut = .ok (header, span, rest)) :
    cursor.rest = span ++ rest ∧ span.length = header.size.toNat ∧
      Header.length ≤ header.size.toNat := by
  unfold cut at h
  cases hdecode : Header.decode cursor.format.order cursor.rest with
  | error fault => simp [hdecode, bind, Except.bind] at h
  | ok decoded =>
    by_cases hsize : decoded.size.toNat < Header.length
    · simp [hdecode, bind, Except.bind, Header.bodyLength, hsize] at h
    · cases hsplit : cursor.rest.split? decoded.size.toNat with
      | none =>
        simp [hdecode, bind, Except.bind, Header.bodyLength, hsize, hsplit, throw, throwThe,
          MonadExceptOf.throw] at h
      | some parts =>
        obtain ⟨front, behind⟩ := parts
        simp only [hdecode, bind, Except.bind, Header.bodyLength, hsize, hsplit, pure,
          Except.pure, ↓reduceIte, Except.ok.injEq, Prod.mk.injEq] at h
        obtain ⟨rfl, rfl, rfl⟩ := h
        exact ⟨Bytes.split?_eq_some_iff.mp hsplit, front.2, Nat.le_of_not_lt hsize⟩

/-- The next item and the cursor behind it; none at the end of the buffer and after a broken
frame. -/
def next? (cursor : Cursor) : Option (Except Fault Record × Cursor) :=
  if cursor.finished || cursor.rest.isEmpty then none
  else match cursor.cut with
    | .ok (header, span, rest) => some (cursor.registry.decode cursor.format header span,
        { cursor with offset := cursor.offset + span.length, rest })
    | .error fault => some (.error fault, { cursor with finished := true })

/-- An upper bound on the items to come. -/
def potential (cursor : Cursor) : Nat := if cursor.finished then 0 else cursor.rest.length + 1

theorem potential_next? {cursor cursor' : Cursor} {item : Except Fault Record}
    (h : cursor.next? = some (item, cursor')) : cursor'.potential < cursor.potential := by
  unfold next? at h
  split at h
  · simp at h
  · rename_i hlive
    have hfin : cursor.finished = false := by
      cases hf : cursor.finished <;> simp_all
    split at h
    · rename_i header span rest hcut
      obtain ⟨hrest, hspan, hsize⟩ := cut_eq_ok hcut
      simp only [Option.some.injEq, Prod.mk.injEq] at h
      rw [← h.2]
      simp only [potential, hfin, Bool.false_eq_true, ↓reduceIte, hrest, List.length_append]
      simp only [Header.length] at hsize
      omega
    · simp only [Option.some.injEq, Prod.mk.injEq] at h
      rw [← h.2]
      simp [potential, hfin]

/-- All items from here on, each with the cursor behind it. -/
def walk (cursor : Cursor) : List (Except Fault Record × Cursor) :=
  match _h : cursor.next? with
  | none => []
  | some (item, cursor') => (item, cursor') :: walk cursor'
termination_by cursor.potential
decreasing_by exact potential_next? _h

/-- All items from here on. -/
def items (cursor : Cursor) : List (Except Fault Record) := cursor.walk.map (·.1)

/-- The cursor at the end of the walk. -/
def last (cursor : Cursor) : Cursor := (cursor.walk.getLast?.map (·.2)).getD cursor

end Cursor

/-- The records of a whole buffer, or the first fault in it. -/
def decodeAll (format : WireFormat) (bytes : Bytes) : Except Fault (List Record) :=
  (Cursor.ofBytes format .standard bytes).items.mapM id

end ExporterRecords.Stream
