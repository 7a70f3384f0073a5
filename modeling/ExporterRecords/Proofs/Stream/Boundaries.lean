import ExporterRecords.Proofs.Stream.RoundTrip

/-!
# Where the records of a buffer start

A walk cuts a buffer into records that follow each other without a gap, each as long as its own
header says. It goes on behind a record whose body is bad. What is left behind the last whole record
is either nothing or one last fault, and no request after that brings anything.
-/
namespace ExporterRecords.Stream

open Stream.Frame

/-- What is wrong, if anything, at the offset behind the last whole record of a buffer. -/
inductive Ends (format : WireFormat) (data : Bytes) (offset : Nat) : Option Fault → Prop
  | clean (whole : offset = data.length) : Ends format data offset none
  | shortHeader (inside : offset < data.length) (short : data.length - offset < Header.length) :
    Ends format data offset (some (.truncatedHeader (data.length - offset)))
  | impossible {header : Header} (read : Header.decode format.order (data.drop offset) = .ok header)
    (small : header.size.toNat < Header.length) :
    Ends format data offset (some (.invalidSize header.recordType header.size Header.length))
  | shortBody {header : Header} (read : Header.decode format.order (data.drop offset) = .ok header)
    (counted : Header.length ≤ header.size.toNat)
    (short : data.length - offset < header.size.toNat) :
    Ends format data offset (some (.truncatedStream header.recordType offset header.size.toNat
      (data.length - offset)))

/-- The fault of a tail that starts with no frame; an empty tail is no fault. -/
def Frame.breakage? (format : WireFormat) (offset : Nat) (tail : Bytes) : Option Fault :=
  if tail = [] then none else some (breakage format offset tail)

theorem Frame.ending_eq_toList (format : WireFormat) (offset : Nat) (tail : Bytes) :
    ending format offset tail = ((breakage? format offset tail).map .error).toList := by
  rw [ending, breakage?]
  split <;> rfl

theorem ends_of_tail {format : WireFormat} {data : Bytes} {offset : Nat}
    (hoffset : offset ≤ data.length) (htail : cut? format (data.drop offset) = none) :
    Ends format data offset (breakage? format offset (data.drop offset)) := by
  have hlength : (data.drop offset).length = data.length - offset := List.length_drop
  by_cases hempty : data.drop offset = []
  · rw [breakage?, if_pos hempty]
    rw [List.drop_eq_nil_iff] at hempty
    exact .clean (Nat.le_antisymm hoffset hempty)
  · rw [breakage?, if_neg hempty]
    rw [List.drop_eq_nil_iff, Nat.not_le] at hempty
    cases hdecode : Header.decode format.order (data.drop offset) with
    | error fault =>
      obtain ⟨hshort, rfl⟩ := Header.decode_eq_error_iff.mp hdecode
      rw [hlength] at hshort
      rw [breakage, hdecode, hlength]
      exact .shortHeader hempty hshort
    | ok header =>
      rw [breakage, hdecode, hlength]
      by_cases hsize : header.size.toNat < Header.length
      · simp only [hsize, ↓reduceIte]
        exact .impossible hdecode hsize
      · have hshort := (cut?_eq_none_iff.mp htail header hdecode).resolve_left hsize
        rw [hlength] at hshort
        simp only [hsize, ↓reduceIte]
        exact .shortBody hdecode (Nat.le_of_not_lt hsize) hshort

namespace Cursor

/-- The cursor after a request for the next item; one that brings nothing ends the walk. -/
def advance (cursor : Cursor) : Cursor :=
  match cursor.next? with
  | some (_, behind) => behind
  | none => { cursor with finished := true }

/-- The cursor after that many requests. -/
def after (cursor : Cursor) : Nat → Cursor
  | 0 => cursor
  | n + 1 => cursor.advance.after n

section Requests

variable {cursor : Cursor} {tail : Bytes}

theorem after_add (cursor : Cursor) (m n : Nat) :
    cursor.after (m + n) = (cursor.after m).after n := by
  induction m generalizing cursor with
  | zero => rw [Nat.zero_add, after]
  | succ m ih => rw [Nat.succ_add, after, after, ih]

theorem after_of_finished (h : cursor.finished = true) (n : Nat) : cursor.after n = cursor := by
  have hstays : cursor.advance = cursor := by
    rw [advance, next?_of_finished h]
    simp only [← h]
  induction n with
  | zero => rfl
  | succ n ih => rw [after, hstays, ih]

/-- The items are what the requests bring, one after the other. -/
theorem next?_after (cursor : Cursor) (n : Nat) :
    (cursor.after n).next?.map (·.1) = cursor.items[n]? := by
  induction n generalizing cursor with
  | zero =>
    cases hnext : cursor.next? with
    | none => simp [after, items, hnext, walk_of_next?_eq_none hnext]
    | some step => simp [after, items, hnext, walk_of_next?_eq_some hnext]
  | succ n ih =>
    cases hnext : cursor.next? with
    | none =>
      have hend : { cursor with finished := true }.next? = none := next?_of_finished rfl
      rw [after, advance, hnext, after_of_finished rfl, hend, items, walk_of_next?_eq_none hnext]
      rfl
    | some step =>
      rw [after, advance, hnext, ih, items, items, walk_of_next?_eq_some hnext]
      rfl

/-- A request for each of several frames leaves the cursor behind them. -/
theorem after_of_frames (cursor : Cursor) (frames : List Frame) (hlive : cursor.finished = false)
    (hrest : cursor.rest = join cursor.format frames ++ tail) :
    cursor.after frames.length =
      { cursor with offset := cursor.offset + (join cursor.format frames).length, rest := tail } := by
  induction frames generalizing cursor with
  | nil =>
    rw [join_nil, List.nil_append] at hrest
    subst hrest
    rfl
  | cons frame frames ih =>
    rw [join_cons, List.append_assoc] at hrest
    have hbehind := ih { cursor with
      offset := cursor.offset + frame.size.toNat, rest := join cursor.format frames ++ tail }
      hlive rfl
    rw [List.length_cons, after, advance, next?_of_frame hlive hrest]
    dsimp only at hbehind ⊢
    rw [hbehind, join_cons, List.length_append, frame.length_encode, Nat.add_assoc]

/-- The request behind the last frame ends the walk where it is. -/
theorem advance_of_tail (hlive : cursor.finished = false)
    (htail : cut? cursor.format cursor.rest = none) :
    cursor.advance = { cursor with finished := true } := by
  by_cases hempty : cursor.rest = []
  · have hnext : cursor.next? = none := by simp [next?, hempty]
    rw [advance, hnext]
  · rw [advance, next?_of_tail hlive hempty htail]

/-- Behind the last frame further requests move nothing. -/
theorem after_of_tail (hlive : cursor.finished = false)
    (htail : cut? cursor.format cursor.rest = none) (n : Nat) :
    (cursor.after n).offset = cursor.offset ∧ (cursor.after n).rest = cursor.rest := by
  cases n with
  | zero => exact ⟨rfl, rfl⟩
  | succ n =>
    rw [after, advance_of_tail hlive htail, after_of_finished rfl]
    exact ⟨rfl, rfl⟩

end Requests

end Cursor

namespace Framing

variable {format : WireFormat}

/-- The offset at which the frame with this index starts, or the tail if there is no such frame. -/
def start (framing : Framing) (format : WireFormat) (index : Nat) : Nat :=
  (join format (framing.frames.take index)).length

/-- The buffer from the start of a frame on. -/
theorem drop_start {framing : Framing} {data : Bytes}
    (hdata : data = join format framing.frames ++ framing.tail) (index : Nat) :
    framing.start format index ≤ data.length ∧
      data.drop (framing.start format index) =
        join format (framing.frames.drop index) ++ framing.tail := by
  have hsplit : data = join format (framing.frames.take index) ++
      (join format (framing.frames.drop index) ++ framing.tail) := by
    rw [hdata, ← List.append_assoc, ← join_append, List.take_append_drop]
  constructor
  · rw [hsplit, List.length_append]
    exact Nat.le_add_right ..
  · conv_lhs => rw [hsplit]
    exact List.drop_left' rfl

theorem start_succ (framing : Framing) (format : WireFormat) {index : Nat}
    (h : index < framing.frames.length) :
    framing.start format (index + 1) =
      framing.start format index + framing.frames[index].size.toNat := by
  rw [start, List.take_succ_eq_append_getElem h, join_append, List.length_append, join_cons,
    join_nil, List.append_nil, ForeignRecord.length_encode]
  rfl

theorem le_start (framing : Framing) (format : WireFormat) {count : Nat}
    (h : count ≤ framing.frames.length) : Header.length * count ≤ framing.start format count := by
  induction count with
  | zero => exact Nat.zero_le _
  | succ count ih =>
    have hsize := framing.frames[count].headerLength_le_size
    rw [start_succ framing format h, Nat.mul_succ]
    exact Nat.add_le_add (ih (Nat.le_of_succ_le h)) hsize

end Framing

theorem mapM_id_eq_error_iff {items : List (Except Fault Record)} {fault : Fault} :
    items.mapM id = .error fault ↔
      ∃ (records : List Record) (later : List (Except Fault Record)),
        items = records.map .ok ++ .error fault :: later := by
  constructor
  · intro h
    induction items with
    | nil => cases h
    | cons item items ih =>
      cases item with
      | error other =>
        simp only [List.mapM_cons, id, bind, Except.bind, Except.error.injEq] at h
        subst h
        exact ⟨[], items, rfl⟩
      | ok record =>
        cases hitems : items.mapM id with
        | ok records => simp [List.mapM_cons, hitems, bind, Except.bind, pure, Except.pure] at h
        | error other =>
          simp only [List.mapM_cons, hitems, id, bind, Except.bind, Except.error.injEq] at h
          subst h
          obtain ⟨records, later, rfl⟩ := ih hitems
          exact ⟨record :: records, later, rfl⟩
  · intro h
    obtain ⟨records, later, rfl⟩ := h
    induction records with
    | nil => rfl
    | cons record records ih =>
      rw [List.map_cons, List.cons_append, List.mapM_cons, ih]
      rfl

namespace Cursor

open Framing

variable {format : WireFormat} {registry : Registry} {data : Bytes} {framing : Framing}

/-- After a request for each record in front of it, the cursor is where a record starts. -/
theorem after_start (hdata : data = join format framing.frames ++ framing.tail) {index : Nat}
    (h : index ≤ framing.frames.length) :
    (ofBytes format registry data).after index =
      ⟨format, registry, framing.start format index, data.drop (framing.start format index),
        false⟩ := by
  obtain ⟨-, hdrop⟩ := drop_start hdata index
  have hrest : (ofBytes format registry data).rest = join format (framing.frames.take index) ++
      data.drop (framing.start format index) := by
    rw [hdrop, ← List.append_assoc, ← join_append, List.take_append_drop]
    exact hdata
  have hafter := after_of_frames (ofBytes format registry data) (framing.frames.take index) rfl hrest
  rw [List.length_take_of_le h] at hafter
  rw [hafter, start]
  simp only [ofBytes, Nat.zero_add]

/-- The record at the start of a frame: its header, its span, and the item that comes of it. -/
theorem record_at_start (registry : Registry)
    (hdata : data = join format framing.frames ++ framing.tail) {index : Nat}
    (h : index < framing.frames.length) :
    ∃ header, Header.decode format.order (data.drop (framing.start format index)) = .ok header ∧
      Header.length ≤ header.size.toNat ∧
      framing.start format (index + 1) = framing.start format index + header.size.toNat ∧
      registry.decodeFrame format framing.frames[index] = registry.decode format header
        ((data.drop (framing.start format index)).take header.size.toNat) := by
  obtain ⟨-, hdrop⟩ := drop_start hdata index
  rw [List.drop_eq_getElem_cons h, join_cons, List.append_assoc] at hdrop
  refine ⟨framing.frames[index].header, ?_, ForeignRecord.headerLength_le_size _,
    start_succ framing format h, ?_⟩
  · rw [hdrop]
    exact ForeignRecord.decode_encode_append ..
  · have htake : (data.drop (framing.start format index)).take framing.frames[index].size.toNat =
        framing.frames[index].encode format := by
      rw [hdrop]
      exact List.take_left' (ForeignRecord.length_encode ..)
    rw [Registry.decodeFrame, ForeignRecord.header, htake]

/-- A walk cuts its buffer into records that lie one behind the other, each as long as its header
says, and brings what the registry makes of each of them. Behind the last whole record it stays
where it is, with one more item if something is left; after the items no request brings any.
Reading all records succeeds exactly if every item is one, and otherwise fails as the first item
that is none. -/
theorem walk_partitions (format : WireFormat) (registry : Registry) (data : Bytes) :
    let cursor := ofBytes format registry data
    (∀ n, (cursor.after n).next?.map (·.1) = cursor.items[n]?) ∧
    cursor.items.length ≤ data.length / Header.length + 1 ∧
    (∃ (count : Nat) (start : Nat → Nat) (fault? : Option Fault),
      start 0 = 0 ∧ start count ≤ data.length ∧
      (∀ i < count, ∃ header, Header.decode format.order (data.drop (start i)) = .ok header ∧
        Header.length ≤ header.size.toNat ∧ start (i + 1) = start i + header.size.toNat ∧
        cursor.items[i]? = some (registry.decode format header
          ((data.drop (start i)).take header.size.toNat)) ∧
        (cursor.after (i + 1)).offset = start (i + 1) ∧
        (cursor.after (i + 1)).rest = data.drop (start (i + 1))) ∧
      (∀ n ≥ count, (cursor.after n).offset = start count ∧
        (cursor.after n).rest = data.drop (start count)) ∧
      Ends format data (start count) fault? ∧
      cursor.items.drop count = (fault?.map .error).toList) ∧
    (∀ records, decodeAll format data = .ok records ↔
      (ofBytes format .standard data).items = records.map .ok) ∧
    (∀ fault, decodeAll format data = .error fault ↔
      ∃ (records : List Record) (later : List (Except Fault Record)),
        (ofBytes format .standard data).items = records.map .ok ++ .error fault :: later) := by
  intro cursor
  obtain ⟨hdata, htail⟩ := Framing.ofBytes_spec format data
  have hitems : cursor.items = _ := items_ofBytes format registry data
  generalize Framing.ofBytes format data = framing at *
  -- The tail stands behind all frames.
  have hwhole : framing.start format framing.frames.length =
      (join format framing.frames).length := by
    rw [Framing.start, List.take_length]
  obtain ⟨hwithin, hbehind⟩ := drop_start hdata framing.frames.length
  rw [List.drop_length, join_nil, List.nil_append] at hbehind
  rw [Framing.items, Nat.zero_add, ← hwhole, ending_eq_toList, ← hbehind] at hitems
  rw [← hbehind] at htail
  refine ⟨next?_after cursor, ?_, ⟨framing.frames.length, framing.start format, _, rfl, hwithin,
    ?_, ?_, ends_of_tail hwithin htail, ?_⟩, ?_, fun fault => mapM_id_eq_error_iff⟩
  · have hcount := framing.le_start format (Nat.le_refl _)
    have hlast : ∀ fault? : Option Fault,
        (fault?.map (Except.error : Fault → Except Fault Record)).toList.length ≤ 1 := by
      intro fault?
      cases fault? <;> simp
    rw [hitems, List.length_append, List.length_map]
    refine Nat.add_le_add ?_ (hlast _)
    rw [Nat.le_div_iff_mul_le (by decide), Nat.mul_comm]
    exact hcount.trans hwithin
  · intro i hi
    obtain ⟨header, hdecode, hsize, hnext, hitem⟩ := record_at_start registry hdata hi
    refine ⟨header, hdecode, hsize, hnext, ?_, ?_⟩
    · rw [hitems, List.getElem?_append_left (by rwa [List.length_map]), List.getElem?_map,
        List.getElem?_eq_getElem hi, Option.map_some, hitem]
    · rw [after_start hdata hi]
      exact ⟨rfl, rfl⟩
  · intro n hn
    obtain ⟨more, rfl⟩ := Nat.exists_eq_add_of_le hn
    rw [after_add, after_start hdata (Nat.le_refl _)]
    exact after_of_tail rfl htail more
  · rw [hitems, List.drop_left' (List.length_map _)]
  · intro records
    constructor
    · exact eq_map_ok_of_mapM_id
    · intro h
      rw [decodeAll, h, mapM_id_map_ok]

end Cursor

end ExporterRecords.Stream
