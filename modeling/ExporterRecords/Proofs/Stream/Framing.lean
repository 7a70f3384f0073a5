import ExporterRecords.Proofs.Fields
import ExporterRecords.Stream.Cursor

/-!
# Frames of a stream

Before the kind of a record is looked up, the record is a frame: a type code and a body under a
header of the stream's byte order. A buffer is in one way a sequence of frames and a tail that
starts with none. A cursor finds exactly these frames, decodes each of them, and ends with a fault
where the tail is not empty.
-/
namespace ExporterRecords

namespace ForeignRecord

variable (format : WireFormat) (record : ForeignRecord)

def header : Header := ⟨record.recordType, record.size⟩

theorem encode_eq_append :
    record.encode format = record.header.encode format.order ++ record.body := rfl

@[simp] theorem length_encode : (record.encode format).length = record.size.toNat := by
  rw [encode, List.length_append, Header.length_encode, toNat_size]

theorem headerLength_le_size : Header.length ≤ record.size.toNat := by
  rw [toNat_size]
  exact Nat.le_add_right ..

theorem bodyLength_header : record.header.bodyLength = .ok record.body.length := by
  have h := record.headerLength_le_size
  rw [Header.bodyLength, header, if_neg (Nat.not_lt.mpr h), toNat_size, Nat.add_sub_cancel_left]

theorem decode_encode_append (rest : Bytes) :
    Header.decode format.order (record.encode format ++ rest) = .ok record.header := by
  rw [encode, List.append_assoc]
  exact Header.decode_encode_append ..

/-- The size of a header and the body that it declares determine each other. -/
theorem header_mk {header : Header} {body : Bytes}
    (fits : Header.length + body.length ≤ Header.largestSize)
    (h : Header.length + body.length = header.size.toNat) :
    (ForeignRecord.mk header.recordType body fits).header = header := by
  rw [ForeignRecord.header, size]
  simp only [h, UInt16.ofNat_toNat]

end ForeignRecord

namespace Stream

/-- A record of any kind as it stands in a stream: like a foreign one. -/
abbrev Frame := ForeignRecord

namespace Frame

variable {format : WireFormat} {bytes rest : Bytes} {frame : Frame}

/-- The frame at the front of a buffer and the bytes behind it. -/
def cut? (format : WireFormat) (bytes : Bytes) : Option (Frame × Bytes) :=
  match Header.decode format.order bytes with
  | .error _ => none
  | .ok header =>
    if h : header.size.toNat < Header.length then none
    else match Bytes.split? (header.size.toNat - Header.length) (bytes.drop Header.length) with
      | none => none
      | some (body, rest) =>
        some (⟨header.recordType, body.1, by
          have := header.size.toNat_lt
          rw [body.2, Header.largestSize]
          omega⟩, rest)

/-- A frame is cut off exactly where its written form stands. -/
theorem cut?_eq_some_iff :
    cut? format bytes = some (frame, rest) ↔ bytes = frame.encode format ++ rest := by
  constructor
  · intro h
    unfold cut? at h
    split at h
    · cases h
    · rename_i header hdecode
      split at h
      · cases h
      · rename_i hsize
        split at h
        · cases h
        · rename_i body behind hsplit
          cases h
          obtain ⟨after, rfl⟩ := Header.decode_eq_ok_iff.mp hdecode
          rw [Bytes.split?_eq_some_iff, List.drop_left' (Header.length_encode ..)] at hsplit
          rw [hsplit, ForeignRecord.encode_eq_append, ForeignRecord.header_mk, List.append_assoc]
          rw [body.2]
          omega
  · intro h
    subst h
    have hsize : ¬ frame.header.size.toNat < Header.length :=
      Nat.not_lt.mpr frame.headerLength_le_size
    have hbody : frame.body.length = frame.header.size.toNat - Header.length := by
      rw [ForeignRecord.header, frame.toNat_size, Nat.add_sub_cancel_left]
    have hsplit : Bytes.split? (frame.header.size.toNat - Header.length)
        ((frame.encode format ++ rest).drop Header.length) = some (⟨frame.body, hbody⟩, rest) := by
      rw [Bytes.split?_eq_some_iff, ForeignRecord.encode_eq_append, List.append_assoc,
        List.drop_left' (Header.length_encode ..)]
    unfold cut?
    rw [frame.decode_encode_append]
    dsimp only
    rw [dif_neg hsize, hsplit]
    rfl

theorem cut?_encode_append (format : WireFormat) (frame : Frame) (rest : Bytes) :
    cut? format (frame.encode format ++ rest) = some (frame, rest) :=
  cut?_eq_some_iff.mpr rfl

theorem encode_inj {other : Frame} :
    frame.encode format = other.encode format ↔ frame = other := by
  constructor
  · intro h
    have hcut := cut?_encode_append format frame []
    rw [h, cut?_encode_append] at hcut
    cases hcut
    rfl
  · intro h
    rw [h]

theorem length_lt_of_cut? (h : cut? format bytes = some (frame, rest)) :
    rest.length < bytes.length := by
  have hsize := frame.headerLength_le_size
  rw [cut?_eq_some_iff.mp h, List.length_append, ForeignRecord.length_encode]
  simp only [Header.length] at hsize
  omega

/-- There is no frame where the header is missing or impossible, or the body not all there. -/
theorem cut?_eq_none_iff :
    cut? format bytes = none ↔ ∀ header, Header.decode format.order bytes = .ok header →
      header.size.toNat < Header.length ∨ bytes.length < header.size.toNat := by
  unfold cut?
  cases hdecode : Header.decode format.order bytes with
  | error fault => simp
  | ok header =>
    by_cases hsize : header.size.toNat < Header.length
    · simp [hsize]
    · have hsplit : Bytes.split? (header.size.toNat - Header.length) (bytes.drop Header.length) =
          none ↔ bytes.length < header.size.toNat := by
        have := Header.length_le_of_decode hdecode
        rw [Bytes.split?_eq_none_iff, List.length_drop]
        omega
      simp only [hsize, ↓reduceDIte, Except.ok.injEq, forall_eq', false_or]
      rw [← hsplit]
      split <;> simp_all

/-- What is wrong with a buffer that starts with no frame. -/
def breakage (format : WireFormat) (offset : Nat) (bytes : Bytes) : Fault :=
  match Header.decode format.order bytes with
  | .error fault => fault
  | .ok header =>
    if header.size.toNat < Header.length then
      .invalidSize header.recordType header.size Header.length
    else
      .truncatedStream header.recordType offset header.size.toNat bytes.length

/-- Whether the header at the front does not even count itself in, so that no later bytes help. -/
def isImpossible (format : WireFormat) (bytes : Bytes) : Bool :=
  match Header.decode format.order bytes with
  | .error _ => false
  | .ok header => header.size.toNat < Header.length

theorem isImpossible_iff :
    isImpossible format bytes = true ↔ ∃ header, Header.decode format.order bytes = .ok header ∧
      header.size.toNat < Header.length := by
  unfold isImpossible
  cases Header.decode format.order bytes <;> simp

@[simp] theorem isImpossible_nil (format : WireFormat) : isImpossible format [] = false := rfl

theorem cut?_of_isImpossible (h : isImpossible format bytes = true) : cut? format bytes = none := by
  obtain ⟨header, hdecode, hsize⟩ := isImpossible_iff.mp h
  rw [cut?_eq_none_iff, hdecode]
  intro _ heq
  cases heq
  exact .inl hsize

theorem isImpossible_append (h : isImpossible format bytes = true) (more : Bytes) :
    isImpossible format (bytes ++ more) = true := by
  obtain ⟨header, hdecode, hsize⟩ := isImpossible_iff.mp h
  exact isImpossible_iff.mpr ⟨header, Header.decode_append hdecode more, hsize⟩

/-- An impossible header is the same fault wherever and however early it is found. -/
theorem breakage_of_isImpossible (h : isImpossible format bytes = true) (more : Bytes)
    (offset offset' : Nat) :
    breakage format offset (bytes ++ more) = breakage format offset' bytes := by
  obtain ⟨header, hdecode, hsize⟩ := isImpossible_iff.mp h
  rw [breakage, breakage, hdecode, Header.decode_append hdecode more]
  simp [hsize]

theorem breakage_eq_invalidSize (h : isImpossible format bytes = true) (offset : Nat) :
    ∃ recordType size : UInt16, size.toNat < Header.length ∧
      breakage format offset bytes = .invalidSize recordType size Header.length := by
  obtain ⟨header, hdecode, hsize⟩ := isImpossible_iff.mp h
  refine ⟨header.recordType, header.size, hsize, ?_⟩
  rw [breakage, hdecode]
  simp [hsize]

/-- The item with which a walk ends before a tail: a fault, unless nothing is left. -/
def ending (format : WireFormat) (offset : Nat) (tail : Bytes) : List (Except Fault Record) :=
  if tail = [] then [] else [.error (breakage format offset tail)]

/-- The written form of several frames without gaps. -/
def join (format : WireFormat) (frames : List Frame) : Bytes :=
  frames.flatMap (ForeignRecord.encode format)

@[simp] theorem join_nil (format : WireFormat) : join format [] = [] := rfl

@[simp] theorem join_cons (format : WireFormat) (frame : Frame) (frames : List Frame) :
    join format (frame :: frames) = frame.encode format ++ join format frames := rfl

@[simp] theorem join_append (format : WireFormat) (frames more : List Frame) :
    join format (frames ++ more) = join format frames ++ join format more := by
  simp [join]

end Frame

/-- A buffer taken apart: its frames and what is left behind them. -/
structure Framing where
  frames : List Frame
  tail : Bytes

namespace Framing

open Stream.Frame

variable {format : WireFormat} {bytes : Bytes}

def ofBytes (format : WireFormat) (bytes : Bytes) : Framing :=
  match _h : cut? format bytes with
  | none => ⟨[], bytes⟩
  | some (frame, rest) =>
    let behind := ofBytes format rest
    ⟨frame :: behind.frames, behind.tail⟩
termination_by bytes.length
decreasing_by exact length_lt_of_cut? _h

theorem ofBytes_of_cut?_eq_none (h : cut? format bytes = none) :
    ofBytes format bytes = ⟨[], bytes⟩ := by
  rw [ofBytes]
  split
  · rfl
  · rename_i hsome
    rw [h] at hsome
    cases hsome

theorem ofBytes_encode_append (format : WireFormat) (frame : Frame) (rest : Bytes) :
    ofBytes format (frame.encode format ++ rest) =
      ⟨frame :: (ofBytes format rest).frames, (ofBytes format rest).tail⟩ := by
  rw [ofBytes]
  split
  · rename_i hnone
    rw [cut?_encode_append] at hnone
    cases hnone
  · rename_i hsome
    rw [cut?_encode_append] at hsome
    cases hsome
    rfl

theorem ofBytes_join_append (format : WireFormat) (frames : List Frame) (rest : Bytes) :
    ofBytes format (join format frames ++ rest) =
      ⟨frames ++ (ofBytes format rest).frames, (ofBytes format rest).tail⟩ := by
  induction frames with
  | nil => rfl
  | cons frame frames ih =>
    rw [join_cons, List.append_assoc, ofBytes_encode_append, ih]
    rfl

/-- Nothing is lost between the frames, and the tail starts with none. -/
theorem ofBytes_spec (format : WireFormat) (bytes : Bytes) :
    bytes = join format (ofBytes format bytes).frames ++ (ofBytes format bytes).tail ∧
      cut? format (ofBytes format bytes).tail = none := by
  cases h : cut? format bytes with
  | none =>
    rw [ofBytes_of_cut?_eq_none h]
    exact ⟨rfl, h⟩
  | some cut =>
    obtain ⟨frame, rest⟩ := cut
    have ih := ofBytes_spec format rest
    rw [cut?_eq_some_iff.mp h, ofBytes_encode_append]
    refine ⟨?_, ih.2⟩
    rw [join_cons, List.append_assoc, ← ih.1]
termination_by bytes.length
decreasing_by exact length_lt_of_cut? h

/-- A buffer is taken apart in one way only. -/
theorem ofBytes_eq_iff {framing : Framing} :
    ofBytes format bytes = framing ↔
      bytes = join format framing.frames ++ framing.tail ∧ cut? format framing.tail = none := by
  constructor
  · intro h
    subst h
    exact ofBytes_spec format bytes
  · intro h
    obtain ⟨rfl, htail⟩ := h
    rw [ofBytes_join_append, ofBytes_of_cut?_eq_none htail, List.append_nil]

/-- Frames without gaps are taken apart into themselves. -/
theorem ofBytes_join (format : WireFormat) (frames : List Frame) :
    ofBytes format (join format frames) = ⟨frames, []⟩ :=
  ofBytes_eq_iff.mpr ⟨(List.append_nil _).symm, rfl⟩

end Framing

end Stream

/-- The record in a frame. -/
def Registry.decodeFrame (registry : Registry) (format : WireFormat) (frame : Stream.Frame) :
    Except Fault Record :=
  registry.decode format frame.header (frame.encode format)

namespace Stream

open Stream.Frame

namespace Cursor

variable {cursor cursor' : Cursor} {item : Except Fault Record} {frame : Frame} {rest tail : Bytes}

theorem cut_of_frame (h : cursor.rest = frame.encode cursor.format ++ rest) :
    cursor.cut = .ok (frame.header, frame.encode cursor.format, rest) := by
  have hdecode := frame.decode_encode_append cursor.format rest
  have hsplit : cursor.rest.split? frame.header.size.toNat =
      some (⟨_, frame.length_encode cursor.format⟩, rest) := Bytes.split?_eq_some_iff.mpr h
  rw [← h] at hdecode
  simp only [cut, hdecode, frame.bodyLength_header, bind, Except.bind, hsplit]
  rfl

theorem cut_of_tail (h : cut? cursor.format cursor.rest = none) :
    cursor.cut = .error (breakage cursor.format cursor.offset cursor.rest) := by
  unfold cut breakage
  cases hdecode : Header.decode cursor.format.order cursor.rest with
  | error fault => rfl
  | ok header =>
    by_cases hsize : header.size.toNat < Header.length
    · simp [Header.bodyLength, hsize, bind, Except.bind]
    · have hshort := (cut?_eq_none_iff.mp h header hdecode).resolve_left hsize
      simp only [Header.bodyLength, hsize, bind, Except.bind, ↓reduceIte,
        Bytes.split?_eq_none_iff.mpr hshort]
      rfl

theorem next?_of_frame (hlive : cursor.finished = false)
    (h : cursor.rest = frame.encode cursor.format ++ rest) :
    cursor.next? = some (cursor.registry.decodeFrame cursor.format frame,
      { cursor with offset := cursor.offset + frame.size.toNat, rest }) := by
  have hne : cursor.rest.isEmpty = false := by
    have hsize := frame.headerLength_le_size
    rw [List.isEmpty_eq_false_iff, ← List.length_pos_iff, h, List.length_append,
      frame.length_encode]
    simp only [Header.length] at hsize
    omega
  rw [next?, hlive, hne, cut_of_frame h]
  simp [Registry.decodeFrame]

theorem next?_of_tail (hlive : cursor.finished = false) (hne : cursor.rest ≠ [])
    (h : cut? cursor.format cursor.rest = none) :
    cursor.next? = some (.error (breakage cursor.format cursor.offset cursor.rest),
      { cursor with finished := true }) := by
  rw [next?, hlive, List.isEmpty_eq_false_iff.mpr hne, cut_of_tail h]
  rfl

theorem walk_of_next?_eq_none (h : cursor.next? = none) : cursor.walk = [] := by
  rw [walk]
  split
  · rfl
  · rename_i hsome
    rw [h] at hsome
    cases hsome

theorem walk_of_next?_eq_some (h : cursor.next? = some (item, cursor')) :
    cursor.walk = (item, cursor') :: cursor'.walk := by
  rw [walk]
  split
  · rename_i hnone
    rw [h] at hnone
    cases hnone
  · rename_i hsome
    rw [h] at hsome
    cases hsome
    rfl

theorem last_of_next?_eq_none (h : cursor.next? = none) : cursor.last = cursor := by
  rw [last, walk_of_next?_eq_none h]
  rfl

theorem last_of_next?_eq_some (h : cursor.next? = some (item, cursor')) :
    cursor.last = cursor'.last := by
  rw [last, last, walk_of_next?_eq_some h, List.getLast?_cons]
  cases cursor'.walk.getLast? <;> rfl

theorem next?_of_finished (h : cursor.finished = true) : cursor.next? = none := by
  rw [next?, h]
  rfl

/-- Walking decodes frame after frame and ends at the tail behind them. -/
theorem walk_of_frames (cursor : Cursor) (frames : List Frame) (hlive : cursor.finished = false)
    (hrest : cursor.rest = join cursor.format frames ++ tail)
    (htail : cut? cursor.format tail = none) :
    cursor.items = frames.map (cursor.registry.decodeFrame cursor.format) ++
        ending cursor.format (cursor.offset + (join cursor.format frames).length) tail ∧
      cursor.last.offset = cursor.offset + (join cursor.format frames).length := by
  induction frames generalizing cursor with
  | nil =>
    rw [join_nil, List.nil_append] at hrest
    by_cases hne : tail = []
    · have hend : cursor.next? = none := by simp [next?, hrest, hne]
      simp [items, walk_of_next?_eq_none hend, last_of_next?_eq_none hend, ending, hne]
    · subst hrest
      have hnext := next?_of_tail hlive hne htail
      have hend := @next?_of_finished { cursor with finished := true } rfl
      simp [items, walk_of_next?_eq_some hnext, walk_of_next?_eq_none hend,
        last_of_next?_eq_some hnext, last_of_next?_eq_none hend, ending, hne]
  | cons frame frames ih =>
    rw [join_cons, List.append_assoc] at hrest
    have hnext := next?_of_frame hlive hrest
    obtain ⟨hitems, hlast⟩ := ih { cursor with
      offset := cursor.offset + frame.size.toNat, rest := join cursor.format frames ++ tail }
      hlive rfl htail
    simp only [items] at hitems
    rw [items, walk_of_next?_eq_some hnext, last_of_next?_eq_some hnext, List.map_cons, hitems,
      hlast, join_cons, List.length_append, frame.length_encode, Nat.add_assoc]
    exact ⟨rfl, rfl⟩

end Cursor

namespace Framing

/-- The items of a stream whose bytes from `offset` on are taken apart. -/
def items (framing : Framing) (format : WireFormat) (registry : Registry) (offset : Nat) :
    List (Except Fault Record) :=
  framing.frames.map (registry.decodeFrame format) ++
    ending format (offset + (join format framing.frames).length) framing.tail

theorem items_append (format : WireFormat) (registry : Registry) (offset : Nat)
    (frames : List Frame) (framing : Framing) :
    items ⟨frames ++ framing.frames, framing.tail⟩ format registry offset =
      frames.map (registry.decodeFrame format) ++
        framing.items format registry (offset + (join format frames).length) := by
  simp [items, Nat.add_assoc]

end Framing

namespace Cursor

/-- The items of a buffer are those of its frames, and a fault if a tail is left. -/
theorem items_ofBytes (format : WireFormat) (registry : Registry) (bytes : Bytes) :
    (ofBytes format registry bytes).items =
      (Framing.ofBytes format bytes).items format registry 0 := by
  obtain ⟨hbytes, htail⟩ := Framing.ofBytes_spec format bytes
  exact (walk_of_frames (ofBytes format registry bytes) _ rfl hbytes htail).1

theorem items_join (format : WireFormat) (registry : Registry) (frames : List Frame) :
    (ofBytes format registry (join format frames)).items =
      frames.map (registry.decodeFrame format) := by
  rw [items_ofBytes, Framing.ofBytes_join, Framing.items, ending, if_pos rfl, List.append_nil]

theorem offset_last_ofBytes (format : WireFormat) (registry : Registry) (bytes : Bytes) :
    (ofBytes format registry bytes).last.offset =
      (join format (Framing.ofBytes format bytes).frames).length := by
  obtain ⟨hbytes, htail⟩ := Framing.ofBytes_spec format bytes
  have h := (walk_of_frames (ofBytes format registry bytes) _ rfl hbytes htail).2
  rwa [ofBytes, Nat.zero_add] at h

end Cursor

end Stream

end ExporterRecords
