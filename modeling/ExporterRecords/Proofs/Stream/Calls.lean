import ExporterRecords.Proofs.Stream.Framing
import ExporterRecords.Stream.Framer

/-!
# Calls of a framer

A framer that remembers a header remembers the one at the front of its buffer, so its answer is
the same as if it had remembered nothing. A call takes the frame at the front of the buffer; where
there is none, it leaves the buffer and the offset as they were.
-/
namespace ExporterRecords

theorem Bytes.isNone_split? (n : Nat) (bs : Bytes) :
    (split? n bs).isNone = decide (bs.length < n) := by
  rw [Bool.eq_iff_iff, Option.isNone_iff_eq_none, split?_eq_none_iff, decide_eq_true_iff]

namespace Stream

open Stream.Frame

/-- What an answer adds to the items: nothing while the framer waits. -/
def Framer.Step.item? (step : Framer.Step) : Option (Except Fault Record) :=
  match step.result with
  | .ok none => none
  | .ok (some record) => some (.ok record)
  | .error fault => some (.error fault)

@[simp] theorem Framer.Step.item?_map_some (item : Except Fault Record) (framer : Framer)
    (buffer : Bytes) : Step.item? ⟨item.map some, framer, buffer⟩ = some item := by
  cases item <;> rfl

namespace Framer

variable {framer : Framer} {buffer rest : Bytes} {frame : Frame} {atEnd : Bool}

/-- One of the two ways to ask for the next record. -/
def call (atEnd : Bool) (framer : Framer) (buffer : Bytes) : Step :=
  if atEnd then framer.decodeEnd buffer else framer.decode buffer

/-- A header that is remembered counts itself in and stands at the front of the buffer. -/
def Remembers (framer : Framer) (buffer : Bytes) : Prop :=
  ∀ header, framer.header? = some header → Header.length ≤ header.size.toNat ∧
    Header.decode framer.format.order (buffer.take Header.length) = .ok header

theorem remembers_new (format : WireFormat) (registry : Registry) (buffer : Bytes) :
    (new format registry).Remembers buffer := by
  intro header h
  cases h

theorem Remembers.append (h : framer.Remembers buffer) (more : Bytes) :
    framer.Remembers (buffer ++ more) := by
  intro header hheader
  obtain ⟨hsize, hdecode⟩ := h header hheader
  rw [Header.decode_take_iff (Nat.le_refl _)] at hdecode
  exact ⟨hsize, (Header.decode_take_iff (Nat.le_refl _)).mpr (Header.decode_append hdecode more)⟩

/-- The framer without the header that it remembers. -/
def forget (framer : Framer) : Framer := { framer with header? := none }

@[simp] theorem format_forget (framer : Framer) : framer.forget.format = framer.format := rfl

/-- What is remembered can be read again from the buffer. -/
theorem decode_forget (h : framer.Remembers buffer) :
    framer.decode buffer = framer.forget.decode buffer := by
  cases hheader : framer.header? with
  | none => rw [forget, ← hheader]
  | some header =>
    obtain ⟨hsize, hdecode⟩ := h header hheader
    rw [Header.decode_take_iff (Nat.le_refl _)] at hdecode
    have hfront := Nat.not_lt.mpr (Header.length_le_of_decode hdecode)
    simp [decode, forget, hheader, Bytes.isNone_split?, hfront, hdecode, Header.bodyLength,
      Nat.not_lt.mpr hsize, takeRecord]

/-- The framer behind a frame. -/
def pass (framer : Framer) (frame : Frame) : Framer :=
  { framer with header? := none, offset := framer.offset + frame.size.toNat }

@[simp] theorem format_pass (framer : Framer) (frame : Frame) :
    (framer.pass frame).format = framer.format := rfl

@[simp] theorem registry_pass (framer : Framer) (frame : Frame) :
    (framer.pass frame).registry = framer.registry := rfl

@[simp] theorem offset_pass (framer : Framer) (frame : Frame) :
    (framer.pass frame).offset = framer.offset + frame.size.toNat := rfl

theorem remembers_pass (framer : Framer) (frame : Frame) (buffer : Bytes) :
    (framer.pass frame).Remembers buffer := by
  intro header h
  cases h

theorem lt_offset_pass (framer : Framer) (frame : Frame) :
    framer.offset < (framer.pass frame).offset := by
  have := frame.headerLength_le_size
  simp only [Header.length] at this
  rw [offset_pass]
  omega

theorem takeRecord_of_frame (framer : Framer)
    (h : buffer = frame.encode framer.format ++ rest) :
    framer.takeRecord frame.header buffer =
      ⟨(framer.registry.decodeFrame framer.format frame).map some, framer.pass frame, rest⟩ := by
  have hsplit : Bytes.split? frame.header.size.toNat buffer =
      some (⟨_, frame.length_encode framer.format⟩, rest) := Bytes.split?_eq_some_iff.mpr h
  rw [takeRecord, hsplit]
  rfl

theorem decode_of_frame (hmem : framer.Remembers buffer)
    (h : buffer = frame.encode framer.format ++ rest) :
    framer.decode buffer =
      ⟨(framer.registry.decodeFrame framer.format frame).map some, framer.pass frame, rest⟩ := by
  have hdecode : Header.decode framer.format.order buffer = .ok frame.header :=
    h ▸ frame.decode_encode_append framer.format rest
  have hfront := Nat.not_lt.mpr (Header.length_le_of_decode hdecode)
  have htake := takeRecord_of_frame framer.forget h
  rw [decode_forget hmem]
  simpa [decode, forget, Bytes.isNone_split?, hfront, hdecode, frame.bodyLength_header,
    pass] using htake

/-- The header that a framer remembers while it waits for the rest of a record. -/
def pending? (format : WireFormat) (buffer : Bytes) : Option Header :=
  match Header.decode format.order buffer with
  | .error _ => none
  | .ok header => if header.size.toNat < Header.length then none else some header

/-- The framer that waits for more bytes behind a buffer without a frame. -/
def wait (framer : Framer) (buffer : Bytes) : Framer :=
  { framer with header? := pending? framer.format buffer }

@[simp] theorem format_wait (framer : Framer) (buffer : Bytes) :
    (framer.wait buffer).format = framer.format := rfl

@[simp] theorem registry_wait (framer : Framer) (buffer : Bytes) :
    (framer.wait buffer).registry = framer.registry := rfl

@[simp] theorem offset_wait (framer : Framer) (buffer : Bytes) :
    (framer.wait buffer).offset = framer.offset := rfl

theorem remembers_wait (framer : Framer) (buffer : Bytes) :
    (framer.wait buffer).Remembers buffer := by
  intro header h
  simp only [wait, pending?] at h
  split at h
  · cases h
  · rename_i hdecode
    split at h
    · cases h
    · rename_i hsize
      cases h
      exact ⟨Nat.le_of_not_lt hsize, (Header.decode_take_iff (Nat.le_refl _)).mpr hdecode⟩

/-- Whether a call on a buffer that starts with no frame is a fault and not a pause: no bytes can
help, or no bytes will come. -/
def stalls (atEnd : Bool) (format : WireFormat) (buffer : Bytes) : Bool :=
  isImpossible format buffer || (atEnd && !buffer.isEmpty)

/-- The answer of a call on a buffer that starts with no frame. -/
def stall (atEnd : Bool) (format : WireFormat) (offset : Nat) (buffer : Bytes) :
    Except Fault (Option Record) :=
  if stalls atEnd format buffer then .error (breakage format offset buffer) else .ok none

theorem decode_of_tail (hmem : framer.Remembers buffer)
    (h : cut? framer.format buffer = none) :
    framer.decode buffer =
      ⟨stall false framer.format framer.offset buffer, framer.wait buffer, buffer⟩ := by
  rw [decode_forget hmem]
  cases hdecode : Header.decode framer.format.order buffer with
  | error fault =>
    have hfront := (Header.decode_eq_error_iff.mp hdecode).1
    simp [decode, forget, Bytes.isNone_split?, hfront, stall, stalls, isImpossible, wait, pending?,
      hdecode]
  | ok header =>
    have hfront := Nat.not_lt.mpr (Header.length_le_of_decode hdecode)
    by_cases hsize : header.size.toNat < Header.length
    · simp [decode, forget, Bytes.isNone_split?, hfront, hdecode, Header.bodyLength, hsize, stall,
        stalls, isImpossible, breakage, wait, pending?]
    · have hshort := (cut?_eq_none_iff.mp h header hdecode).resolve_left hsize
      simp [decode, forget, Bytes.isNone_split?, hfront, hdecode, Header.bodyLength, hsize, stall,
        stalls, isImpossible, wait, pending?, takeRecord, Bytes.split?_eq_none_iff.mpr hshort]

theorem decodeEnd_of_tail (hmem : framer.Remembers buffer)
    (h : cut? framer.format buffer = none) :
    framer.decodeEnd buffer =
      ⟨stall true framer.format framer.offset buffer, framer.wait buffer, buffer⟩ := by
  rw [decodeEnd, decode_of_tail hmem h]
  cases hdecode : Header.decode framer.format.order buffer with
  | error fault =>
    have hfault := (Header.decode_eq_error_iff.mp hdecode).2
    cases buffer <;> simp [stall, stalls, isImpossible, breakage, wait, pending?, hdecode, hfault]
  | ok header =>
    have hne : buffer.isEmpty = false := by
      have := Header.length_le_of_decode hdecode
      cases buffer with
      | nil => cases this
      | cons _ _ => rfl
    by_cases hsize : header.size.toNat < Header.length
    · simp [stall, stalls, isImpossible, breakage, wait, pending?, hdecode, hsize]
    · simp [stall, stalls, isImpossible, breakage, wait, pending?, hdecode, hsize, hne]

/-- A call takes the frame at the front of the buffer. -/
theorem call_of_frame (atEnd : Bool) (hmem : framer.Remembers buffer)
    (h : buffer = frame.encode framer.format ++ rest) :
    framer.call atEnd buffer =
      ⟨(framer.registry.decodeFrame framer.format frame).map some, framer.pass frame, rest⟩ := by
  have hstep := decode_of_frame hmem h
  cases atEnd with
  | false => exact hstep
  | true =>
    rw [call, if_pos rfl, decodeEnd, hstep]
    cases framer.registry.decodeFrame framer.format frame <;> rfl

/-- Where there is no frame, a call changes nothing but the header that it remembers. -/
theorem call_of_tail (atEnd : Bool) (hmem : framer.Remembers buffer)
    (h : cut? framer.format buffer = none) :
    framer.call atEnd buffer =
      ⟨stall atEnd framer.format framer.offset buffer, framer.wait buffer, buffer⟩ := by
  cases atEnd with
  | false => exact decode_of_tail hmem h
  | true => exact decodeEnd_of_tail hmem h

theorem framer_decodeEnd (framer : Framer) (buffer : Bytes) :
    (framer.decodeEnd buffer).framer = (framer.decode buffer).framer ∧
      (framer.decodeEnd buffer).buffer = (framer.decode buffer).buffer := by
  unfold decodeEnd
  dsimp only
  repeat' split
  all_goals exact ⟨rfl, rfl⟩

theorem offset_add_length_takeRecord (framer : Framer) (header : Header) (buffer : Bytes) :
    (framer.takeRecord header buffer).framer.offset +
        (framer.takeRecord header buffer).buffer.length = framer.offset + buffer.length := by
  unfold takeRecord
  split
  · rfl
  · rename_i span rest hsplit
    have hlength := congrArg List.length (Bytes.split?_eq_some_iff.mp hsplit)
    rw [List.length_append, span.2] at hlength
    simp only
    omega

/-- What a call takes off the buffer is what it adds to the offset. -/
theorem offset_add_length_call (atEnd : Bool) (framer : Framer) (buffer : Bytes) :
    (framer.call atEnd buffer).framer.offset + (framer.call atEnd buffer).buffer.length =
      framer.offset + buffer.length := by
  have hdecode : (framer.decode buffer).framer.offset + (framer.decode buffer).buffer.length =
      framer.offset + buffer.length := by
    unfold decode
    repeat' split
    all_goals first | rfl | exact offset_add_length_takeRecord ..
  obtain ⟨hframer, hbuffer⟩ := framer_decodeEnd framer buffer
  cases atEnd with
  | false => exact hdecode
  | true => rw [call, if_pos rfl, hframer, hbuffer, hdecode]

/-- After a call, too, the header that is remembered stands at the front of the buffer. -/
theorem remembers_call (atEnd : Bool) (hmem : framer.Remembers buffer) :
    (framer.call atEnd buffer).framer.Remembers (framer.call atEnd buffer).buffer := by
  cases hcut : cut? framer.format buffer with
  | none =>
    rw [call_of_tail atEnd hmem hcut]
    exact framer.remembers_wait buffer
  | some cut =>
    obtain ⟨frame, rest⟩ := cut
    rw [call_of_frame atEnd hmem (cut?_eq_some_iff.mp hcut)]
    exact framer.remembers_pass frame rest

theorem call_forget (atEnd : Bool) (hmem : framer.Remembers buffer) :
    framer.call atEnd buffer = framer.forget.call atEnd buffer := by
  cases atEnd with
  | false => exact decode_forget hmem
  | true =>
    rw [call, call, if_pos rfl, if_pos rfl, decodeEnd, decodeEnd, decode_forget hmem]

end Framer

end Stream

end ExporterRecords
