import ExporterRecords.Proofs.Stream.Calls

/-!
# Reading in chunks

A caller appends the chunks of a stream to the buffer one by one, takes all records that are there
after each of them, and asks for the end after the last. However the stream is cut into chunks, the
items are those of a cursor over the whole of it.
-/
namespace ExporterRecords.Stream

open Stream.Frame

namespace Framer

/-- What a caller has seen: the items so far, and whether the last one stopped the work. -/
structure Recording where
  items : List (Except Fault Record)
  framer : Framer
  buffer : Bytes
  stopped : Bool
  /-- The chunks that were never appended. -/
  unread : List Bytes

/-- Puts the items of earlier calls in front. -/
def Recording.after (items : List (Except Fault Record)) (recording : Recording) : Recording :=
  { recording with items := items ++ recording.items }

/-- Calls until the framer has nothing to say, or says something without moving on. A record always
moves it on, so only a fault stops the work. -/
def drain (atEnd : Bool) (framer : Framer) (buffer : Bytes) : Recording :=
  match (framer.call atEnd buffer).item? with
  | none => ⟨[], (framer.call atEnd buffer).framer, (framer.call atEnd buffer).buffer, false, []⟩
  | some item =>
    if _h : framer.offset < (framer.call atEnd buffer).framer.offset then
      (drain atEnd (framer.call atEnd buffer).framer (framer.call atEnd buffer).buffer).after [item]
    else
      ⟨[item], (framer.call atEnd buffer).framer, (framer.call atEnd buffer).buffer, true, []⟩
termination_by buffer.length
decreasing_by
  have := offset_add_length_call atEnd framer buffer
  omega

/-- Appends chunk after chunk and drains the buffer each time. -/
def feed (framer : Framer) (buffer : Bytes) : List Bytes → Recording
  | [] => framer.drain true buffer
  | chunk :: chunks =>
    let recording := framer.drain false (buffer ++ chunk)
    if recording.stopped then { recording with unread := chunks }
    else (feed recording.framer recording.buffer chunks).after recording.items

/-- A new framer on a stream that comes in chunks. -/
def drive (format : WireFormat) (registry : Registry) (chunks : List Bytes) : Recording :=
  (new format registry).feed [] chunks

theorem drain_of_tail (atEnd : Bool) {framer : Framer} {tail : Bytes}
    (hmem : framer.Remembers tail) (htail : cut? framer.format tail = none) :
    framer.drain atEnd tail =
      ⟨if stalls atEnd framer.format tail then
          [.error (breakage framer.format framer.offset tail)] else [],
        framer.wait tail, tail, stalls atEnd framer.format tail, []⟩ := by
  rw [drain, call_of_tail atEnd hmem htail]
  by_cases hstalls : stalls atEnd framer.format tail = true
  · simp [Step.item?, stall, hstalls, wait]
  · simp [Step.item?, stall, hstalls]

theorem drain_of_frame (atEnd : Bool) {framer : Framer} {frame : Frame} {buffer rest : Bytes}
    (hmem : framer.Remembers buffer) (hbuffer : buffer = frame.encode framer.format ++ rest) :
    framer.drain atEnd buffer = ((framer.pass frame).drain atEnd rest).after
      [framer.registry.decodeFrame framer.format frame] := by
  rw [drain, call_of_frame atEnd hmem hbuffer, Step.item?_map_some]
  exact dif_pos (framer.lt_offset_pass frame)

@[simp] theorem format_foldl_pass (framer : Framer) (frames : List Frame) :
    (frames.foldl pass framer).format = framer.format := by
  induction frames generalizing framer with
  | nil => rfl
  | cons frame frames ih => exact ih _

@[simp] theorem registry_foldl_pass (framer : Framer) (frames : List Frame) :
    (frames.foldl pass framer).registry = framer.registry := by
  induction frames generalizing framer with
  | nil => rfl
  | cons frame frames ih => exact ih _

@[simp] theorem offset_foldl_pass (framer : Framer) (frames : List Frame) :
    (frames.foldl pass framer).offset =
      framer.offset + (join framer.format frames).length := by
  induction frames generalizing framer with
  | nil => rfl
  | cons frame frames ih =>
    rw [List.foldl_cons, ih, join_cons, List.length_append, frame.length_encode, ← Nat.add_assoc]
    rfl

/-- Draining decodes frame after frame up to the tail. -/
theorem drain_of_frames (atEnd : Bool) (frames : List Frame) {framer : Framer}
    {buffer tail : Bytes} (hmem : framer.Remembers buffer)
    (hbuffer : buffer = join framer.format frames ++ tail)
    (htail : cut? framer.format tail = none) :
    framer.drain atEnd buffer =
      ⟨frames.map (framer.registry.decodeFrame framer.format) ++
          if stalls atEnd framer.format tail then [.error (breakage framer.format
            (framer.offset + (join framer.format frames).length) tail)] else [],
        (frames.foldl pass framer).wait tail, tail, stalls atEnd framer.format tail, []⟩ := by
  induction frames generalizing framer buffer with
  | nil =>
    rw [join_nil, List.nil_append] at hbuffer
    subst hbuffer
    rw [drain_of_tail atEnd hmem htail]
    rfl
  | cons frame frames ih =>
    rw [join_cons, List.append_assoc] at hbuffer
    have hrest := @ih (framer.pass frame) _ (framer.remembers_pass frame _) rfl htail
    rw [format_pass] at hrest
    rw [drain_of_frame atEnd hmem hbuffer, hrest]
    simp [Recording.after, Nat.add_assoc]

theorem ending_eq (format : WireFormat) (offset : Nat) (tail : Bytes) :
    ending format offset tail =
      if stalls true format tail then [.error (breakage format offset tail)] else [] := by
  cases tail with
  | nil => simp [ending, stalls]
  | cons _ _ => simp [ending, stalls]

theorem ending_of_isImpossible {format : WireFormat} {tail : Bytes} (offset : Nat)
    (h : isImpossible format tail = true) (more : Bytes) :
    ending format offset (tail ++ more) = [.error (breakage format offset tail)] := by
  rw [ending_eq, stalls, isImpossible_append h more, breakage_of_isImpossible h more offset offset]
  rfl

/-- Feeding finds the items of everything that is in the buffer or still to come. -/
theorem feed_spec (chunks : List Bytes) {framer : Framer} {buffer : Bytes}
    (hmem : framer.Remembers buffer) :
    (framer.feed buffer chunks).items =
        (Framing.ofBytes framer.format (buffer ++ chunks.flatten)).items
          framer.format framer.registry framer.offset ∧
      (framer.feed buffer chunks).framer.offset = framer.offset + (join framer.format
        (Framing.ofBytes framer.format (buffer ++ chunks.flatten)).frames).length := by
  induction chunks generalizing framer buffer with
  | nil =>
    obtain ⟨hbuffer, htail⟩ := Framing.ofBytes_spec framer.format buffer
    rw [feed, drain_of_frames true _ hmem hbuffer htail, List.flatten_nil, List.append_nil]
    simp [Framing.items, ending_eq]
  | cons chunk chunks ih =>
    obtain ⟨hbuffer, htail⟩ := Framing.ofBytes_spec framer.format (buffer ++ chunk)
    have hdrain := drain_of_frames false _ (hmem.append chunk) hbuffer htail
    generalize (Framing.ofBytes framer.format (buffer ++ chunk)).frames = frames at *
    generalize (Framing.ofBytes framer.format (buffer ++ chunk)).tail = tail at *
    have hall : Framing.ofBytes framer.format (buffer ++ (chunk :: chunks).flatten) =
        ⟨frames ++ (Framing.ofBytes framer.format (tail ++ chunks.flatten)).frames,
          (Framing.ofBytes framer.format (tail ++ chunks.flatten)).tail⟩ := by
      rw [List.flatten_cons, ← List.append_assoc, hbuffer, List.append_assoc,
        Framing.ofBytes_join_append]
    rw [feed, hdrain, hall, Framing.items_append]
    -- Either the chunks to come cannot mend the tail, or they continue it.
    by_cases hstop : isImpossible framer.format tail = true
    · have hrest := Framing.ofBytes_of_cut?_eq_none
        (cut?_of_isImpossible (isImpossible_append hstop chunks.flatten))
      simp [stalls, hstop, hrest, Framing.items, ending_of_isImpossible]
    · obtain ⟨hitems, hoffset⟩ := ih (remembers_wait (frames.foldl pass framer) tail)
      simp only [format_wait, registry_wait, offset_wait, format_foldl_pass, registry_foldl_pass,
        offset_foldl_pass] at hitems hoffset
      simp [stalls, hstop, Recording.after, hitems, hoffset, Nat.add_assoc]

theorem getLast?_after {items : List (Except Fault Record)} {recording : Recording}
    {item : Except Fault Record} (h : recording.items.getLast? = some item) :
    (recording.after items).items.getLast? = some item := by
  rw [Recording.after, List.getLast?_append, h]
  rfl

/-- Only a fault stops the work, and before the end is announced only an impossible header does. -/
theorem feed_stopped (chunks : List Bytes) {framer : Framer} {buffer : Bytes}
    (hmem : framer.Remembers buffer) :
    ((framer.feed buffer chunks).stopped = true →
        ∃ fault, (framer.feed buffer chunks).items.getLast? = some (.error fault)) ∧
      ((framer.feed buffer chunks).unread ≠ [] →
        ∃ recordType size : UInt16, size.toNat < Header.length ∧
          (framer.feed buffer chunks).items.getLast? =
            some (.error (.invalidSize recordType size Header.length))) := by
  induction chunks generalizing framer buffer with
  | nil =>
    obtain ⟨hbuffer, htail⟩ := Framing.ofBytes_spec framer.format buffer
    rw [feed, drain_of_frames true _ hmem hbuffer htail]
    refine ⟨fun hstop => ?_, fun hunread => absurd rfl hunread⟩
    dsimp only at hstop
    exact ⟨_, by rw [hstop, if_pos rfl, List.getLast?_concat]⟩
  | cons chunk chunks ih =>
    obtain ⟨hbuffer, htail⟩ := Framing.ofBytes_spec framer.format (buffer ++ chunk)
    rw [feed, drain_of_frames false _ (hmem.append chunk) hbuffer htail]
    generalize (Framing.ofBytes framer.format (buffer ++ chunk)).frames = frames
    generalize (Framing.ofBytes framer.format (buffer ++ chunk)).tail = tail
    by_cases hstop : stalls false framer.format tail = true
    · have himpossible : isImpossible framer.format tail = true := by simpa [stalls] using hstop
      obtain ⟨recordType, size, hsize, hfault⟩ := breakage_eq_invalidSize himpossible
        (framer.offset + (join framer.format frames).length)
      simp only [hstop, ↓reduceIte, hfault, List.getLast?_concat]
      exact ⟨fun _ => ⟨_, rfl⟩, fun _ => ⟨recordType, size, hsize, rfl⟩⟩
    · obtain ⟨hfault, hsize⟩ := ih (remembers_wait (frames.foldl pass framer) tail)
      rw [if_neg hstop, if_neg hstop]
      constructor
      · intro h
        obtain ⟨fault, hlast⟩ := hfault h
        exact ⟨fault, getLast?_after hlast⟩
      · intro h
        obtain ⟨recordType, size, hlt, hlast⟩ := hsize h
        exact ⟨recordType, size, hlt, getLast?_after hlast⟩

/-- However a stream is cut into chunks, the items and the offset at the end are those of a cursor
over the whole stream; if chunks are left unread, the last item is a header of impossible size. -/
theorem drive_eq_cursor (format : WireFormat) (registry : Registry) (chunks : List Bytes) :
    let recording := drive format registry chunks
    let cursor := Cursor.ofBytes format registry chunks.flatten
    recording.items = cursor.items ∧ recording.framer.offset = cursor.last.offset ∧
      (recording.stopped = true →
        ∃ fault, recording.items.getLast? = some (.error fault)) ∧
      (recording.unread ≠ [] → ∃ recordType size : UInt16, size.toNat < Header.length ∧
        recording.items.getLast? = some (.error (.invalidSize recordType size Header.length))) := by
  have hmem := remembers_new format registry []
  obtain ⟨hitems, hoffset⟩ := feed_spec chunks hmem
  obtain ⟨hstopped, hunread⟩ := feed_stopped chunks hmem
  refine ⟨?_, ?_, hstopped, hunread⟩
  · rw [Cursor.items_ofBytes]
    exact hitems
  · rw [Cursor.offset_last_ofBytes]
    exact hoffset.trans (Nat.zero_add _)

end Framer

end ExporterRecords.Stream
