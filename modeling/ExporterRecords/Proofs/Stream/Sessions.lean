import ExporterRecords.Proofs.Stream.Calls

/-!
# Calls in any order

A caller may append bytes, ask for records, announce the end too early and write records of its
own, in any order. At every point the buffer holds what was appended and not yet taken, and the
results that moved the framer on are the first items of a cursor over everything appended.
-/
namespace ExporterRecords.Stream

open Stream.Frame

inductive Call where
  | feed (bytes : Bytes)
  | decode (atEnd : Bool)
  | encode (record : Record)

namespace Call

/-- What a call appends to the incoming bytes. -/
def bytes : Call → Bytes
  | feed bytes => bytes
  | _ => []

@[simp] theorem bytes_feed (bytes : Bytes) : (feed bytes).bytes = bytes := rfl

@[simp] theorem bytes_decode (atEnd : Bool) : (decode atEnd).bytes = [] := rfl

@[simp] theorem bytes_encode (record : Record) : (encode record).bytes = [] := rfl

/-- Everything that the calls append, in order. -/
def fed (calls : List Call) : Bytes := calls.flatMap bytes

end Call

inductive Reply where
  | fed
  | decoded (result : Except Fault (Option Record))
  | encoded (result : Except Fault Unit)

/-- A framer with its incoming and its outgoing buffer. -/
structure Session where
  framer : Framer
  buffer : Bytes
  out : Bytes

namespace Session

variable {session other : Session} {call : Call} {calls : List Call}

def new (format : WireFormat) (registry : Registry) : Session := ⟨.new format registry, [], []⟩

def perform (session : Session) : Call → Reply × Session
  | .feed bytes => (.fed, { session with buffer := session.buffer ++ bytes })
  | .decode atEnd =>
    let step := session.framer.call atEnd session.buffer
    (.decoded step.result, { session with framer := step.framer, buffer := step.buffer })
  | .encode record =>
    let (result, out) := session.framer.encode record session.out
    (.encoded result, { session with out })

/-- The session after several calls. -/
def run (session : Session) (calls : List Call) : Session :=
  calls.foldl (fun session call => (session.perform call).2) session

def replies (session : Session) : List Call → List Reply
  | [] => []
  | call :: calls => (session.perform call).1 :: (session.perform call).2.replies calls

/-- The result of a call, if the call moves the framer on. -/
def gain (session : Session) (call : Call) : List (Except Fault (Option Record)) :=
  match session.perform call with
  | (.decoded result, after) => if session.framer.offset < after.framer.offset then [result] else []
  | _ => []

/-- The results of those calls that move the framer on. -/
def gains (session : Session) : List Call → List (Except Fault (Option Record))
  | [] => []
  | call :: calls => session.gain call ++ (session.perform call).2.gains calls

/-- What ties a session to the bytes appended so far and to the results that moved it on: whole
frames were taken, in order, and the rest is in the buffer. -/
structure Tracks (format : WireFormat) (registry : Registry) (fed : Bytes)
    (gains : List (Except Fault (Option Record))) (session : Session) : Prop where
  format_eq : session.framer.format = format
  registry_eq : session.framer.registry = registry
  remembers : session.framer.Remembers session.buffer
  framed : ∃ frames, fed = join format frames ++ session.buffer ∧
    session.framer.offset = (join format frames).length ∧
    gains = frames.map fun frame => (registry.decodeFrame format frame).map some

section Invariant

variable {format : WireFormat} {registry : Registry} {fed : Bytes}
  {gained : List (Except Fault (Option Record))}

theorem tracks_new (format : WireFormat) (registry : Registry) :
    Tracks format registry [] [] (new format registry) :=
  ⟨rfl, rfl, Framer.remembers_new format registry [], [], rfl, rfl, rfl⟩

theorem gain_of_frame {frame : Frame} {rest : Bytes} {atEnd : Bool}
    (hmem : session.framer.Remembers session.buffer)
    (h : session.buffer = frame.encode session.framer.format ++ rest) :
    session.gain (.decode atEnd) =
      [(session.framer.registry.decodeFrame session.framer.format frame).map some] := by
  have hmoves := session.framer.lt_offset_pass frame
  simp only [gain, perform, Framer.call_of_frame atEnd hmem h]
  exact if_pos hmoves

theorem gain_of_tail {atEnd : Bool} (hmem : session.framer.Remembers session.buffer)
    (h : cut? session.framer.format session.buffer = none) :
    session.gain (.decode atEnd) = [] := by
  simp only [gain, perform, Framer.call_of_tail atEnd hmem h]
  exact if_neg (Nat.lt_irrefl _)

/-- A call keeps the session on the track of what was appended. -/
theorem Tracks.perform (h : Tracks format registry fed gained session) (call : Call) :
    Tracks format registry (fed ++ call.bytes) (gained ++ session.gain call)
      (session.perform call).2 := by
  obtain ⟨hformat, hregistry, hmem, frames, hfed, hoffset, hgained⟩ := h
  cases call with
  | feed bytes =>
    refine ⟨hformat, hregistry, hmem.append bytes, frames, ?_, hoffset, ?_⟩
    · rw [hfed, List.append_assoc]
      rfl
    · rw [hgained]
      exact List.append_nil _
  | encode record =>
    refine ⟨hformat, hregistry, hmem, frames, ?_, hoffset, ?_⟩
    · rw [hfed]
      exact List.append_nil _
    · rw [hgained]
      exact List.append_nil _
  | decode atEnd =>
    cases hcut : cut? session.framer.format session.buffer with
    | none =>
      have hcall := Framer.call_of_tail atEnd hmem hcut
      rw [gain_of_tail hmem hcut, List.append_nil, Call.bytes_decode, List.append_nil]
      simp only [Session.perform, hcall]
      exact ⟨hformat, hregistry, session.framer.remembers_wait session.buffer, frames, hfed,
        hoffset, hgained⟩
    | some cut =>
      obtain ⟨frame, rest⟩ := cut
      rw [cut?_eq_some_iff] at hcut
      have hcall := Framer.call_of_frame atEnd hmem hcut
      rw [gain_of_frame hmem hcut, Call.bytes_decode, List.append_nil]
      simp only [Session.perform, hcall]
      refine ⟨hformat, hregistry, session.framer.remembers_pass frame rest, frames ++ [frame],
        ?_, ?_, ?_⟩
      · rw [hfed, hcut, hformat, join_append, join_cons, join_nil, List.append_nil,
          List.append_assoc]
      · rw [Framer.offset_pass, hoffset, join_append, join_cons, join_nil, List.append_nil,
          List.length_append, frame.length_encode]
      · rw [hgained, List.map_append, hformat, hregistry]
        rfl

theorem Tracks.run (h : Tracks format registry fed gained session) (calls : List Call) :
    Tracks format registry (fed ++ Call.fed calls) (gained ++ session.gains calls)
      (session.run calls) := by
  induction calls generalizing session fed gained with
  | nil => simpa [Call.fed, gains, Session.run] using h
  | cons call calls ih => simpa [Call.fed, gains, Session.run] using ih (h.perform call)

theorem tracks_run (format : WireFormat) (registry : Registry) (calls : List Call) :
    Tracks format registry (Call.fed calls) ((new format registry).gains calls)
      ((new format registry).run calls) := by
  have h := (tracks_new format registry).run calls
  rwa [List.nil_append, List.nil_append] at h

/-- The buffer is what was appended and not yet taken. -/
theorem Tracks.buffer_eq (h : Tracks format registry fed gained session) :
    session.framer.offset ≤ fed.length ∧ session.buffer = fed.drop session.framer.offset := by
  obtain ⟨frames, hfed, hoffset, -⟩ := h.framed
  rw [hfed, hoffset, List.length_append, List.drop_left]
  exact ⟨Nat.le_add_right .., rfl⟩

theorem Tracks.gains_eq (h : Tracks format registry fed gained session) :
    (Cursor.ofBytes format registry fed).items.map (Except.map some) = gained ++
      ((Framing.ofBytes format session.buffer).items format registry session.framer.offset).map
        (Except.map some) := by
  obtain ⟨frames, hfed, hoffset, hgained⟩ := h.framed
  rw [Cursor.items_ofBytes, hfed, Framing.ofBytes_join_append, Framing.items_append,
    List.map_append, List.map_map, hgained, hoffset, Nat.zero_add]
  rfl

end Invariant

/-- The session without the header that its framer remembers. -/
def forget (session : Session) : Session := { session with framer := session.framer.forget }

theorem perform_congr (hmem : session.framer.Remembers session.buffer)
    (hmem' : other.framer.Remembers other.buffer) (h : session.forget = other.forget)
    (call : Call) : (session.perform call).1 = (other.perform call).1 ∧
      (session.perform call).2.forget = (other.perform call).2.forget := by
  simp only [forget, Session.mk.injEq] at h
  obtain ⟨hframer, hbuffer, hout⟩ := h
  cases call with
  | feed bytes => simp [perform, forget, hframer, hbuffer, hout]
  | encode record =>
    have hformat : session.framer.format = other.framer.format := by
      simpa using congrArg Framer.format hframer
    simp [perform, forget, hframer, hbuffer, hout, Framer.encode, hformat]
  | decode atEnd =>
    have hcall : session.framer.call atEnd session.buffer =
        other.framer.call atEnd other.buffer := by
      rw [Framer.call_forget atEnd hmem, Framer.call_forget atEnd hmem', hframer, hbuffer]
    simp [perform, forget, hcall, hout]

theorem remembers_perform (hmem : session.framer.Remembers session.buffer) (call : Call) :
    (session.perform call).2.framer.Remembers (session.perform call).2.buffer := by
  cases call with
  | feed bytes => exact hmem.append bytes
  | encode record => exact hmem
  | decode atEnd => exact Framer.remembers_call atEnd hmem

/-- What a framer remembers of its buffer shows in none of its answers. -/
theorem replies_congr (hmem : session.framer.Remembers session.buffer)
    (hmem' : other.framer.Remembers other.buffer) (h : session.forget = other.forget)
    (calls : List Call) : session.replies calls = other.replies calls := by
  induction calls generalizing session other with
  | nil => rfl
  | cons call calls ih =>
    obtain ⟨hreply, hafter⟩ := perform_congr hmem hmem' h call
    rw [replies, replies, hreply,
      ih (remembers_perform hmem call) (remembers_perform hmem' call) hafter]

theorem perform_of_tail {atEnd : Bool} (hmem : session.framer.Remembers session.buffer)
    (h : cut? session.framer.format session.buffer = none) :
    session.perform (.decode atEnd) =
      (.decoded (Framer.stall atEnd session.framer.format session.framer.offset session.buffer),
        { session with framer := session.framer.wait session.buffer }) := by
  simp only [perform, Framer.call_of_tail atEnd hmem h]

/-- There is no frame where a request brings nothing, or a fault without moving on. -/
theorem cut?_of_idle {atEnd : Bool} {result : Except Fault (Option Record)}
    (hmem : session.framer.Remembers session.buffer)
    (hreply : (session.perform (.decode atEnd)).1 = .decoded result)
    (hidle : result = .ok none ∨
      (session.perform (.decode atEnd)).2.framer.offset = session.framer.offset) :
    cut? session.framer.format session.buffer = none := by
  cases hcut : cut? session.framer.format session.buffer with
  | none => rfl
  | some cut =>
    obtain ⟨frame, rest⟩ := cut
    have hcall := Framer.call_of_frame atEnd hmem (cut?_eq_some_iff.mp hcut)
    have hmoves := session.framer.lt_offset_pass frame
    simp only [perform, hcall, Reply.decoded.injEq] at hreply hidle
    rcases hidle with hnone | hoffset
    · rw [hnone] at hreply
      cases hdecode : session.framer.registry.decodeFrame session.framer.format frame <;>
        rw [hdecode] at hreply <;> cases hreply
    · omega

/-- Such a request changes neither the buffer nor the offset nor any later reply. -/
theorem replies_of_idle {atEnd : Bool} {result : Except Fault (Option Record)}
    (hmem : session.framer.Remembers session.buffer)
    (hreply : (session.perform (.decode atEnd)).1 = .decoded result)
    (hidle : result = .ok none ∨
      (session.perform (.decode atEnd)).2.framer.offset = session.framer.offset) :
    let after := (session.perform (.decode atEnd)).2
    after.buffer = session.buffer ∧ after.framer.offset = session.framer.offset ∧
      ∀ later, after.replies later = session.replies later := by
  rw [perform_of_tail hmem (cut?_of_idle hmem hreply hidle)]
  have hforget : forget { session with framer := session.framer.wait session.buffer } =
      session.forget := rfl
  refine ⟨rfl, rfl, fun later => replies_congr ?_ hmem hforget later⟩
  exact session.framer.remembers_wait session.buffer

theorem stall_true_eq_ok_none_iff {format : WireFormat} {offset : Nat} {buffer : Bytes} :
    Framer.stall true format offset buffer = .ok none ↔ buffer = [] := by
  cases buffer with
  | nil => simp [Framer.stall, Framer.stalls]
  | cons byte bytes => simp [Framer.stall, Framer.stalls]

/-- The end is confirmed where the buffer is empty, and only there. -/
theorem confirms_end_iff (hmem : session.framer.Remembers session.buffer) :
    (session.perform (.decode true)).1 = .decoded (.ok none) ↔ session.buffer = [] := by
  constructor
  · intro h
    rw [perform_of_tail hmem (cut?_of_idle hmem h (.inl rfl)), Reply.decoded.injEq] at h
    exact stall_true_eq_ok_none_iff.mp h
  · intro h
    have hcut : cut? session.framer.format session.buffer = none := by
      rw [h]
      rfl
    rw [perform_of_tail hmem hcut, Reply.decoded.injEq]
    exact stall_true_eq_ok_none_iff.mpr h

theorem perform_encode_error {record : Record} {fault : Fault}
    (h : (session.perform (.encode record)).1 = .encoded (.error fault)) :
    (session.perform (.encode record)).2 = session := by
  simp only [perform, Framer.encode] at h ⊢
  cases hencode : record.encode session.framer.format with
  | error fault => rfl
  | ok bytes =>
    rw [hencode] at h
    cases h

/-- In whatever order a session is used, no byte and no record is lost, doubled or moved: the
buffer is the end of what was appended, a header that is remembered stands at its front, and the
results that moved the framer on are the first items of a cursor. A request without a result, like
a fault on the spot, has no effect on anything that comes later, and the end is confirmed exactly
where everything was taken. -/
theorem run_keeps_stream (format : WireFormat) (registry : Registry) (calls : List Call) :
    let session := (new format registry).run calls
    let gains := (new format registry).gains calls
    let cursor := Cursor.ofBytes format registry (Call.fed calls)
    (session.framer.offset ≤ (Call.fed calls).length ∧
      session.buffer = (Call.fed calls).drop session.framer.offset) ∧
    (∀ header, session.framer.header? = some header → Header.length ≤ header.size.toNat ∧
      Header.decode format.order (session.buffer.take Header.length) = .ok header) ∧
    gains <+: cursor.items.map (Except.map some) ∧
    (∀ atEnd result, (session.perform (.decode atEnd)).1 = .decoded result →
      (result = .ok none ∨
        (session.perform (.decode atEnd)).2.framer.offset = session.framer.offset) →
      (session.perform (.decode atEnd)).2.buffer = session.buffer ∧
      (session.perform (.decode atEnd)).2.framer.offset = session.framer.offset ∧
      ∀ later, (session.perform (.decode atEnd)).2.replies later = session.replies later) ∧
    (∀ record fault, (session.perform (.encode record)).1 = .encoded (.error fault) →
      (session.perform (.encode record)).2 = session) ∧
    ((session.perform (.decode true)).1 = .decoded (.ok none) ↔
      session.framer.offset = (Call.fed calls).length) ∧
    ((session.perform (.decode true)).1 = .decoded (.ok none) →
      gains = cursor.items.map (Except.map some)) := by
  intro session gains cursor
  have htracks : Tracks format registry (Call.fed calls) gains session :=
    tracks_run format registry calls
  have hmem := htracks.remembers
  obtain ⟨hle, hbuffer⟩ := htracks.buffer_eq
  have hempty : session.buffer = [] ↔ session.framer.offset = (Call.fed calls).length := by
    rw [hbuffer, List.drop_eq_nil_iff]
    omega
  refine ⟨⟨hle, hbuffer⟩, ?_, ⟨_, htracks.gains_eq.symm⟩, ?_, ?_, ?_, ?_⟩
  · intro header hheader
    have h := hmem header hheader
    rwa [htracks.format_eq] at h
  · intro atEnd result hreply hidle
    exact replies_of_idle hmem hreply hidle
  · intro record fault h
    exact perform_encode_error h
  · rw [confirms_end_iff hmem, hempty]
  · intro h
    rw [confirms_end_iff hmem] at h
    have hall := htracks.gains_eq
    rw [h, Framing.ofBytes_of_cut?_eq_none rfl] at hall
    simpa [Framing.items, ending] using hall.symm

end Session

end ExporterRecords.Stream
