import ExporterRecords.Proofs.Faults
import ExporterRecords.Proofs.Stream.Headers

/-!
# Buffers in pieces

Wherever a buffer is cut, its front keeps the records that end before the cut, and what is left of
it starts with no record. So the front brings the first items of the whole, and one fault more if
the cut goes through a record. Two buffers in one are the other way round: behind a buffer that is
framed to its end, the next one is read as if it stood alone.
-/
namespace ExporterRecords

namespace Fault

/-- The same fault in a stream that starts so many bytes earlier. -/
def shift (distance : Nat) : Fault → Fault
  | truncatedStream recordType offset needed available =>
    truncatedStream recordType (distance + offset) needed available
  | fault => fault

/-- Why a record is refused does not tell where the record stands. -/
theorem shift_eq_of_refuses {format : WireFormat} {frame : Stream.Frame} {kind : MetadataKind}
    {fault : Fault} (h : kind.Refuses format frame fault) (distance : Nat) :
    fault.shift distance = fault := by
  cases h with
  | small | long => rfl
  | body _ hbad =>
    cases hbad with
    | table hformat =>
      obtain ⟨-, rfl⟩ := FamilyCodes.validate_eq_error_iff.mp hformat
      rfl
    | family | room | selector => rfl

end Fault

namespace Stream

open Stream.Frame

namespace Frame

variable {format : WireFormat} {frame : Frame} {front back rest : Bytes}

/-- A frame that starts in a piece without a frame ends behind the piece. -/
theorem length_lt_size_of_cut?_append (hfront : cut? format front = none)
    (h : cut? format (front ++ back) = some (frame, rest)) : front.length < frame.size.toNat := by
  by_contra hsize
  have hwhole : frame.encode format <+: front ++ back := ⟨rest, (cut?_eq_some_iff.mp h).symm⟩
  have hlength : (frame.encode format).length ≤ front.length := by
    rw [frame.length_encode]
    exact Nat.le_of_not_lt hsize
  obtain ⟨behind, rfl⟩ :=
    List.prefix_of_prefix_length_le hwhole (List.prefix_append front back) hlength
  rw [cut?_encode_append] at hfront
  cases hfront

theorem breakage_shift (format : WireFormat) (distance offset : Nat) (bytes : Bytes) :
    breakage format (distance + offset) bytes = (breakage format offset bytes).shift distance := by
  unfold breakage
  cases hdecode : Header.decode format.order bytes with
  | error fault =>
    obtain ⟨-, rfl⟩ := Header.decode_eq_error_iff.mp hdecode
    rfl
  | ok header =>
    dsimp only
    split <;> rfl

theorem ending_shift (format : WireFormat) (distance offset : Nat) (tail : Bytes) :
    ending format (distance + offset) tail =
      (ending format offset tail).map (Except.mapError (Fault.shift distance)) := by
  unfold ending
  split
  · rfl
  · rw [breakage_shift]
    rfl

end Frame

/-- How many bytes are left behind the records tells what is wrong there; from a header on, the
header tells. -/
theorem Ends.of_available {format : WireFormat} {data : Bytes} {offset : Nat}
    {fault? : Option Fault} (h : Ends format data offset fault?) :
    let available := data.length - offset
    (available = 0 → fault? = none) ∧
    (0 < available → available < Header.length → fault? = some (.truncatedHeader available)) ∧
    (Header.length ≤ available → ∃ header,
      Header.decode format.order (data.drop offset) = .ok header ∧
      if header.size.toNat < Header.length then
        fault? = some (.invalidSize header.recordType header.size Header.length)
      else
        fault? = some (.truncatedStream header.recordType offset header.size.toNat available)) := by
  intro available
  have hthere {header : Header}
      (h : Header.decode format.order (data.drop offset) = .ok header) :
      Header.length ≤ available := by
    have hlength := Header.length_le_of_decode h
    rwa [List.length_drop] at hlength
  cases h with
  | clean whole =>
    have hnothing : available = 0 := Nat.sub_eq_zero_of_le whole.ge
    rw [hnothing]
    exact ⟨fun _ => rfl, nofun, nofun⟩
  | shortHeader inside short =>
    have hsome : available ≠ 0 := Nat.sub_ne_zero_of_lt inside
    exact ⟨fun hnone => absurd hnone hsome, fun _ _ => rfl,
      fun hheader => absurd short (Nat.not_lt.mpr hheader)⟩
  | @impossible header read small =>
    have hheader := hthere read
    refine ⟨fun hnone => absurd (hnone ▸ hheader) (by decide),
      fun _ hshort => absurd hshort (Nat.not_lt.mpr hheader), fun _ => ⟨header, read, ?_⟩⟩
    rw [if_pos small]
  | @shortBody header read counted short =>
    have hheader := hthere read
    refine ⟨fun hnone => absurd (hnone ▸ hheader) (by decide),
      fun _ hshort => absurd hshort (Nat.not_lt.mpr hheader), fun _ => ⟨header, read, ?_⟩⟩
    rw [if_neg (Nat.not_lt.mpr counted)]

namespace Framing

variable {format : WireFormat} {front back : Bytes}

/-- The frames of a front are the first of the whole; the others start where the front's tail
does. -/
theorem ofBytes_append (format : WireFormat) (front back : Bytes) :
    ofBytes format (front ++ back) =
      ⟨(ofBytes format front).frames ++
          (ofBytes format ((ofBytes format front).tail ++ back)).frames,
        (ofBytes format ((ofBytes format front).tail ++ back)).tail⟩ := by
  obtain ⟨hfront, -⟩ := ofBytes_spec format front
  conv_lhs => rw [hfront, List.append_assoc, ofBytes_join_append]

theorem start_le_start (framing : Framing) (format : WireFormat) {index later : Nat}
    (h : index ≤ later) : framing.start format index ≤ framing.start format later := by
  obtain ⟨more, rfl⟩ := Nat.exists_eq_add_of_le h
  rw [start, start, List.take_add, join_append, List.length_append]
  exact Nat.le_add_right ..

/-- The next frame behind those of a front ends behind the front. -/
theorem length_lt_start (h : (ofBytes format front).frames.length <
    (ofBytes format (front ++ back)).frames.length) :
    front.length <
      (ofBytes format (front ++ back)).start format ((ofBytes format front).frames.length + 1) := by
  obtain ⟨hfront, htail⟩ := ofBytes_spec format front
  obtain ⟨hbehind, -⟩ := ofBytes_spec format ((ofBytes format front).tail ++ back)
  rw [ofBytes_append] at h ⊢
  generalize ofBytes format ((ofBytes format front).tail ++ back) = behind at *
  generalize ofBytes format front = first at *
  cases hframes : behind.frames with
  | nil => simp [hframes] at h
  | cons frame frames =>
    rw [hframes, join_cons, List.append_assoc] at hbehind
    have hover := length_lt_size_of_cut?_append htail (cut?_eq_some_iff.mpr hbehind)
    have hlength := congrArg List.length hfront
    rw [List.length_append] at hlength
    rw [start, List.take_length_add_append, List.take_succ_cons, List.take_zero, join_append,
      join_cons, join_nil, List.append_nil, List.length_append, frame.length_encode]
    omega

/-- The frames of a front are those frames of the whole that end in it. -/
theorem lt_length_frames_iff (format : WireFormat) (front back : Bytes) (n : Nat) :
    n < (ofBytes format front).frames.length ↔
      n < (ofBytes format (front ++ back)).frames.length ∧
        (ofBytes format (front ++ back)).start format (n + 1) ≤ front.length := by
  have hframes := congrArg frames (ofBytes_append format front back)
  have hcount : (ofBytes format front).frames.length ≤
      (ofBytes format (front ++ back)).frames.length := by
    rw [hframes, List.length_append]
    exact Nat.le_add_right ..
  constructor
  · intro hn
    refine ⟨Nat.lt_of_lt_of_le hn hcount, ?_⟩
    calc (ofBytes format (front ++ back)).start format (n + 1)
        ≤ (ofBytes format (front ++ back)).start format (ofBytes format front).frames.length :=
          start_le_start _ _ hn
      _ = (join format (ofBytes format front).frames).length := by
          rw [start, hframes, List.take_left' rfl]
      _ ≤ front.length := by
          have hfront := congrArg List.length (ofBytes_spec format front).1
          rw [List.length_append] at hfront
          omega
  · rintro ⟨hn, hends⟩
    by_contra hlate
    have hover := length_lt_start (Nat.lt_of_le_of_lt (Nat.le_of_not_lt hlate) hn)
    have hnext := start_le_start (ofBytes format (front ++ back)) format
      (Nat.succ_le_succ (Nat.le_of_not_lt hlate))
    exact absurd hends (Nat.not_le.mpr (Nat.lt_of_lt_of_le hover hnext))

theorem start_append (format : WireFormat) (frames : List Frame) (framing : Framing)
    (index : Nat) :
    start ⟨frames ++ framing.frames, framing.tail⟩ format (frames.length + index) =
      (join format frames).length + framing.start format index := by
  rw [start, List.take_length_add_append, join_append, List.length_append]
  rfl

end Framing

theorem mapM_id_append (records : List Record) (items : List (Except Fault Record)) :
    (records.map (Except.ok : Record → Except Fault Record) ++ items).mapM id =
      (items.mapM id).map (records ++ ·) := by
  induction records with
  | nil => cases h : items.mapM id <;> simp [h, Except.map]
  | cons record records ih =>
    rw [List.map_cons, List.cons_append, List.mapM_cons, ih]
    cases items.mapM id <;> rfl

theorem mapM_id_map_mapError (change : Fault → Fault) (items : List (Except Fault Record)) :
    (items.map (Except.mapError change)).mapM id = (items.mapM id).mapError change := by
  induction items with
  | nil => rfl
  | cons item items ih =>
    rw [List.map_cons, List.mapM_cons, List.mapM_cons, ih]
    cases item with
    | error fault => rfl
    | ok record => cases items.mapM id <;> rfl

namespace Cursor

variable {format : WireFormat} {registry : Registry} {data front back : Bytes}

/-- A record ends where the next request goes on. -/
theorem offset_after_succ {n : Nat} {header : Header} {span : Bytes}
    (h : (ofBytes format registry data).record? n = some (header, span)) :
    ((ofBytes format registry data).after (n + 1)).offset =
      ((ofBytes format registry data).after n).offset + span.length := by
  obtain ⟨frame, hframe, -, rfl⟩ := record?_eq_some_iff.mp h
  obtain ⟨hlt, rfl⟩ := List.getElem?_eq_some_iff.mp hframe
  simp only [after_ofBytes, Nat.min_eq_left hlt.le, Nat.min_eq_left (Nat.succ_le_of_lt hlt)]
  rw [Framing.start_succ _ _ hlt, ForeignRecord.length_encode]

/-- The records of a front are those records of the whole that end in it. -/
theorem lt_count_iff (format : WireFormat) (registry : Registry) (front back : Bytes) (n : Nat) :
    n < (Framing.ofBytes format front).frames.length ↔ ∃ header span,
      (ofBytes format registry (front ++ back)).record? n = some (header, span) ∧
        ((ofBytes format registry (front ++ back)).after n).offset + span.length ≤
          front.length := by
  have hends {header : Header} {span : Bytes}
      (h : (ofBytes format registry (front ++ back)).record? n = some (header, span)) :
      ((ofBytes format registry (front ++ back)).after n).offset + span.length =
        (Framing.ofBytes format (front ++ back)).start format (n + 1) := by
    obtain ⟨frame, hframe, -⟩ := record?_eq_some_iff.mp h
    obtain ⟨hlt, -⟩ := List.getElem?_eq_some_iff.mp hframe
    rw [← offset_after_succ h, after_ofBytes, Nat.min_eq_left (Nat.succ_le_of_lt hlt)]
  rw [Framing.lt_length_frames_iff format front back]
  constructor
  · rintro ⟨hlt, hle⟩
    have hrecord := record?_ofBytes format registry (front ++ back) n
    rw [List.getElem?_eq_getElem hlt, Option.map_some] at hrecord
    exact ⟨_, _, hrecord, hends hrecord ▸ hle⟩
  · rintro ⟨header, span, hrecord, hle⟩
    obtain ⟨frame, hframe, -⟩ := record?_eq_some_iff.mp hrecord
    obtain ⟨hlt, -⟩ := List.getElem?_eq_some_iff.mp hframe
    exact ⟨hlt, hends hrecord ▸ hle⟩

/-- Up to the end of its records a front is walked over as if nothing came behind it. -/
theorem offset_after_append (format : WireFormat) (registry : Registry) (front back : Bytes)
    {n : Nat} (h : n ≤ (Framing.ofBytes format front).frames.length) :
    ((ofBytes format registry (front ++ back)).after n).offset =
      ((ofBytes format registry front).after n).offset := by
  have hframes := congrArg Framing.frames (Framing.ofBytes_append format front back)
  have hwhole : n ≤ (Framing.ofBytes format (front ++ back)).frames.length := by
    rw [hframes, List.length_append]
    exact h.trans (Nat.le_add_right ..)
  rw [after_ofBytes, after_ofBytes]
  dsimp only
  rw [Nat.min_eq_left h, Nat.min_eq_left hwhole, Framing.start, Framing.start, hframes,
    List.take_append_of_le_length h]

/-- The records of a front bring what they bring in the whole. -/
theorem take_items_append (format : WireFormat) (registry : Registry) (front back : Bytes) :
    let count := (Framing.ofBytes format front).frames.length
    (ofBytes format registry front).items.take count =
      (ofBytes format registry (front ++ back)).items.take count := by
  intro count
  rw [items_ofBytes, items_ofBytes, Framing.ofBytes_append, Framing.items_append,
    List.take_left' (List.length_map _), Framing.items, List.take_left' (List.length_map _)]

/-- Where a front ends at an impossible header, so does the whole. -/
theorem items_append_of_isImpossible
    (h : isImpossible format (Framing.ofBytes format front).tail = true) (back : Bytes) :
    (ofBytes format registry (front ++ back)).items = (ofBytes format registry front).items := by
  have hmore := isImpossible_append h back
  have hne {tail : Bytes} (himpossible : isImpossible format tail = true) : tail ≠ [] := by
    rintro rfl
    cases himpossible
  rw [items_ofBytes, items_ofBytes, Framing.ofBytes_append,
    Framing.ofBytes_of_cut?_eq_none (cut?_of_isImpossible hmore), List.append_nil, Framing.items,
    Framing.items, ending, ending, if_neg (hne hmore), if_neg (hne h),
    breakage_of_isImpossible h back _ _]

/-- Wherever a buffer is cut, its front brings the items of exactly those records that end in it,
and then nothing if the cut is where they end. Otherwise it brings one fault more: of a header that
is cut through, of a header that is impossible anyway, or of a record that is cut through behind
its header. -/
theorem walk_take (format : WireFormat) (registry : Registry) (data : Bytes) (cut : Nat)
    (hcut : cut ≤ data.length) :
    let whole := ofBytes format registry data
    let short := ofBytes format registry (data.take cut)
    (∀ n, (short.after n).next?.map (·.1) = short.items[n]?) ∧
    (∀ n header span, whole.record? n = some (header, span) →
      whole.items[n]? = some (registry.decode format header span) ∧
      (whole.after (n + 1)).offset = (whole.after n).offset + span.length) ∧
    ∃ (count : Nat) (fault? : Option Fault),
      let offset := (whole.after count).offset
      let available := cut - offset
      offset ≤ cut ∧
      (∀ n, n < count ↔ ∃ header span, whole.record? n = some (header, span) ∧
        (whole.after n).offset + span.length ≤ cut) ∧
      short.items = whole.items.take count ++ (fault?.map .error).toList ∧
      (∀ n record, short.items[n]? = some (.ok record) → n < count) ∧
      (available = 0 → fault? = none) ∧
      (0 < available → available < Header.length →
        fault? = some (.truncatedHeader available)) ∧
      (Header.length ≤ available → ∃ header,
        Header.decode format.order (data.drop offset) = .ok header ∧
        if header.size.toNat < Header.length then
          fault? = some (.invalidSize header.recordType header.size Header.length) ∧
            whole.items = short.items
        else
          fault? = some (.truncatedStream header.recordType offset header.size.toNat
            available)) := by
  obtain ⟨front, back, rfl, rfl⟩ : ∃ front back, data = front ++ back ∧ cut = front.length :=
    ⟨data.take cut, data.drop cut, (List.take_append_drop ..).symm,
      (List.length_take_of_le hcut).symm⟩
  rw [List.take_left]
  intro whole short
  obtain ⟨hends, hlast⟩ := items_behind_records format registry front
  obtain ⟨hwithin, htail⟩ := drop_offset_after format registry front
  have hfirst := take_items_append format registry front back
  have hoffset := offset_after_append format registry front back (Nat.le_refl _)
  have himpossible (h : isImpossible format (Framing.ofBytes format front).tail = true) :
      whole.items = short.items := items_append_of_isImpossible h back
  have hcount := lt_count_iff format registry front back
  rw [← htail] at himpossible
  rw [← hoffset] at hends hlast hwithin himpossible
  generalize (Framing.ofBytes format front).frames.length = count at *
  generalize breakage? format (whole.after count).offset _ = fault? at hends hlast
  have hitems : short.items = whole.items.take count ++ (fault?.map .error).toList := by
    rw [← hlast, ← hfirst, List.take_append_drop]
  obtain ⟨hclean, hshort, hbroken⟩ := hends.of_available
  refine ⟨next?_after short, fun n header span h => ⟨item_of_record? h, offset_after_succ h⟩, count,
    fault?, hwithin, hcount, hitems, ?_, hclean, hshort, ?_⟩
  · intro n record hrecord
    by_contra hbehind
    obtain ⟨more, rfl⟩ := Nat.exists_eq_add_of_le (Nat.le_of_not_lt hbehind)
    have hmem := List.mem_of_getElem? (hrecord ▸ List.getElem?_drop)
    rw [hlast] at hmem
    cases fault? <;> simp at hmem
  · intro hheader
    obtain ⟨header, hread, hfault⟩ := hbroken hheader
    refine ⟨header, ?_, ?_⟩
    · rw [List.drop_append_of_le_length hwithin]
      exact Header.decode_append hread back
    · by_cases hsmall : header.size.toNat < Header.length
      · rw [if_pos hsmall] at hfault ⊢
        exact ⟨hfault, himpossible (isImpossible_iff.mpr ⟨header, hread, hsmall⟩)⟩
      · rw [if_neg hsmall] at hfault ⊢
        exact hfault

/-- A cut behind the header of a sampler that is too short to be one: what is found is the cut. -/
theorem walk_take_inside_record :
    let format : WireFormat := {}
    let data : Bytes := [66, 66, 6, 0, 1, 2, 15, 0, 5, 0, 9, 15, 0, 24, 0, 7]
    let whole := ofBytes format .standard data
    let short := ofBytes format .standard (data.take 10)
    10 ≤ data.length ∧
      short.items = whole.items.take 1 ++ [.error (.truncatedStream 15 6 5 4)] := by
  intro format data whole short
  let framing : Framing :=
    ⟨[⟨0x4242, [1, 2], by decide⟩, ⟨15, [9], by decide⟩], [15, 0, 24, 0, 7]⟩
  have hframing : Framing.ofBytes format data = framing :=
    Framing.ofBytes_eq_iff.mpr ⟨by decide, by decide⟩
  have hoffset (n : Nat) : (whole.after n).offset = framing.start format (min n 2) := by
    simp only [whole, after_ofBytes, hframing]
    rfl
  have hrecord (n : Nat) : whole.record? n =
      framing.frames[n]?.map fun frame => (frame.header, frame.encode format) := by
    simp only [whole, record?_ofBytes, hframing]
  have hcut : 10 ≤ data.length := by decide
  obtain ⟨-, -, count, fault?, -, hcount, hitems, -, -, -, hheader⟩ :=
    walk_take format .standard data 10 hcut
  have hone : count = 1 := by
    have hfirst : 0 < count := (hcount 0).mpr ⟨_, _, hrecord 0, by rw [hoffset]; decide⟩
    have hsecond : ¬ 1 < count := by
      intro h
      obtain ⟨header, span, hspan, hends⟩ := (hcount 1).mp h
      rw [hoffset] at hends
      cases (hrecord 1).symm.trans hspan
      revert hends
      decide
    omega
  subst hone
  obtain ⟨header, hdecode, hfault⟩ := hheader (by rw [hoffset]; decide)
  rw [hoffset] at hdecode hfault
  cases (show Header.decode format.order _ = .ok ⟨15, 5⟩ by decide).symm.trans hdecode
  rw [if_neg (by decide)] at hfault
  refine ⟨hcut, ?_⟩
  rw [hitems, hfault]
  rfl

/-- A buffer without a broken frame is nothing but its frames. -/
theorem exists_join_of_last (h : (ofBytes format registry data).last.offset = data.length) :
    ∃ frames, data = join format frames := by
  obtain ⟨hdata, -⟩ := Framing.ofBytes_spec format data
  have htail : (Framing.ofBytes format data).tail = [] := by
    have hlength := congrArg List.length hdata
    rw [List.length_append, ← offset_last_ofBytes format registry, h] at hlength
    exact List.length_eq_zero_iff.mp (Nat.left_eq_add.mp hlength)
  rw [htail, List.append_nil] at hdata
  exact ⟨_, hdata⟩

section Seam

variable (format : WireFormat) (registry : Registry) (frames : List Frame) (second : Bytes)

/-- Behind frames a walk goes on as if it started there. -/
theorem after_join_append (n : Nat) :
    (ofBytes format registry (join format frames ++ second)).after (frames.length + n) =
      { (ofBytes format registry second).after n with
        offset := (join format frames).length + ((ofBytes format registry second).after n).offset } := by
  rw [after_ofBytes, after_ofBytes, Framing.ofBytes_join_append]
  dsimp only
  rw [List.length_append, Nat.add_min_add_left, Framing.start_append, ← List.drop_drop,
    List.drop_left]
  simp only [Nat.add_lt_add_iff_left]

/-- Behind frames a walk brings what it would bring there alone, but that a fault of the framing
tells the place. -/
theorem items_join_append :
    let behind := Framing.ofBytes format second
    (ofBytes format registry (join format frames ++ second)).items =
      frames.map (registry.decodeFrame format) ++
        (behind.frames.map (registry.decodeFrame format) ++
          (ending format (join format behind.frames).length behind.tail).map
            (Except.mapError (Fault.shift (join format frames).length))) := by
  intro behind
  rw [items_ofBytes, Framing.ofBytes_join_append, Framing.items_append, Framing.items, Nat.zero_add,
    ending_shift]

/-- A reader of all kinds tells the place in no other fault. -/
theorem items_standard_join_append :
    (ofBytes format .standard (join format frames ++ second)).items =
      frames.map (Registry.standard.decodeFrame format) ++
        (ofBytes format .standard second).items.map
          (Except.mapError (Fault.shift (join format frames).length)) := by
  have hplaceless (frame : Frame) :
      (Registry.standard.decodeFrame format frame).mapError
        (Fault.shift (join format frames).length) = Registry.standard.decodeFrame format frame := by
    cases h : Registry.standard.decodeFrame format frame with
    | ok record => rfl
    | error fault =>
      obtain ⟨kind, -, hrefuses⟩ := Registry.standard_decodeFrame_eq_error_iff.mp h
      exact congrArg Except.error (Fault.shift_eq_of_refuses hrefuses _)
  rw [items_join_append, items_ofBytes, Framing.items, List.map_append, List.map_map, Nat.zero_add]
  simp only [Function.comp_def, hplaceless]

end Seam

/-- Behind a buffer without a broken frame another one is read as if it stood alone: a walk over
both brings the items of the first and then those of the second, and what is wrong with the framing
of the second is told of the place where it stands now. So the records of both are read together,
or the first fault of the second is reported. -/
theorem walk_append (format : WireFormat) (registry : Registry) (first second : Bytes) :
    let front := ofBytes format registry first
    let behind := ofBytes format registry second
    let whole := ofBytes format registry (first ++ second)
    (front.last.offset = first.length →
      (∃ count, (∀ n, (behind.record? n).isSome ↔ n < count) ∧
        whole.items = front.items ++ (behind.items.take count ++
          (behind.items.drop count).map (Except.mapError (Fault.shift first.length)))) ∧
      (∀ n ≤ front.items.length, (whole.after n).offset = (front.after n).offset) ∧
      ∀ n, whole.after (front.items.length + n) =
        { behind.after n with offset := first.length + (behind.after n).offset }) ∧
    ∀ records, decodeAll format first = .ok records →
      decodeAll format (first ++ second) = match decodeAll format second with
        | .ok more => .ok (records ++ more)
        | .error fault => .error (fault.shift first.length) := by
  intro front behind whole
  constructor
  · intro hlast
    obtain ⟨frames, rfl⟩ := exists_join_of_last hlast
    have hfront : front.items = frames.map (registry.decodeFrame format) := items_join ..
    have hcount : front.items.length = frames.length := by rw [hfront, List.length_map]
    have hbehind : behind.items = (Framing.ofBytes format second).items format registry 0 :=
      items_ofBytes ..
    refine ⟨⟨(Framing.ofBytes format second).frames.length, ?_, ?_⟩, ?_, ?_⟩
    · intro n
      simp [behind, record?_ofBytes]
    · rw [hfront, hbehind, Framing.items, List.take_left' (List.length_map _),
        List.drop_left' (List.length_map _), Nat.zero_add]
      exact items_join_append ..
    · intro n hn
      refine offset_after_append format registry (join format frames) second ?_
      rwa [Framing.ofBytes_join, ← hcount]
    · intro n
      rw [hcount]
      exact after_join_append ..
  · intro records hrecords
    obtain ⟨frames, rfl, hframes⟩ := decodeAll_eq_ok_iff.mp hrecords
    rw [decodeAll, items_standard_join_append, hframes, mapM_id_append, mapM_id_map_mapError,
      ← decodeAll]
    cases decodeAll format second <;> rfl

/-- A record in front moves the place of a sampler that is cut through. -/
theorem walk_append_before_cut :
    let format : WireFormat := {}
    let first : Bytes := [66, 66, 6, 0, 1, 2]
    let second : Bytes := [66, 66, 4, 0, 15, 0, 24, 0, 7]
    let front := ofBytes format .standard first
    let whole := ofBytes format .standard (first ++ second)
    front.last.offset = first.length ∧ (∃ records, decodeAll format first = .ok records) ∧
      (whole.after (front.items.length + 1)).offset = 10 ∧
      decodeAll format second = .error (.truncatedStream 15 4 24 5) ∧
      decodeAll format (first ++ second) = .error (.truncatedStream 15 10 24 5) := by
  intro format first second front whole
  let frame : Frame := ⟨0x4242, [1, 2], by decide⟩
  let framing : Framing := ⟨[⟨0x4242, [], by decide⟩], [15, 0, 24, 0, 7]⟩
  have hframe : Framing.ofBytes format first = ⟨[frame], []⟩ :=
    Framing.ofBytes_eq_iff.mpr ⟨by decide, by decide⟩
  have hframing : Framing.ofBytes format second = framing :=
    Framing.ofBytes_eq_iff.mpr ⟨by decide, by decide⟩
  have hlast : front.last.offset = first.length := by
    rw [offset_last_ofBytes, hframe]
    decide
  have hfirst : decodeAll format first = .ok [.foreign frame] :=
    decodeAll_eq_ok_iff.mpr ⟨[frame], by decide, rfl⟩
  have hsecond : decodeAll format second = .error (.truncatedStream 15 4 24 5) := by
    rw [decodeAll, items_ofBytes, hframing]
    rfl
  obtain ⟨hwalk, hrecords⟩ := walk_append format .standard first second
  refine ⟨hlast, ⟨_, hfirst⟩, ?_, hsecond, ?_⟩
  · rw [(hwalk hlast).2.2 1, after_ofBytes, hframing]
    decide
  · rw [hrecords _ hfirst, hsecond]
    rfl

end Cursor

end Stream

end ExporterRecords
