import ExporterRecords.Proofs.Stream.Boundaries

/-!
# What the headers tell

Where records start, how many there are and how a buffer ends is told by the bytes that a walk
reads as headers. Neither the bodies nor the decoders have a say in it, so a damaged body or a
decoder more or less changes the items of its own records and no others.
-/
namespace ExporterRecords

theorem Header.encode_congr {order order' : ByteOrder} (h : order'.resolved = order.resolved)
    (header : Header) : header.encode order' = header.encode order := by
  rw [encode_eq_append, encode_eq_append]
  unfold ByteOrder.encode ByteOrder.arrange
  rw [h]

/-- Only the order meant and the first bytes count for the header of a buffer. -/
theorem Header.decode_congr {order order' : ByteOrder} {bytes bytes' : Bytes}
    (horder : order'.resolved = order.resolved) (hlength : bytes'.length = bytes.length)
    (hfront : bytes'.take length = bytes.take length) :
    decode order' bytes' = decode order bytes := by
  cases hdecode : decode order bytes with
  | error fault =>
    obtain ⟨hshort, rfl⟩ := decode_eq_error_iff.mp hdecode
    rw [decode_eq_error_iff, hlength]
    exact ⟨hshort, rfl⟩
  | ok header =>
    obtain ⟨rest, rfl⟩ := decode_eq_ok_iff.mp hdecode
    rw [List.take_left' (length_encode ..)] at hfront
    refine decode_eq_ok_iff.mpr ⟨bytes'.drop length, ?_⟩
    rw [encode_congr horder, ← hfront, List.take_append_drop]

/-- Only the decoder under its code counts for a record. -/
theorem Registry.decode_congr {registry registry' : Registry} {header : Header}
    (h : registry'.decoders.get? header.recordType = registry.decoders.get? header.recordType)
    (format : WireFormat) (span : Bytes) :
    registry'.decode format header span = registry.decode format header span := by
  unfold decode
  rw [h]

namespace Stream

open Stream.Frame

namespace Frame

variable {format format' : WireFormat} {bytes bytes' : Bytes}

/-- Whether a buffer starts with a frame, and under which header, is told by its length and its
first bytes. -/
theorem exists_cut?_of_front (horder : format'.order.resolved = format.order.resolved)
    (hlength : bytes'.length = bytes.length)
    (hfront : bytes'.take Header.length = bytes.take Header.length) :
    (cut? format bytes = none → cut? format' bytes' = none) ∧
      ∀ frame rest, cut? format bytes = some (frame, rest) →
        ∃ frame' rest', cut? format' bytes' = some (frame', rest') ∧
          frame'.header = frame.header ∧ rest'.length = rest.length := by
  have hdecode := Header.decode_congr horder hlength hfront
  have hnone : cut? format' bytes' = none ↔ cut? format bytes = none := by
    rw [cut?_eq_none_iff, cut?_eq_none_iff, hdecode, hlength]
  refine ⟨hnone.mpr, ?_⟩
  intro frame rest hcut
  obtain rfl := cut?_eq_some_iff.mp hcut
  cases hcut' : cut? format' bytes' with
  | none =>
    rw [hnone.mp hcut'] at hcut
    cases hcut
  | some parts =>
    obtain ⟨frame', rest'⟩ := parts
    obtain rfl := cut?_eq_some_iff.mp hcut'
    rw [frame.decode_encode_append, frame'.decode_encode_append, Except.ok.injEq] at hdecode
    refine ⟨frame', rest', rfl, hdecode, ?_⟩
    have hsize : frame'.size = frame.size := congrArg Header.size hdecode
    simp only [List.length_append, ForeignRecord.length_encode, hsize] at hlength
    omega

theorem breakage?_congr (horder : format'.order.resolved = format.order.resolved)
    (hlength : bytes'.length = bytes.length)
    (hfront : bytes'.take Header.length = bytes.take Header.length) (offset : Nat) :
    breakage? format' offset bytes' = breakage? format offset bytes := by
  have hempty : bytes' = [] ↔ bytes = [] := by
    rw [← List.length_eq_zero_iff, ← List.length_eq_zero_iff, hlength]
  simp only [breakage?, breakage, hempty, Header.decode_congr horder hlength hfront, hlength]

theorem length_join (format : WireFormat) (frames : List Frame) :
    (join format frames).length =
      ((frames.map ForeignRecord.header).map (·.size.toNat)).sum := by
  induction frames with
  | nil => rfl
  | cons frame frames ih =>
    rw [join_cons, List.length_append, ih, frame.length_encode]
    rfl

end Frame

namespace Framing

variable {format format' : WireFormat} {framing other : Framing}

/-- Two buffers that look the same to someone who reads only headers. -/
structure SameHeaders (framing other : Framing) : Prop where
  headers : other.frames.map ForeignRecord.header = framing.frames.map ForeignRecord.header
  length_tail : other.tail.length = framing.tail.length
  front_tail : other.tail.take Header.length = framing.tail.take Header.length

theorem SameHeaders.length_frames (h : SameHeaders framing other) :
    other.frames.length = framing.frames.length := by
  simpa using congrArg List.length h.headers

/-- Records start where the headers in front of them say. -/
theorem start_congr (h : other.frames.map ForeignRecord.header =
    framing.frames.map ForeignRecord.header) (format format' : WireFormat) (index : Nat) :
    other.start format' index = framing.start format index := by
  simp only [start, length_join, List.map_take, h]

/-- A buffer with the same bytes wherever a walk over the other one reads a header has the same
headers. -/
theorem sameHeaders_ofBytes (horder : format'.order.resolved = format.order.resolved)
    {frames : List Frame} {tail data' : Bytes} (htail : cut? format tail = none)
    (hlength : data'.length = (join format frames ++ tail).length)
    (hheaders : ∀ index ≤ frames.length, let offset := (join format (frames.take index)).length
      (data'.drop offset).take Header.length =
        ((join format frames ++ tail).drop offset).take Header.length) :
    SameHeaders ⟨frames, tail⟩ (ofBytes format' data') := by
  -- Each frame is cut off both buffers at once; what is left of them agrees at the later offsets.
  induction frames generalizing data' with
  | nil =>
    rw [join_nil, List.nil_append] at hlength
    have hfront := hheaders 0 (Nat.le_refl 0)
    simp only [List.take_nil, join_nil, List.length_nil, List.drop_zero, List.nil_append] at hfront
    rw [ofBytes_of_cut?_eq_none ((exists_cut?_of_front horder hlength hfront).1 htail)]
    exact ⟨rfl, hlength, hfront⟩
  | cons frame frames ih =>
    have hfront := hheaders 0 (Nat.zero_le _)
    simp only [List.take_zero, join_nil, List.length_nil, List.drop_zero] at hfront
    have hcut : cut? format (join format (frame :: frames) ++ tail) =
        some (frame, join format frames ++ tail) := by
      rw [join_cons, List.append_assoc, cut?_encode_append]
    obtain ⟨frame', rest', hcut', hheader, hrest⟩ :=
      (exists_cut?_of_front horder hlength hfront).2 _ _ hcut
    obtain rfl := cut?_eq_some_iff.mp hcut'
    have hsize : (frame'.encode format').length = (frame.encode format).length := by
      rw [ForeignRecord.length_encode, ForeignRecord.length_encode]
      exact congrArg (·.size.toNat) hheader
    obtain ⟨hheaders', hlength', hfront'⟩ := ih hrest (by
      intro index hindex
      have h := hheaders (index + 1) (Nat.succ_le_succ hindex)
      simp only [List.take_succ_cons, join_cons, List.length_append, ← List.drop_drop,
        List.append_assoc] at h
      rwa [List.drop_left' rfl, List.drop_left' hsize] at h)
    rw [ofBytes_encode_append]
    refine ⟨?_, hlength', hfront'⟩
    rw [List.map_cons, List.map_cons, hheader, hheaders']

end Framing

namespace Cursor

variable {format format' : WireFormat} {registry registry' : Registry} {data data' : Bytes}

/-- The header and the bytes of the record to which a walk comes with this request. -/
def record? (cursor : Cursor) (n : Nat) : Option (Header × Bytes) :=
  match (cursor.after n).cut with
  | .ok (header, span, _) => some (header, span)
  | .error _ => none

/-- Where a walk is after any number of requests: at the start of a frame, or at the tail. -/
theorem after_ofBytes (format : WireFormat) (registry : Registry) (data : Bytes) (n : Nat) :
    let framing := Framing.ofBytes format data
    let offset := framing.start format (min n framing.frames.length)
    (ofBytes format registry data).after n =
      ⟨format, registry, offset, data.drop offset, framing.frames.length < n⟩ := by
  intro framing offset
  obtain ⟨hdata, htail⟩ := Framing.ofBytes_spec format data
  rcases Nat.le_total n framing.frames.length with hle | hge
  · have hlive : decide (framing.frames.length < n) = false := decide_eq_false (Nat.not_lt.mpr hle)
    rw [after_start hdata hle, hlive]
    simp only [offset, Nat.min_eq_left hle]
    rfl
  · obtain ⟨more, rfl⟩ := Nat.exists_eq_add_of_le hge
    have hoffset : offset = framing.start format framing.frames.length := by
      simp only [offset, Nat.min_eq_right hge]
    obtain ⟨-, hdrop⟩ := Framing.drop_start hdata framing.frames.length
    rw [List.drop_length, join_nil, List.nil_append] at hdrop
    rw [after_add, after_start hdata (Nat.le_refl _), hoffset]
    cases more with
    | zero =>
      have hlive : decide (framing.frames.length < framing.frames.length + 0) = false :=
        decide_eq_false (Nat.lt_irrefl _)
      rw [hlive]
      rfl
    | succ more =>
      have hover : decide (framing.frames.length < framing.frames.length + (more + 1)) = true :=
        decide_eq_true (by omega)
      rw [after, advance_of_tail rfl (by rwa [hdrop]), after_of_finished rfl, hover]

/-- The records of a walk are the frames of its buffer. -/
theorem record?_ofBytes (format : WireFormat) (registry : Registry) (data : Bytes) (n : Nat) :
    (ofBytes format registry data).record? n =
      (Framing.ofBytes format data).frames[n]?.map
        fun frame => (frame.header, frame.encode format) := by
  obtain ⟨hdata, htail⟩ := Framing.ofBytes_spec format data
  have hafter := after_ofBytes format registry data n
  generalize Framing.ofBytes format data = framing at *
  obtain ⟨-, hdrop⟩ := Framing.drop_start hdata (min n framing.frames.length)
  rw [record?, hafter]
  rcases Nat.lt_or_ge n framing.frames.length with hlt | hge
  · rw [Nat.min_eq_left hlt.le, List.drop_eq_getElem_cons hlt, join_cons,
      List.append_assoc] at hdrop
    rw [Nat.min_eq_left hlt.le, List.getElem?_eq_getElem hlt]
    rw [cut_of_frame hdrop]
    rfl
  · rw [Nat.min_eq_right hge, List.drop_length, join_nil, List.nil_append] at hdrop
    rw [Nat.min_eq_right hge, List.getElem?_eq_none hge]
    rw [cut_of_tail (by rwa [hdrop])]
    rfl

theorem record?_eq_some_iff {n : Nat} {header : Header} {span : Bytes} :
    (ofBytes format registry data).record? n = some (header, span) ↔
      ∃ frame, (Framing.ofBytes format data).frames[n]? = some frame ∧ frame.header = header ∧
        frame.encode format = span := by
  rw [record?_ofBytes, Option.map_eq_some_iff]
  simp only [Prod.mk.injEq]

/-- The bytes of a record are those that its header delimits. -/
theorem span_of_record? {n : Nat} {header : Header} {span : Bytes}
    (h : (ofBytes format registry data).record? n = some (header, span)) :
    span = (data.drop ((ofBytes format registry data).after n).offset).take
      header.size.toNat := by
  have hafter := after_ofBytes format registry data n
  unfold record? at h
  rw [hafter] at h ⊢
  split at h
  · rename_i rest hcut
    cases h
    obtain ⟨hrest, hspan, -⟩ := cut_eq_ok hcut
    dsimp only at hrest ⊢
    rw [hrest, List.take_left' hspan]
  · cases h

/-- The item of a record is what the registry makes of it. -/
theorem item_of_record? {n : Nat} {header : Header} {span : Bytes}
    (h : (ofBytes format registry data).record? n = some (header, span)) :
    (ofBytes format registry data).items[n]? = some (registry.decode format header span) := by
  obtain ⟨frame, hframe, rfl, rfl⟩ := record?_eq_some_iff.mp h
  obtain ⟨hlt, -⟩ := List.getElem?_eq_some_iff.mp hframe
  rw [items_ofBytes, Framing.items, List.getElem?_append_left (by rwa [List.length_map]),
    List.getElem?_map, hframe]
  rfl

/-- Behind its last record a walk is at the tail. -/
theorem drop_offset_after (format : WireFormat) (registry : Registry) (data : Bytes) :
    let framing := Framing.ofBytes format data
    let offset := ((ofBytes format registry data).after framing.frames.length).offset
    offset ≤ data.length ∧ data.drop offset = framing.tail := by
  intro framing offset
  obtain ⟨hdata, -⟩ := Framing.ofBytes_spec format data
  have hbehind := Framing.drop_start hdata framing.frames.length
  rw [List.drop_length, join_nil, List.nil_append] at hbehind
  have hoffset : offset = framing.start format framing.frames.length := by
    simp only [offset, after_ofBytes, framing, Nat.min_self]
  rw [hoffset]
  exact hbehind

/-- Behind its records a walk has at most one item more, for what is wrong there. -/
theorem items_behind_records (format : WireFormat) (registry : Registry) (data : Bytes) :
    let framing := Framing.ofBytes format data
    let fault? := breakage? format
      ((ofBytes format registry data).after framing.frames.length).offset framing.tail
    Ends format data ((ofBytes format registry data).after framing.frames.length).offset fault? ∧
      (ofBytes format registry data).items.drop framing.frames.length =
        (fault?.map .error).toList := by
  intro framing fault?
  obtain ⟨-, htail⟩ := Framing.ofBytes_spec format data
  obtain ⟨hwithin, hbehind⟩ := drop_offset_after format registry data
  have hoffset : ((ofBytes format registry data).after framing.frames.length).offset =
      (join format framing.frames).length := by
    rw [after_ofBytes, Nat.min_self, Framing.start, List.take_length]
  constructor
  · have hends := ends_of_tail hwithin (by rwa [hbehind])
    rwa [hbehind] at hends
  · rw [items_ofBytes, Framing.items, List.drop_left' (List.length_map _), ending_eq_toList,
      Nat.zero_add, ← hoffset]

/-- Two walks that come to the same places and bring equally many items. -/
structure InStep (cursor cursor' : Cursor) : Prop where
  offset : ∀ n, (cursor'.after n).offset = (cursor.after n).offset
  count : cursor'.items.length = cursor.items.length

section SameHeaders

open Framing

variable {n : Nat} {header : Header} {span : Bytes}

theorem inStep_of_sameHeaders
    (h : SameHeaders (Framing.ofBytes format data) (Framing.ofBytes format' data'))
    (registry registry' : Registry) :
    InStep (ofBytes format registry data) (ofBytes format' registry' data') where
  offset n := by
    rw [after_ofBytes, after_ofBytes, h.length_frames]
    exact start_congr h.headers format format' _
  count := by
    have htail : (Framing.ofBytes format' data').tail = [] ↔
        (Framing.ofBytes format data).tail = [] := by
      rw [← List.length_eq_zero_iff, ← List.length_eq_zero_iff, h.length_tail]
    rw [items_ofBytes, items_ofBytes, Framing.items, Framing.items, List.length_append,
      List.length_append, List.length_map, List.length_map, h.length_frames, ending, ending]
    simp only [htail]
    split <;> rfl

/-- Walks over the same headers come to records with the same headers. -/
theorem record?_congr
    (h : SameHeaders (Framing.ofBytes format data) (Framing.ofBytes format' data'))
    (registry' : Registry)
    (hrecord : (ofBytes format registry data).record? n = some (header, span)) :
    (ofBytes format' registry' data').record? n = some (header,
      (data'.drop ((ofBytes format registry data).after n).offset).take header.size.toNat) := by
  obtain ⟨frame, hframe, rfl, rfl⟩ := record?_eq_some_iff.mp hrecord
  have hheader : (Framing.ofBytes format' data').frames[n]?.map ForeignRecord.header =
      some frame.header := by
    rw [← List.getElem?_map, h.headers, List.getElem?_map, hframe, Option.map_some]
  obtain ⟨frame', hframe', hheader'⟩ := Option.map_eq_some_iff.mp hheader
  have hrecord' : (ofBytes format' registry' data').record? n =
      some (frame.header, frame'.encode format') :=
    record?_eq_some_iff.mpr ⟨frame', hframe', hheader', rfl⟩
  rw [hrecord', span_of_record? hrecord', (inStep_of_sameHeaders h registry registry').offset]

/-- Walks over the same headers end in the same way. -/
theorem ends_congr (horder : format'.order.resolved = format.order.resolved)
    (h : SameHeaders (Framing.ofBytes format data) (Framing.ofBytes format' data'))
    (registry registry' : Registry) :
    let cursor := ofBytes format registry data
    let cursor' := ofBytes format' registry' data'
    ∃ count fault?, (∀ n, (cursor.record? n).isSome ↔ n < count) ∧
      Ends format data (cursor.after count).offset fault? ∧
      Ends format' data' (cursor'.after count).offset fault? ∧
      cursor.items.drop count = (fault?.map .error).toList ∧
      cursor'.items.drop count = (fault?.map .error).toList := by
  intro cursor cursor'
  obtain ⟨hends, hitems⟩ := items_behind_records format registry data
  obtain ⟨hends', hitems'⟩ := items_behind_records format' registry' data'
  rw [h.length_frames, (inStep_of_sameHeaders h registry registry').offset,
    breakage?_congr horder h.length_tail h.front_tail] at hends' hitems'
  refine ⟨(Framing.ofBytes format data).frames.length, _, ?_, hends, ?_, hitems, hitems'⟩
  · intro n
    simp [cursor, record?_ofBytes]
  · rw [(inStep_of_sameHeaders h registry registry').offset]
    exact hends'

end SameHeaders

section Changes

open Framing

variable {n : Nat} {header : Header} {span body : Bytes}

theorem join_set {frames : List Frame} {frame : Frame} (h : frames[n]? = some frame)
    (format : WireFormat) (frame' : Frame) :
    join format (frames.set n frame') = join format (frames.take n) ++
      (frame'.encode format ++ join format (frames.drop (n + 1))) := by
  obtain ⟨hlt, -⟩ := List.getElem?_eq_some_iff.mp h
  rw [List.set_eq_take_append_cons_drop, if_pos hlt, join_append, join_cons]

theorem map_header_set {frames : List Frame} {frame frame' : Frame} (h : frames[n]? = some frame)
    (hheader : frame'.header = frame.header) :
    (frames.set n frame').map ForeignRecord.header = frames.map ForeignRecord.header := by
  obtain ⟨hlt, rfl⟩ := List.getElem?_eq_some_iff.mp h
  conv_rhs => rw [← List.set_getElem_self hlt, List.map_set]
  rw [List.map_set, hheader]

/-- A buffer with another body in one record is that of the frames with one of them changed. -/
theorem ofBytes_damage {framing : Framing} {frame frame' : Frame}
    (hdata : data = join format framing.frames ++ framing.tail)
    (htail : cut? format framing.tail = none) (hframe : framing.frames[n]? = some frame)
    (hheader : frame'.header = frame.header) :
    Framing.ofBytes format (data.take (framing.start format n + Header.length) ++ frame'.body ++
        data.drop (framing.start format n + frame.header.size.toNat)) =
      ⟨framing.frames.set n frame', framing.tail⟩ := by
  obtain ⟨hlt, hget⟩ := List.getElem?_eq_some_iff.mp hframe
  have hbehind : data.drop (framing.start format n + frame.header.size.toNat) =
      join format (framing.frames.drop (n + 1)) ++ framing.tail := by
    rw [← (drop_start hdata (n + 1)).2, start_succ framing format hlt, hget]
    rfl
  have hfront : data.take (framing.start format n + Header.length) =
      join format (framing.frames.take n) ++ frame'.header.encode format.order := by
    have hwhole : data =
        (join format (framing.frames.take n) ++ frame.header.encode format.order) ++
          (frame.body ++ join format (framing.frames.drop (n + 1)) ++ framing.tail) := by
      conv_lhs => rw [hdata, ← List.set_getElem_self hlt, hget, join_set hframe,
        ForeignRecord.encode_eq_append]
      simp only [List.append_assoc]
    rw [hheader, hwhole]
    apply List.take_left'
    rw [List.length_append, Header.length_encode]
    rfl
  rw [Framing.ofBytes_eq_iff, hfront, hbehind, join_set hframe, ForeignRecord.encode_eq_append]
  refine ⟨?_, htail⟩
  simp only [List.append_assoc]

/-- Another body in one record moves no record and changes no item but its own. -/
theorem damage_body (hrecord : (ofBytes format registry data).record? n = some (header, span))
    (hbody : Header.length + body.length = header.size.toNat) :
    let cursor := ofBytes format registry data
    let offset := (cursor.after n).offset
    let damaged := ofBytes format registry
      (data.take (offset + Header.length) ++ body ++ data.drop (offset + header.size.toNat))
    InStep cursor damaged ∧ ∀ m ≠ n, damaged.items[m]? = cursor.items[m]? := by
  intro cursor offset damaged
  obtain ⟨frame, hframe, rfl, -⟩ := record?_eq_some_iff.mp hrecord
  obtain ⟨hlt, hget⟩ := List.getElem?_eq_some_iff.mp hframe
  obtain ⟨hdata, htail⟩ := Framing.ofBytes_spec format data
  have hfits : Header.length + body.length ≤ Header.largestSize := by
    have hsize := frame.header.size.toNat_lt
    rw [hbody, Header.largestSize]
    omega
  let frame' : Frame := ⟨frame.header.recordType, body, hfits⟩
  have hheader : frame'.header = frame.header := ForeignRecord.header_mk hfits hbody
  have hoffset : offset = (Framing.ofBytes format data).start format n := by
    simp only [offset, cursor, after_ofBytes, Nat.min_eq_left hlt.le]
  have hdamaged : Framing.ofBytes format (data.take (offset + Header.length) ++ body ++
      data.drop (offset + frame.header.size.toNat)) =
        ⟨(Framing.ofBytes format data).frames.set n frame',
          (Framing.ofBytes format data).tail⟩ := by
    rw [hoffset]
    exact ofBytes_damage hdata htail hframe hheader
  have hheaders := map_header_set hframe hheader
  constructor
  · apply inStep_of_sameHeaders
    rw [hdamaged]
    exact ⟨hheaders, rfl, rfl⟩
  · intro m hm
    have hlength : (join format ((Framing.ofBytes format data).frames.set n frame')).length =
        (join format (Framing.ofBytes format data).frames).length := by
      rw [length_join, length_join, hheaders]
    have hitems : damaged.items = cursor.items.set n (registry.decodeFrame format frame') := by
      simp only [damaged, cursor, items_ofBytes, hdamaged, Framing.items, hlength, List.map_set]
      rw [List.set_append_left _ _ (by rwa [List.length_map])]
    rw [hitems, List.getElem?_set_ne (Ne.symm hm)]

/-- Another decoder under one code, or none, moves no record and changes the items of that code
only. -/
theorem change_decoder {code : UInt16}
    (hcode : ∀ other ≠ code, registry'.decoders.get? other = registry.decoders.get? other) :
    let cursor := ofBytes format registry data
    let changed := ofBytes format registry' data
    InStep cursor changed ∧
      ∀ n, (∀ header span, cursor.record? n = some (header, span) → header.recordType ≠ code) →
        changed.items[n]? = cursor.items[n]? := by
  intro cursor changed
  refine ⟨inStep_of_sameHeaders ⟨rfl, rfl, rfl⟩ registry registry', ?_⟩
  intro n hother
  have hsame : changed.record? n = cursor.record? n := by
    simp only [changed, cursor, record?_ofBytes]
  cases hrecord : cursor.record? n with
  | some record =>
    obtain ⟨header, span⟩ := record
    rw [hrecord] at hsame
    rw [item_of_record? hsame, item_of_record? hrecord,
      Registry.decode_congr (hcode _ (hother header span hrecord))]
  | none =>
    -- Behind the records there is nothing to decode.
    have hbehind : (Framing.ofBytes format data).frames.length ≤ n := by
      simpa [cursor, record?_ofBytes] using hrecord
    simp only [changed, cursor, items_ofBytes, Framing.items]
    rw [List.getElem?_append_right (by simpa using hbehind),
      List.getElem?_append_right (by simpa using hbehind), List.length_map, List.length_map]

end Changes

/-- Let two buffers be equally long and agree in the bytes that a walk over the one reads as
headers, and let the same order be meant in both. Then walks over them, with any decoders, come to
the same places, bring equally many items and end in the same way; and a record whose bytes, format
and decoder are the same comes out the same. So another body in one record changes nothing but that
record's item, and a decoder more or less nothing but the items of its code. -/
theorem walk_told_by_headers (format : WireFormat) (registry : Registry) (data : Bytes) :
    let cursor := ofBytes format registry data
    (∀ (format' : WireFormat) (registry' : Registry) (data' : Bytes),
      format'.order.resolved = format.order.resolved → data'.length = data.length →
      (∀ n, let offset := (cursor.after n).offset
        (data'.drop offset).take Header.length = (data.drop offset).take Header.length) →
      let cursor' := ofBytes format' registry' data'
      InStep cursor cursor' ∧
      (∃ count fault?, (∀ n, (cursor.record? n).isSome ↔ n < count) ∧
        Ends format data (cursor.after count).offset fault? ∧
        Ends format' data' (cursor'.after count).offset fault? ∧
        cursor.items.drop count = (fault?.map .error).toList ∧
        cursor'.items.drop count = (fault?.map .error).toList) ∧
      ∀ n header span, cursor.record? n = some (header, span) →
        let offset := (cursor.after n).offset
        let span' := (data'.drop offset).take header.size.toNat
        span = (data.drop offset).take header.size.toNat ∧
        cursor'.record? n = some (header, span') ∧
        cursor.items[n]? = some (registry.decode format header span) ∧
        cursor'.items[n]? = some (registry'.decode format' header span') ∧
        (format' = format → span' = span →
          registry'.decoders.get? header.recordType = registry.decoders.get? header.recordType →
          cursor'.items[n]? = cursor.items[n]?)) ∧
    (∀ n header span body, cursor.record? n = some (header, span) →
      Header.length + body.length = header.size.toNat →
      let offset := (cursor.after n).offset
      let damaged := ofBytes format registry
        (data.take (offset + Header.length) ++ body ++ data.drop (offset + header.size.toNat))
      InStep cursor damaged ∧ ∀ m ≠ n, damaged.items[m]? = cursor.items[m]?) ∧
    ∀ code registry',
      (registry' = (registry.unregister code).2 ∨
        ∃ decoder, registry' = (registry.register code decoder).2) →
      let changed := ofBytes format registry' data
      InStep cursor changed ∧
        ∀ n, (∀ header span, cursor.record? n = some (header, span) → header.recordType ≠ code) →
          changed.items[n]? = cursor.items[n]? := by
  intro cursor
  refine ⟨?_, fun n header span body => damage_body, ?_⟩
  · intro format' registry' data' horder hlength hheaders cursor'
    obtain ⟨hdata, htail⟩ := Framing.ofBytes_spec format data
    have hsame : Framing.SameHeaders (Framing.ofBytes format data)
        (Framing.ofBytes format' data') := by
      apply Framing.sameHeaders_ofBytes horder htail
      · rwa [← hdata]
      · intro index hindex offset
        have h := hheaders index
        simp only [cursor, after_ofBytes, Nat.min_eq_left hindex] at h
        rw [← hdata]
        exact h
    refine ⟨inStep_of_sameHeaders hsame registry registry',
      ends_congr horder hsame registry registry', ?_⟩
    intro n header span hrecord offset span'
    have hrecord' := record?_congr hsame registry' hrecord
    have hitem := item_of_record? hrecord
    have hitem' := item_of_record? hrecord'
    refine ⟨span_of_record? hrecord, hrecord', hitem, hitem', ?_⟩
    intro hformat hspan hdecoder
    rw [hitem, hitem', ← Registry.decode_congr hdecoder, hformat]
    exact congrArg (fun bytes => some (registry'.decode format header bytes)) hspan
  · rintro code registry' (rfl | ⟨decoder, rfl⟩)
    · apply change_decoder
      intro other hne
      exact (CodeMap.get?_erase ..).trans (if_neg hne)
    · apply change_decoder
      intro other hne
      exact (CodeMap.get?_insert ..).trans (if_neg hne)

/-- Other bodies, another table of families and no decoders at all: both walks come to a foreign
record, a sampler that is too short to be one, and a broken frame. -/
theorem walk_told_by_headers_of_other_bodies :
    let format : WireFormat := {}
    let format' : WireFormat := { order := .native, families := { inet6 := 28 } }
    let data : Bytes := [66, 66, 6, 0, 1, 2, 15, 0, 5, 0, 9, 15, 0, 24, 0, 7]
    let data' : Bytes := [66, 66, 6, 0, 3, 4, 15, 0, 5, 0, 8, 15, 0, 24, 0, 1]
    let cursor := ofBytes format .standard data
    let cursor' := ofBytes format' .empty data'
    format'.order.resolved = format.order.resolved ∧ data'.length = data.length ∧
      (∀ n, let offset := (cursor.after n).offset
        (data'.drop offset).take Header.length = (data.drop offset).take Header.length) ∧
      InStep cursor cursor' ∧ (cursor'.after 2).offset = 11 := by
  intro format format' data data' cursor cursor'
  let framing : Framing :=
    ⟨[⟨0x4242, [1, 2], by decide⟩, ⟨15, [9], by decide⟩], [15, 0, 24, 0, 7]⟩
  have hframing : Framing.ofBytes format data = framing :=
    Framing.ofBytes_eq_iff.mpr ⟨by decide, by decide⟩
  have hoffset (n : Nat) : (cursor.after n).offset = framing.start format (min n 2) := by
    simp only [cursor, after_ofBytes, hframing]
    rfl
  have hheaders : ∀ n, let offset := (cursor.after n).offset
      (data'.drop offset).take Header.length = (data.drop offset).take Header.length := by
    intro n
    have hcases : min n 2 = 0 ∨ min n 2 = 1 ∨ min n 2 = 2 := by omega
    simp only [hoffset]
    rcases hcases with h | h | h
    all_goals
      rw [h]
      decide
  obtain ⟨hstep, -⟩ :=
    (walk_told_by_headers format .standard data).1 format' .empty data' rfl rfl hheaders
  refine ⟨rfl, rfl, hheaders, hstep, ?_⟩
  rw [hstep.offset, hoffset]
  decide

end Cursor

end Stream

end ExporterRecords
