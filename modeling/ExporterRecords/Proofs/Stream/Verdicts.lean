import ExporterRecords.Proofs.Faults
import ExporterRecords.Proofs.Stream.Headers

/-!
# What a walk finds wrong

An item of a walk that is a fault says one of two things. Either the framing of the buffer is
broken: then the item is the last one, and the walk stays in front of what it could not frame. Or a
whole record is refused by the decoder of its kind, and the walk goes on behind the record. Which of
the two is told by the fault, and no fault puts the blame on the caller.
-/
namespace ExporterRecords

namespace Fault

/-- Whether the framing of a buffer is broken. A size breaks it only if it does not count the header
in; one that is too small for a kind does not. -/
def breaksFraming : Fault → Bool
  | truncatedHeader .. | truncatedStream .. => true
  | invalidSize _ _ minimum => minimum = Header.length
  | _ => false

/-- Whether the bytes that are read are to blame, and not who called the reader, how the reader was
set up, or what carries the bytes. -/
def blamesBytes : Fault → Bool
  | countMismatch .. | recordTooLarge .. | unexpectedKind .. | configuration .. |
    transport .. => false
  | _ => true

theorem isCallerMistake_of_blamesBytes {fault : Fault} (h : fault.blamesBytes = true) :
    fault.isCallerMistake = false := by
  cases fault <;> first | rfl | cases h

end Fault

theorem Stream.Ends.breaksFraming_eq {format : WireFormat} {data : Bytes} {offset : Nat}
    {fault : Fault} (h : Ends format data offset (some fault)) : fault.breaksFraming = true := by
  cases h <;> rfl

theorem Stream.Ends.blamesBytes_eq {format : WireFormat} {data : Bytes} {offset : Nat}
    {fault : Fault} (h : Ends format data offset (some fault)) : fault.blamesBytes = true := by
  cases h <;> rfl

namespace MetadataKind

variable {kind : MetadataKind} {format : WireFormat} {frame : Stream.Frame} {fault : Fault}

theorem Refuses.breaksFraming_eq (h : kind.Refuses format frame fault) :
    fault.breaksFraming = false := by
  cases h with
  | small => exact decide_eq_false (Nat.ne_of_gt kind.headerLength_lt_minimumSize)
  | long => rfl
  | body _ hbad =>
    cases hbad with
    | table hformat =>
      obtain ⟨-, rfl⟩ := FamilyCodes.validate_eq_error_iff.mp hformat
      rfl
    | family | room | selector => rfl

/-- A record is to blame for whatever it is refused for, unless the table of families is. -/
theorem Refuses.blamesBytes_or (h : kind.Refuses format frame fault) :
    fault.blamesBytes = true ∨ format.validate = .error fault := by
  cases h with
  | small | long => exact .inl rfl
  | body _ hbad =>
    cases hbad with
    | table hformat => exact .inr hformat
    | family | room | selector => exact .inl rfl

theorem Refuses.isCallerMistake_eq (h : kind.Refuses format frame fault) :
    fault.isCallerMistake = false := by
  rcases h.blamesBytes_or with hbytes | hformat
  · exact Fault.isCallerMistake_of_blamesBytes hbytes
  · obtain ⟨-, rfl⟩ := FamilyCodes.validate_eq_error_iff.mp hformat
    rfl

theorem Refuses.blamesBytes_eq (h : kind.Refuses format frame fault)
    (hfamilies : format.families.inet ≠ format.families.inet6) : fault.blamesBytes = true :=
  h.blamesBytes_or.resolve_right fun hformat =>
    hfamilies (FamilyCodes.validate_eq_error_iff.mp hformat).1

end MetadataKind

namespace Stream.Cursor

variable {format : WireFormat} {registry : Registry} {data : Bytes} {n : Nat} {fault : Fault}

/-- The record of a walk is a frame exactly if it is written like one. -/
theorem record?_eq_frame_iff {frame : Frame} :
    (ofBytes format registry data).record? n = some (frame.header, frame.encode format) ↔
      (Framing.ofBytes format data).frames[n]? = some frame := by
  rw [record?_eq_some_iff]
  constructor
  · rintro ⟨other, hother, -, hencode⟩
    rw [hother, Frame.encode_inj.mp hencode]
  · intro hframe
    exact ⟨frame, hframe, rfl, rfl⟩

/-- A walk brings a fault for a frame that the registry finds bad, or behind all frames. -/
theorem cases_of_fault (h : (ofBytes format registry data).items[n]? = some (.error fault)) :
    (∃ frame, (Framing.ofBytes format data).frames[n]? = some frame ∧
      registry.decodeFrame format frame = .error fault) ∨
    (n = (Framing.ofBytes format data).frames.length ∧
      (ofBytes format registry data).items.length = n + 1 ∧
      Ends format data ((ofBytes format registry data).after n).offset (some fault)) := by
  cases hframe : (Framing.ofBytes format data).frames[n]? with
  | some frame =>
    rw [item_of_record? (record?_eq_frame_iff.mpr hframe), Option.some.injEq] at h
    exact .inl ⟨frame, rfl, h⟩
  | none =>
    rw [List.getElem?_eq_none_iff] at hframe
    obtain ⟨hends, hbehind⟩ := items_behind_records format registry data
    obtain ⟨more, rfl⟩ := Nat.exists_eq_add_of_le hframe
    rw [← List.getElem?_drop, hbehind] at h
    generalize Frame.breakage? format _ _ = fault? at h hends hbehind
    cases fault? with
    | none => cases h
    | some other =>
      cases more with
      | zero =>
        cases h
        have hlast := congrArg List.length hbehind
        rw [List.length_drop, Option.map_some, Option.toList_some, List.length_singleton] at hlast
        exact .inr ⟨rfl, by omega, hends⟩
      | succ more => cases h

/-- The request for a record leaves the walk behind the record. -/
theorem after_succ_of_frame {frame : Frame} (registry : Registry)
    (h : (Framing.ofBytes format data).frames[n]? = some frame) :
    ((ofBytes format registry data).after (n + 1)).finished = false ∧
      ((ofBytes format registry data).after (n + 1)).offset =
        ((ofBytes format registry data).after n).offset + frame.size.toNat := by
  obtain ⟨hlt, rfl⟩ := List.getElem?_eq_some_iff.mp h
  rw [after_ofBytes, after_ofBytes, Nat.min_eq_left hlt, Nat.min_eq_left (Nat.le_of_lt hlt)]
  exact ⟨decide_eq_false (Nat.not_lt.mpr hlt), Framing.start_succ _ format hlt⟩

/-- The request behind all records ends the walk where it is. -/
theorem after_succ_of_tail (format : WireFormat) (registry : Registry) (data : Bytes) :
    let count := (Framing.ofBytes format data).frames.length
    ((ofBytes format registry data).after (count + 1)).finished = true ∧
      ((ofBytes format registry data).after (count + 1)).offset =
        ((ofBytes format registry data).after count).offset := by
  intro count
  rw [after_ofBytes, after_ofBytes, Nat.min_eq_right (Nat.le_succ _), Nat.min_self]
  exact ⟨decide_eq_true (Nat.lt_succ_self _), rfl⟩

theorem framing_of_families (format : WireFormat) (families : FamilyCodes) (data : Bytes) :
    Framing.ofBytes { format with families } data = Framing.ofBytes format data :=
  Framing.ofBytes_eq_iff.mpr (Framing.ofBytes_spec format data)

/-- Where records start does not depend on the table of families. -/
theorem inStep_of_families (format : WireFormat) (registry : Registry) (families : FamilyCodes)
    (data : Bytes) :
    InStep (ofBytes { format with families } registry data) (ofBytes format registry data) ∧
      ∀ n, (ofBytes { format with families } registry data).record? n =
        (ofBytes format registry data).record? n := by
  have hframing := framing_of_families format families data
  constructor
  · apply inStep_of_sameHeaders
    rw [hframing]
    exact ⟨rfl, rfl, rfl⟩
  · intro n
    rw [record?_ofBytes, record?_ofBytes, hframing]
    rfl

/-- Only the exporters that are large enough are looked up in the table of families. -/
theorem decodeFrame_of_families (format : WireFormat) (families : FamilyCodes) (frame : Frame)
    (h : frame.recordType = MetadataKind.exporter.code →
      frame.size.toNat < MetadataKind.exporter.minimumSize) :
    Registry.standard.decodeFrame { format with families } frame =
      Registry.standard.decodeFrame format frame := by
  rw [Registry.standard_eq_ofKinds]
  cases hkind : Registry.kindUnder? Registry.ownCodes frame.recordType with
  | none =>
    rw [Registry.decodeFrame_ofKinds_eq_foreign hkind,
      Registry.decodeFrame_ofKinds_eq_foreign hkind]
  | some kind =>
    rw [Registry.decodeFrame_ofKinds hkind, Registry.decodeFrame_ofKinds hkind]
    cases kind with
    | exporter =>
      have hsmall := h (Registry.kindUnder?_ownCodes_iff.mp hkind)
      rw [MetadataKind.decoder_eq_error_iff.mpr (.small hsmall),
        MetadataKind.decoder_eq_error_iff.mpr (.small hsmall)]
    | counters | sampler => rfl

theorem getElem?_items_of_families (format : WireFormat) (families : FamilyCodes)
    (h : ∀ frame, (Framing.ofBytes format data).frames[n]? = some frame →
      frame.recordType = MetadataKind.exporter.code →
        frame.size.toNat < MetadataKind.exporter.minimumSize) :
    (ofBytes { format with families } .standard data).items[n]? =
      (ofBytes format .standard data).items[n]? := by
  rw [items_ofBytes, items_ofBytes, framing_of_families, Framing.items, Framing.items]
  rcases Nat.lt_or_ge n (Framing.ofBytes format data).frames.length with hlt | hge
  · have hframe := List.getElem?_eq_getElem hlt
    rw [List.getElem?_append_left (by rwa [List.length_map]),
      List.getElem?_append_left (by rwa [List.length_map]), List.getElem?_map, List.getElem?_map,
      hframe, Option.map_some, Option.map_some, decodeFrame_of_families _ _ _ (h _ hframe)]
  · rw [List.getElem?_append_right (by rwa [List.length_map]),
      List.getElem?_append_right (by rwa [List.length_map]), List.length_map, List.length_map]
    rfl

/-- An exporter that is large enough is refused for the table of families if the table does not tell
them apart, whatever its bytes are. -/
theorem item_of_colliding {header : Header} {span : Bytes}
    (hcolliding : format.families.inet = format.families.inet6)
    (hrecord : (ofBytes format .standard data).record? n = some (header, span))
    (hcode : header.recordType = MetadataKind.exporter.code)
    (hminimum : MetadataKind.exporter.minimumSize ≤ header.size.toNat) :
    (ofBytes format .standard data).items[n]? = some (.error (.configuration
      s!"address family codes must differ, both are {format.families.inet}")) := by
  obtain ⟨frame, hframe, rfl, rfl⟩ := record?_eq_some_iff.mp hrecord
  have hformat := FamilyCodes.validate_eq_error_iff.mpr ⟨hcolliding, rfl⟩
  rw [item_of_record? hrecord, Option.some.injEq]
  exact Registry.standard_decodeFrame_eq_error_iff.mpr
    ⟨.exporter, hcode, .body hminimum (.table hformat)⟩

/-- A walk stops exactly at a fault of the framing, which is then its last item; any other fault is
the verdict of a kind on a record of its code, and the walk goes on behind that record. No fault
blames the caller, and all blame the bytes if the table of families tells them apart. If it does
not, only exporters suffer: each that is large enough is refused for the table, and every other item
is the one that any other table brings. -/
theorem faults_of_walk (format : WireFormat) (data : Bytes) :
    let cursor := ofBytes format .standard data
    (∀ n fault, cursor.items[n]? = some (.error fault) →
      let before := cursor.after n
      let behind := cursor.after (n + 1)
      (fault.breaksFraming = true ↔ behind.finished = true) ∧
      (fault.breaksFraming = true →
        n + 1 = cursor.items.length ∧ behind.offset = before.offset ∧
          Ends format data before.offset (some fault)) ∧
      (fault.breaksFraming = false → ∃ (kind : MetadataKind) (frame : Frame),
        cursor.record? n = some (frame.header, frame.encode format) ∧
        behind.offset = before.offset + frame.size.toNat ∧
        frame.recordType = kind.code ∧ kind.Refuses format frame fault) ∧
      fault.isCallerMistake = false ∧
      (format.families.inet ≠ format.families.inet6 → fault.blamesBytes = true)) ∧
    (format.families.inet = format.families.inet6 → ∀ families : FamilyCodes,
      let other := ofBytes { format with families } .standard data
      InStep other cursor ∧ (∀ n, other.record? n = cursor.record? n) ∧
      (∀ n header span, cursor.record? n = some (header, span) →
        header.recordType = MetadataKind.exporter.code →
        MetadataKind.exporter.minimumSize ≤ header.size.toNat →
        cursor.items[n]? = some (.error (.configuration
          s!"address family codes must differ, both are {format.families.inet}"))) ∧
      ∀ n, (∀ header span, cursor.record? n = some (header, span) →
          header.recordType = MetadataKind.exporter.code →
          header.size.toNat < MetadataKind.exporter.minimumSize) →
        cursor.items[n]? = other.items[n]?) := by
  intro cursor
  constructor
  · intro n fault hitem before behind
    rcases cases_of_fault hitem with ⟨frame, hframe, hfault⟩ | ⟨rfl, hlast, hends⟩
    · obtain ⟨kind, hcode, hrefuses⟩ := Registry.standard_decodeFrame_eq_error_iff.mp hfault
      obtain ⟨hlive, hoffset⟩ := after_succ_of_frame .standard hframe
      have hgoes : fault.breaksFraming = false := hrefuses.breaksFraming_eq
      refine ⟨?_, fun hbreaks => ?_, fun _ => ?_, hrefuses.isCallerMistake_eq,
        hrefuses.blamesBytes_eq⟩
      · rw [hgoes, hlive]
      · rw [hgoes] at hbreaks
        cases hbreaks
      · exact ⟨kind, frame, record?_eq_frame_iff.mpr hframe, hoffset, hcode, hrefuses⟩
    · obtain ⟨hfinished, hoffset⟩ := after_succ_of_tail format .standard data
      have hends' : fault.breaksFraming = true := hends.breaksFraming_eq
      have hbytes : fault.blamesBytes = true := hends.blamesBytes_eq
      refine ⟨iff_of_true hends' hfinished, fun _ => ⟨hlast.symm, hoffset, hends⟩, fun hgoes => ?_,
        Fault.isCallerMistake_of_blamesBytes hbytes, fun _ => hbytes⟩
      rw [hends'] at hgoes
      cases hgoes
  · intro hcolliding families other
    obtain ⟨hstep, hrecord⟩ := inStep_of_families format .standard families data
    refine ⟨hstep, hrecord, fun n header span => item_of_colliding hcolliding, ?_⟩
    intro n hsmall
    exact (getElem?_items_of_families format families fun frame hframe hcode =>
      hsmall _ _ (record?_eq_frame_iff.mpr hframe) hcode).symm

/-- An exporter that is too small, a foreign record, counters without room for their snapshot, and a
header that does not count itself in; and an exporter for which the table of families is no use. -/
theorem faults_of_walk_of_mixed :
    let data : Bytes := [7, 0, 5, 0, 9, 66, 66, 4, 0, 8, 0, 8, 0, 1, 0, 0, 0, 15, 0, 3, 0]
    let cursor := ofBytes {} .standard data
    let colliding : WireFormat := { families := { inet := 2, inet6 := 2 } }
    let exporter : Bytes := [7, 0, 32, 0] ++ List.replicate 28 0
    cursor.items[2]? = some (.error (.truncatedBody 8 28 4)) ∧
      (cursor.after 3).finished = false ∧ (cursor.after 3).offset = 17 ∧
      cursor.items[3]? = some (.error (.invalidSize 15 3 4)) ∧
      (cursor.after 4).finished = true ∧ (cursor.after 4).offset = 17 ∧
      (ofBytes colliding .standard exporter).items[0]? =
        some (.error (.configuration "address family codes must differ, both are 2")) := by
  intro data cursor colliding exporter
  have hframing : Framing.ofBytes {} data =
      ⟨[⟨7, [9], by decide⟩, ⟨0x4242, [], by decide⟩, ⟨8, [1, 0, 0, 0], by decide⟩],
        [15, 0, 3, 0]⟩ :=
    Framing.ofBytes_eq_iff.mpr ⟨by decide, by decide⟩
  have hoffset (n : Nat) : (cursor.after n).offset =
      (Framing.ofBytes {} data).start {} (min n 3) := by
    simp only [cursor, after_ofBytes, hframing]
    rfl
  have hcounters : cursor.items[2]? = some (.error (.truncatedBody 8 28 4)) := by
    simp only [cursor, items_ofBytes, hframing]
    rfl
  have hheader : cursor.items[3]? = some (.error (.invalidSize 15 3 4)) := by
    simp only [cursor, items_ofBytes, hframing]
    rfl
  have hexporter : (ofBytes colliding .standard exporter).record? 0 = some (⟨7, 32⟩, exporter) := by
    have hwhole : Framing.ofBytes colliding exporter =
        ⟨[⟨7, List.replicate 28 0, by decide⟩], []⟩ :=
      Framing.ofBytes_eq_iff.mpr ⟨by decide, rfl⟩
    rw [record?_ofBytes, hwhole]
    rfl
  obtain ⟨hgoes, -⟩ := (faults_of_walk {} data).1 2 _ hcounters
  obtain ⟨hends, -⟩ := (faults_of_walk {} data).1 3 _ hheader
  refine ⟨hcounters, ?_, ?_, hheader, hends.mp rfl, ?_, ?_⟩
  · exact Bool.eq_false_iff.mpr fun hfinished => Bool.false_ne_true (hgoes.mpr hfinished)
  · rw [hoffset, hframing]
    decide
  · rw [hoffset, hframing]
    decide
  · have htext : s!"address family codes must differ, both are {(2 : UInt16)}" =
        "address family codes must differ, both are 2" := by rfl
    rw [← htext]
    exact ((faults_of_walk colliding exporter).2 rfl {}).2.2.1 0 _ _ hexporter rfl (by decide)

end Stream.Cursor

end ExporterRecords
