import ExporterRecords.Proofs.Stream.Verdicts

/-!
# Whose fault it is

A fault that speaks of a record names the code of the record. Under a registry that holds kinds
under other codes than their own this is the code that the header at that place has, with one
exception: a list of snapshots that is cut short is always reported under the code of counters.
-/
namespace ExporterRecords

/-- The code of the record of which a fault speaks. -/
def Fault.recordType? : Fault → Option UInt16
  | truncatedBody recordType .. | truncatedStream recordType .. | invalidSize recordType .. |
    sizeMismatch recordType .. | recordTooLarge recordType .. => some recordType
  | _ => none

namespace Registry

variable {registrations : List (UInt16 × MetadataKind)} {format : WireFormat} {frame : Stream.Frame}
  {fault : Fault} {code : UInt16}

/-- A frame that is read as counters though its code is another one, and has no room for the
snapshots that it announces. -/
def Misnames (registrations : List (UInt16 × MetadataKind)) (format : WireFormat)
    (frame : Stream.Frame) : Prop :=
  kindUnder? registrations frame.recordType = some .counters ∧
    frame.recordType ≠ MetadataKind.counters.code ∧
    MetadataKind.counters.minimumSize ≤ frame.size.toNat ∧
    frame.body.length < MetadataKind.bodyLength format frame.body .counters

/-- The fault of a list of snapshots for which there is no room. -/
def shortage (format : WireFormat) (frame : Stream.Frame) : Fault :=
  .truncatedBody MetadataKind.counters.code (MetadataKind.bodyLength format frame.body .counters)
    frame.body.length

theorem recordType_eq_or_misnames
    (h : (ofKinds registrations).decodeFrame format frame = .error fault)
    (hcode : fault.recordType? = some code) :
    code = frame.recordType ∨ Misnames registrations format frame := by
  obtain ⟨kind, hkind, hrefuses⟩ := decodeFrame_eq_error_iff.mp h
  cases hrefuses with
  | small | long =>
    cases hcode
    exact .inl rfl
  | body hminimum hbad =>
    cases hbad with
    | room hroom =>
      by_cases hown : frame.recordType = MetadataKind.counters.code
      · cases hcode
        exact .inl hown.symm
      · exact .inr ⟨hkind, hown, hminimum, hroom⟩
    | table hformat =>
      obtain ⟨-, rfl⟩ := FamilyCodes.validate_eq_error_iff.mp hformat
      cases hcode
    | family | selector => cases hcode

theorem decodeFrame_of_misnames (h : Misnames registrations format frame) :
    (ofKinds registrations).decodeFrame format frame = .error (shortage format frame) := by
  obtain ⟨hkind, -, hminimum, hroom⟩ := h
  exact decodeFrame_eq_error_iff.mpr ⟨.counters, hkind, .body hminimum (.room hroom)⟩

end Registry

namespace Stream

/-- What is wrong with the framing of a buffer names the header there, if there is one. -/
theorem Ends.exists_header {format : WireFormat} {data : Bytes} {offset : Nat} {fault : Fault}
    {code : UInt16} (h : Ends format data offset (some fault))
    (hcode : fault.recordType? = some code) :
    ∃ header, Header.decode format.order (data.drop offset) = .ok header ∧
      header.recordType = code := by
  cases h with
  | shortHeader => cases hcode
  | impossible hdecode | shortBody hdecode => exact ⟨_, hdecode, Option.some.inj hcode⟩

namespace Cursor

variable {format : WireFormat} {registry : Registry} {data : Bytes} {n : Nat}

/-- Where a walk comes to a record, it stands in front of the record's header. -/
theorem decode_at_record {frame : Frame} (registry : Registry)
    (h : (Framing.ofBytes format data).frames[n]? = some frame) :
    Header.decode format.order (data.drop ((ofBytes format registry data).after n).offset) =
      .ok frame.header := by
  obtain ⟨hlt, rfl⟩ := List.getElem?_eq_some_iff.mp h
  obtain ⟨hdata, -⟩ := Framing.ofBytes_spec format data
  have hdrop := (Framing.drop_start hdata n).2
  rw [List.drop_eq_getElem_cons hlt, Frame.join_cons, List.append_assoc] at hdrop
  rw [after_ofBytes, Nat.min_eq_left (Nat.le_of_lt hlt), hdrop]
  exact ForeignRecord.decode_encode_append ..

/-- Under any registry of kinds, a fault that names the code of a record names the one in the header
at that place, unless counters under a foreign code are cut short. Whenever they are, the fault
names the code of counters. -/
theorem faults_name_records (registrations : List (UInt16 × MetadataKind)) (format : WireFormat)
    (data : Bytes) :
    let cursor := ofBytes format (.ofKinds registrations) data
    (∀ n fault code, cursor.items[n]? = some (.error fault) → fault.recordType? = some code →
      ∃ header, Header.decode format.order (data.drop (cursor.after n).offset) = .ok header ∧
        (code ≠ header.recordType ↔ ∃ frame : Frame,
          cursor.record? n = some (frame.header, frame.encode format) ∧
            Registry.Misnames registrations format frame)) ∧
    ∀ n (frame : Frame), cursor.record? n = some (frame.header, frame.encode format) →
      Registry.Misnames registrations format frame →
        cursor.items[n]? = some (.error (Registry.shortage format frame)) := by
  intro cursor
  constructor
  · intro n fault code hitem hcode
    rcases cases_of_fault hitem with ⟨frame, hframe, hfault⟩ | ⟨hbehind, -, hends⟩
    · refine ⟨frame.header, decode_at_record _ hframe, ?_⟩
      constructor
      · intro hne
        exact ⟨frame, record?_eq_frame_iff.mpr hframe,
          (Registry.recordType_eq_or_misnames hfault hcode).resolve_left hne⟩
      · rintro ⟨other, hrecord, hmisnames⟩
        have hother := record?_eq_frame_iff.mp hrecord
        rw [hframe, Option.some.injEq] at hother
        subst hother
        rw [Registry.decodeFrame_of_misnames hmisnames] at hfault
        cases hfault
        cases hcode
        exact Ne.symm hmisnames.2.1
    · obtain ⟨header, hdecode, rfl⟩ := hends.exists_header hcode
      refine ⟨header, hdecode, iff_of_false (fun hne => hne rfl) ?_⟩
      -- There is no record behind the last one.
      rintro ⟨frame, hrecord, -⟩
      obtain ⟨hlt, -⟩ := List.getElem?_eq_some_iff.mp (record?_eq_frame_iff.mp hrecord)
      exact Nat.lt_irrefl _ (hbehind ▸ hlt)
  · intro n frame hrecord hmisnames
    rw [item_of_record? hrecord, Option.some.injEq]
    exact Registry.decodeFrame_of_misnames hmisnames

/-- Counters under code eleven that announce one snapshot and hold none: the fault names code
eight. -/
theorem faults_name_records_except :
    let registrations := (11, MetadataKind.counters) :: Registry.ownCodes
    let data : Bytes := [11, 0, 8, 0, 1, 0, 0, 0]
    let cursor := ofBytes {} (.ofKinds registrations) data
    let fault : Fault := .truncatedBody 8 28 4
    cursor.items[0]? = some (.error fault) ∧ fault.recordType? = some 8 ∧
      (cursor.after 0).offset = 0 ∧ Header.decode .little (data.drop 0) = .ok ⟨11, 8⟩ ∧
      (8 : UInt16) ≠ 11 := by
  intro registrations data cursor fault
  have hframing : Framing.ofBytes {} data = ⟨[⟨11, [1, 0, 0, 0], by decide⟩], []⟩ :=
    Framing.ofBytes_eq_iff.mpr ⟨by decide, rfl⟩
  refine ⟨?_, rfl, rfl, rfl, by decide⟩
  simp only [cursor, items_ofBytes, hframing]
  rfl

end Cursor

end Stream

end ExporterRecords
