import ExporterRecords.Proofs.Settled

/-!
# Tables of families

An exporter that was written under one table of families may be read under another. The code that
stands beside the packed address is then looked up in the table of the reader. Either that table does
not know the code and says so, or the block is read as an address of the family that has the code
there. No other field depends on a table, so nothing but the address can be damaged.
-/
namespace ExporterRecords

namespace Address.Family

/-- The family that this one is not. -/
def other : Family → Family
  | inet => inet6
  | inet6 => inet

theorem other_ne (family : Family) : family.other ≠ family := by
  cases family <;> nofun

end Address.Family

/-- A code that a table knows belongs to the one family or to the other. -/
theorem FamilyCodes.code_other_of_ne {codes : FamilyCodes} {code : UInt16}
    {family : Address.Family} (hknown : code = codes.inet ∨ code = codes.inet6)
    (hne : codes.code family ≠ code) : codes.code family.other = code := by
  rcases hknown with rfl | rfl
  · cases family with
    | inet => exact absurd rfl hne
    | inet6 => rfl
  · cases family with
    | inet => rfl
    | inet6 => exact absurd rfl hne

namespace Exporter

open BodyReader

variable {source target : WireFormat} {block : PackedAddress} {exporter : Exporter}

/-- Fields that were written under one table are all read under another; the block is then looked at
under the family that the other table has for the code. -/
theorem read_of_takes {input out : BodyInput} (htarget : target.validate = .ok ())
    (h : input.Takes (exporter.fieldsWith source block) out) :
    read target input = (block.decode target.order target.families
      (source.families.code exporter.family)).map fun address => ({ exporter with address }, out) := by
  simp only [fieldsWith, BodyInput.takes_cons_cons] at h
  obtain ⟨m₁, hversion, m₂, hblock, m₃, hcode, m₄, hsysid, hid⟩ := h
  have hraw : raw PackedAddress.length m₁ = .ok (⟨block.bytes, block.length_eq⟩, m₂) :=
    raw_eq_ok_iff.mpr hblock
  rw [read, bind_of_ok (lift_eq_ok_iff.mpr ⟨htarget, rfl⟩),
    bind_of_ok (u32_eq_ok_iff.mpr hversion), bind_of_ok hraw,
    bind_of_ok (u16_eq_ok_iff.mpr hcode), bind_of_ok (u16_eq_ok_iff.mpr hsysid),
    bind_of_ok (u32_eq_ok_iff.mpr hid)]
  cases block.decode target.order target.families (source.families.code exporter.family) <;> rfl

theorem decodeBody_fieldsWith (htarget : target.validate = .ok ()) (block : PackedAddress)
    (exporter : Exporter) :
    Layout.decodeBody target (Field.encodeAll target.order (exporter.fieldsWith source block)) =
      (block.decode target.order target.families (source.families.code exporter.family)).map
        fun address => ({ exporter with address }, 28) := by
  obtain ⟨htakes, -⟩ := (@BodyInput.takes_ofBody_iff (Layout.code Exporter) target.order).mpr
    ⟨Eq.refl (Field.encodeAll target.order (exporter.fieldsWith source block)), rfl⟩
  have hread : (Layout.readBody target : BodyReader Exporter) _ = _ := read_of_takes htarget htakes
  rw [Layout.decodeBody, StateT.run, hread, Field.length_encodeAll, widthAll_fieldsWith]
  cases block.decode target.order target.families (source.families.code exporter.family) <;> rfl

/-- What comes of an exporter that is read under another table than it was written under. -/
theorem decode_of_other_table (order : ByteOrder) {written known : FamilyCodes}
    (hwritten : written.inet ≠ written.inet6) (hknown : known.inet ≠ known.inet6)
    (exporter : Exporter) :
    ∃ bytes, Layout.encode ⟨order, written⟩ exporter = .ok bytes ∧
      Layout.decode ⟨order, known⟩ bytes =
        ((PackedAddress.pack order exporter.address).decode order known
          (written.code exporter.family)).map fun address => { exporter with address } := by
  let source : WireFormat := ⟨order, written⟩
  let target : WireFormat := ⟨order, known⟩
  have hsource : source.validate = .ok () := FamilyCodes.validate_eq_ok_iff.mpr hwritten
  have htarget : target.validate = .ok () := FamilyCodes.validate_eq_ok_iff.mpr hknown
  have hbody := encodeBody_of_validate hsource exporter
  have hlength := length_of_encodeBody hbody
  have hfits := lawful.encodedLength_le exporter trivial
  rw [Layout.encodedLength, ← hlength] at hfits
  let frame : Stream.Frame := ⟨Layout.code Exporter, _, hfits⟩
  have hminimum : Layout.minimumSize Exporter ≤ frame.size.toNat := by
    rw [frame.toNat_size, hlength]
    exact lawful.minimumSize_le exporter
  -- A frame is written alike under both tables.
  have hwhole : Layout.Outcome target (frame.encode source)
      (Layout.decodeFramed target frame.header (frame.encode target) : Except Fault Exporter) :=
    .whole (List.append_nil _).symm rfl hminimum
  refine ⟨frame.encode source, Layout.encode_eq_frame rfl hlength hbody, ?_⟩
  have hread : (Layout.decodeBody target frame.body : Except Fault (Exporter × Nat)) = _ :=
    decodeBody_fieldsWith htarget (.pack order exporter.address) exporter
  rw [hwhole.decode_eq, Layout.decodeFramed_frame, if_neg (Nat.not_lt.mpr hminimum), hread]
  cases (PackedAddress.pack order exporter.address).decode order known
    (written.code exporter.family) with
  | error fault => rfl
  | ok address => exact if_pos hlength.symm

theorem map_address_eq_error_iff {outcome : Except Fault Address} {fault : Fault} :
    (outcome.map fun address => { exporter with address }) = .error fault ↔
      outcome = .error fault := by
  cases outcome <;> simp [Except.map]

theorem map_address_eq_ok_self_iff {outcome : Except Fault Address} :
    (outcome.map fun address => { exporter with address }) = .ok exporter ↔
      outcome = .ok exporter.address := by
  cases exporter
  cases outcome <;> simp [Except.map]

/-- A table that does not know the code under which an exporter was written refuses the exporter and
names the code, one that has it for the same family gives the exporter back, and one that has it for
the other family shows another address and nothing else that differs. -/
theorem decode_by_table (order : ByteOrder) (written known : FamilyCodes)
    (hwritten : written.inet ≠ written.inet6) (hknown : known.inet ≠ known.inet6)
    (exporter : Exporter) :
    let code := written.code exporter.family
    ∃ (bytes : Bytes) (outcome : Except Fault Exporter),
      Layout.encode ⟨order, written⟩ exporter = .ok bytes ∧
      Layout.decode ⟨order, known⟩ bytes = outcome ∧
      (outcome = .error (.invalidFamily code) ↔ code ≠ known.inet ∧ code ≠ known.inet6) ∧
      (outcome = .ok exporter ↔ known.code exporter.family = code) ∧
      (code = known.inet ∨ code = known.inet6 → known.code exporter.family ≠ code →
        known.code exporter.family.other = code ∧
        ∃ misread : Exporter, outcome = .ok misread ∧ misread.version = exporter.version ∧
          misread.sysid = exporter.sysid ∧ misread.id = exporter.id ∧
          misread.family = exporter.family.other ∧
          misread.address = (PackedAddress.pack order exporter.address).unpack order
            exporter.family.other ∧
          misread ≠ exporter) := by
  intro code
  obtain ⟨bytes, hencode, hdecode⟩ := decode_of_other_table order hwritten hknown exporter
  refine ⟨bytes, _, hencode, hdecode, ?_, ?_, ?_⟩
  · rw [map_address_eq_error_iff, PackedAddress.decode_eq_error_iff,
      FamilyCodes.family_eq_error_iff]
    exact and_iff_left rfl
  · rw [map_address_eq_ok_self_iff, PackedAddress.decode_eq_ok_iff hknown, eq_comm]
    exact and_iff_left (PackedAddress.unpack_pack order exporter.address)
  · intro hforeign hne
    have hother := FamilyCodes.code_other_of_ne hforeign hne
    let address := (PackedAddress.pack order exporter.address).unpack order exporter.family.other
    have hfamily : address.family = exporter.family.other := PackedAddress.family_unpack ..
    have haddress : (PackedAddress.pack order exporter.address).decode order known code =
        .ok address := by
      rw [PackedAddress.decode_eq_ok_iff hknown, hfamily]
      exact ⟨hother.symm, rfl⟩
    refine ⟨hother, _, congrArg (Except.map _) haddress, rfl, rfl, rfl, hfamily, rfl, ?_⟩
    intro heq
    apply exporter.family.other_ne
    exact hfamily.symm.trans (congrArg Exporter.family heq)

/-- A table with the two codes exchanged takes a short address for a long one. -/
theorem decode_by_table_of_exchanged :
    let written : FamilyCodes := ⟨2, 10⟩
    let known : FamilyCodes := ⟨10, 2⟩
    let exporter : Exporter := ⟨9, .v4 0xc0000201, 3, 7⟩
    written.inet ≠ written.inet6 ∧ known.inet ≠ known.inet6 ∧
      (written.code exporter.family = known.inet ∨ written.code exporter.family = known.inet6) ∧
      known.code exporter.family ≠ written.code exporter.family ∧
      ∃ bytes misread, Layout.encode ⟨.little, written⟩ exporter = .ok bytes ∧
        Layout.decode ⟨.little, known⟩ bytes = .ok misread ∧
        misread.address = .v6 0 0xc0000201 ∧ misread ≠ exporter := by
  intro written known exporter
  have hwritten : written.inet ≠ written.inet6 := by decide
  have hknown : known.inet ≠ known.inet6 := by decide
  have hforeign : written.code exporter.family = known.inet ∨
      written.code exporter.family = known.inet6 := by decide
  have hne : known.code exporter.family ≠ written.code exporter.family := by decide
  obtain ⟨bytes, _, hencode, rfl, -, -, hother⟩ :=
    decode_by_table .little written known hwritten hknown exporter
  obtain ⟨-, misread, hread, -, -, -, -, haddress, hdiffers⟩ := hother hforeign hne
  refine ⟨hwritten, hknown, hforeign, hne, bytes, misread, hencode, hread, ?_, hdiffers⟩
  exact haddress.trans (by decide)

end Exporter

end ExporterRecords
