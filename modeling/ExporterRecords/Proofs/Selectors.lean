import ExporterRecords.Proofs.Settled

/-!
# Selectors that are written

A selector travels as a number, and a reserved number can be given in two ways: by its name, or as
if a device had assigned it. The writer refuses what is below all reserved numbers and looks at
nothing but the number. So it writes both forms alike, and a reader gets the name.
-/
namespace ExporterRecords.Sampler

namespace Selector

/-- The selector by its name, if its number is reserved for one. -/
def named : Selector → Selector
  | explicit id =>
    if id = overwriteId then overwrite
    else if id = deviceDefaultId then deviceDefault
    else if id = genericId then generic
    else explicit id
  | selector => selector

/-- A reserved number in the place of one that a device has assigned. -/
def IsAlias : Selector → Prop
  | explicit id => overwriteId ≤ id ∧ id < 0
  | _ => False

/-- The reserved numbers are the negative ones from the least of them on. -/
theorem reserved_iff {id : Int64} :
    id = overwriteId ∨ id = deviceDefaultId ∨ id = genericId ↔ overwriteId ≤ id ∧ id < 0 := by
  simp only [← Int64.toInt_inj, Int64.le_iff_toInt_le, Int64.lt_iff_toInt_lt]
  have hoverwrite : overwriteId.toInt = -3 := rfl
  have hdefault : deviceDefaultId.toInt = -2 := rfl
  have hgeneric : genericId.toInt = -1 := rfl
  have hzero : (0 : Int64).toInt = 0 := rfl
  omega

@[simp] theorem toInt64_named (selector : Selector) :
    selector.named.toInt64 = selector.toInt64 := by
  cases selector with
  | explicit id =>
    unfold named
    repeat' split
    all_goals simp_all [toInt64]
  | overwrite | deviceDefault | generic => rfl

theorem IsAlias.le {selector : Selector} (h : selector.IsAlias) :
    overwriteId ≤ selector.toInt64 := by
  cases selector with
  | explicit id => exact h.1
  | overwrite | deviceDefault | generic => cases h

theorem named_eq_self_iff (selector : Selector) :
    selector.named = selector ↔ ¬ selector.IsAlias := by
  cases selector with
  | explicit id =>
    rw [IsAlias, ← reserved_iff]
    unfold named
    repeat' split
    all_goals simp_all
  | overwrite | deviceDefault | generic => simp [named, IsAlias]

theorem isLegal_named_iff (selector : Selector) :
    selector.named.IsLegal ↔ overwriteId ≤ selector.toInt64 := by
  cases selector with
  | explicit id =>
    by_cases hreserved : overwriteId ≤ id ∧ id < 0
    · have hname := reserved_iff.mpr hreserved
      have hlegal : (explicit id).named.IsLegal := by
        unfold named
        rcases hname with rfl | rfl | rfl <;> trivial
      exact iff_of_true hlegal hreserved.1
    · rw [(named_eq_self_iff (explicit id)).mpr hreserved, IsLegal, toInt64]
      constructor
      · exact Int64.le_trans (by decide)
      · intro hfrom
        exact Int64.not_lt.mp fun hneg => hreserved ⟨hfrom, hneg⟩
  | overwrite | deviceDefault | generic => exact iff_of_true trivial (by decide)

/-- From the least reserved number on, the selector of that number is read by its name. -/
theorem ofInt64_eq (id : Int64) : ofInt64 id =
    if overwriteId ≤ id then .ok (explicit id).named else .error (.invalidSelector id) := by
  by_cases hfrom : overwriteId ≤ id
  · rw [if_pos hfrom, ofInt64_eq_ok_iff]
    exact ⟨toInt64_named _, (isLegal_named_iff (explicit id)).mpr hfrom⟩
  · have hne (reserved : Int64) (h : overwriteId ≤ reserved) : id ≠ reserved := by
      rintro rfl
      exact hfrom h
    have hneg : ¬ 0 ≤ id := fun h => hfrom (Int64.le_trans (by decide) h)
    simp [ofInt64, hne overwriteId (by decide), hne deviceDefaultId (by decide),
      hne genericId (by decide), hneg, hfrom]

/-- One selector of each number from the least reserved one on is legal. -/
theorem isLegal_of_number_iff {selector : Selector} {id : Int64} :
    selector.toInt64 = id ∧ selector.IsLegal ↔
      overwriteId ≤ id ∧ selector = (explicit id).named := by
  rw [← ofInt64_eq_ok_iff, ofInt64_eq]
  by_cases hfrom : overwriteId ≤ id
  · simp [hfrom, eq_comm]
  · simp [hfrom]

end Selector

variable {format : WireFormat} {sampler other : Sampler}

/-- The sampler with its selector by its name. -/
def named (sampler : Sampler) : Sampler := { sampler with selector := sampler.selector.named }

theorem fields_named (sampler : Sampler) : sampler.named.fields = sampler.fields := by
  simp [named, fields]

/-- The writer sees the number of the selector only. -/
theorem encode_eq (format : WireFormat) (sampler : Sampler) : Layout.encode format sampler =
    if Selector.overwriteId ≤ sampler.selector.toInt64 then
      .ok (Header.encode format.order ⟨RecordKind.samplerCode, 24⟩ ++
        Field.encodeAll format.order sampler.fields)
    else .error (.invalidSelector sampler.selector.toInt64) := by
  have hfits : ¬ Header.largestSize < Layout.encodedLength sampler :=
    (by decide : ¬ Header.largestSize < 24)
  unfold Layout.encode
  simp only [encodeBody_eq, Selector.ofInt64_eq, hfits, ↓reduceIte]
  by_cases hfrom : Selector.overwriteId ≤ sampler.selector.toInt64
  · rw [if_pos hfrom, if_pos hfrom]
    rfl
  · rw [if_neg hfrom, if_neg hfrom]
    rfl

theorem named_eq_self_iff (sampler : Sampler) :
    sampler.named = sampler ↔ ¬ sampler.selector.IsAlias := by
  rw [← Selector.named_eq_self_iff]
  obtain ⟨sysid, algorithm, selector, packetInterval, spaceInterval⟩ := sampler
  simp [named]

theorem encode_named (format : WireFormat) (sampler : Sampler) :
    Layout.encode format sampler.named = Layout.encode format sampler := by
  have hnumber : sampler.named.selector.toInt64 = sampler.selector.toInt64 :=
    Selector.toInt64_named _
  rw [encode_eq, encode_eq, fields_named, hnumber]

/-- What is written is read back with the selector's name. -/
theorem exists_span_of_le (format : WireFormat)
    (h : Selector.overwriteId ≤ sampler.selector.toInt64) :
    ∃ span, Layout.encode format sampler = .ok span ∧
      Layout.decode format span = .ok sampler.named := by
  have hlegal : sampler.named.selector.IsLegal := (Selector.isLegal_named_iff _).mpr h
  obtain ⟨frame, hcode, hencode, hread⟩ :=
    Layout.exists_frame_of_written (lawful.minimumSize_le _) (lawful.encodedLength_le _ hlegal)
      (written_of_isLegal format hlegal)
  rw [encode_named] at hencode
  refine ⟨_, hencode, Layout.decode_eq_ok_iff.mpr ?_⟩
  exact ⟨frame, [], (List.append_nil _).symm, hcode, hread⟩

theorem encode_eq_error_iff {fault : Fault} : Layout.encode format sampler = .error fault ↔
    sampler.selector.toInt64 < Selector.overwriteId ∧
      fault = .invalidSelector sampler.selector.toInt64 := by
  rw [encode_eq, ← Int64.not_le]
  split <;> simp_all [eq_comm]

theorem le_of_encode {span : Bytes} (h : Layout.encode format sampler = .ok span) :
    Selector.overwriteId ≤ sampler.selector.toInt64 := by
  rw [encode_eq] at h
  split at h
  · assumption
  · cases h

theorem decode_of_encode {span : Bytes} (h : Layout.encode format sampler = .ok span) :
    Layout.decode format span = .ok sampler.named := by
  obtain ⟨other, hother, hread⟩ := exists_span_of_le format (le_of_encode h)
  rw [h, Except.ok.injEq] at hother
  exact hother ▸ hread

/-- A sampler is refused exactly if its number is below all reserved ones, and a sampler that is
written is read back by its name. So only a reserved number in the place of an assigned one is
neither refused nor read back, and two samplers are written alike exactly if they share a name. -/
theorem encode_by_number (format : WireFormat) (sampler : Sampler) :
    (∀ fault, Layout.encode format sampler = .error fault ↔
      sampler.selector.toInt64 < Selector.overwriteId ∧
        fault = .invalidSelector sampler.selector.toInt64) ∧
    ((∃ span, Layout.encode format sampler = .ok span ∧
        Layout.decode format span = .ok sampler.named) ↔
      Selector.overwriteId ≤ sampler.selector.toInt64) ∧
    ((Layout.encode format sampler = .error (.invalidSelector sampler.selector.toInt64) ∨
        ∃ span, Layout.encode format sampler = .ok span ∧
          Layout.decode format span = .ok sampler) ↔ ¬ sampler.selector.IsAlias) ∧
    ∀ other : Sampler, (∃ span, Layout.encode format sampler = .ok span ∧
        Layout.encode format other = .ok span) ↔
      Selector.overwriteId ≤ sampler.selector.toInt64 ∧ other.named = sampler.named := by
  refine ⟨fun fault => encode_eq_error_iff, ?_, ?_, ?_⟩
  · constructor
    · rintro ⟨span, hencode, -⟩
      exact le_of_encode hencode
    · exact exists_span_of_le format
  · rw [← named_eq_self_iff]
    constructor
    · rintro (hrefused | ⟨span, hencode, hread⟩)
      · have hbelow := (encode_eq_error_iff.mp hrefused).1
        exact (named_eq_self_iff sampler).mpr fun halias => Int64.not_le.mpr hbelow halias.le
      · rwa [decode_of_encode hencode, Except.ok.injEq] at hread
    · intro hnamed
      by_cases hfrom : Selector.overwriteId ≤ sampler.selector.toInt64
      · obtain ⟨span, hencode, hread⟩ := exists_span_of_le format hfrom
        exact .inr ⟨span, hencode, hnamed ▸ hread⟩
      · exact .inl (by rw [encode_eq, if_neg hfrom])
  · intro other
    constructor
    · rintro ⟨span, hencode, hother⟩
      refine ⟨le_of_encode hencode, ?_⟩
      have hread := decode_of_encode hother
      rwa [decode_of_encode hencode, Except.ok.injEq, eq_comm] at hread
    · rintro ⟨hfrom, hnamed⟩
      obtain ⟨span, hencode, -⟩ := exists_span_of_le format hfrom
      refine ⟨span, hencode, ?_⟩
      rw [← encode_named, hnamed, encode_named, hencode]

/-- The number that is reserved for overwriting, given as if a device had assigned it, is not
refused. It is read back as overwriting, and the sampler that overwrites has the same bytes. -/
theorem encode_alias_of_overwrite :
    let given : Sampler := ⟨1, 0, .explicit (-3), 10, 0⟩
    let overwriting : Sampler := ⟨1, 0, .overwrite, 10, 0⟩
    let span : Bytes :=
      [15, 0, 24, 0, 1, 0, 0, 0, 253, 255, 255, 255, 255, 255, 255, 255, 10, 0, 0, 0, 0, 0, 0, 0]
    Layout.encode {} given = .ok span ∧
      Layout.encode {} given ≠ .error (.invalidSelector given.selector.toInt64) ∧
      Layout.decode {} span = .ok overwriting ∧ overwriting ≠ given ∧
      Layout.encode {} overwriting = .ok span := by
  refine ⟨rfl, nofun, rfl, by decide, rfl⟩

end ExporterRecords.Sampler
