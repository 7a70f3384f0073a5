import ExporterRecords.Address.Packed
import ExporterRecords.Proofs.Fields

/-!
# Packed addresses read back

A packed address is read back under its own family. The other way round, a block that is read and
packed again keeps all bytes that its family uses; around a short address, zeros take the place of
whatever stood there. So an address of a known family and its packed form determine each other, and
another byte order shows in the words of the form and nowhere else.
-/
namespace ExporterRecords

theorem FamilyCodes.family_eq_ok_iff {codes : FamilyCodes} (h : codes.inet ≠ codes.inet6)
    {code : UInt16} {family : Address.Family} :
    codes.family code = .ok family ↔ code = codes.code family := by
  constructor
  · intro hfamily
    unfold FamilyCodes.family at hfamily
    split at hfamily
    · cases hfamily
      assumption
    · split at hfamily
      · cases hfamily
        assumption
      · cases hfamily
  · intro hcode
    subst hcode
    exact family_code h family

theorem FamilyCodes.family_eq_error_iff {codes : FamilyCodes} {code : UInt16} {fault : Fault} :
    codes.family code = .error fault ↔
      (code ≠ codes.inet ∧ code ≠ codes.inet6) ∧ fault = .invalidFamily code := by
  unfold FamilyCodes.family
  split
  · simp_all
  · split <;> simp_all [eq_comm]

theorem FamilyCodes.validate_eq_error_iff {codes : FamilyCodes} {fault : Fault} :
    codes.validate = .error fault ↔ codes.inet = codes.inet6 ∧
      fault = .configuration s!"address family codes must differ, both are {codes.inet}" := by
  unfold FamilyCodes.validate
  split <;> simp_all [eq_comm]

namespace PackedAddress

variable {order : ByteOrder} {codes : FamilyCodes} {code : UInt16} {address : Address}

@[simp] theorem family_unpack (block : PackedAddress) (order : ByteOrder)
    (family : Address.Family) : (block.unpack order family).family = family := by
  cases family <;> rfl

@[simp] theorem unpack_pack (order : ByteOrder) (address : Address) :
    (pack order address).unpack order address.family = address := by
  cases address with
  | v4 bits =>
    have hslot : ((pack order (.v4 bits)).bytes.drop shortOffset).take 4 =
        order.encode 4 bits.toNat := by
      simp [pack, List.append_assoc]
    simp only [Address.family, unpack, hslot, IsWord.u32.ofNat_decode_encode]
  | v6 high low =>
    have hhigh : (pack order (.v6 high low)).bytes.take 8 = order.encode 8 high.toNat := by
      simp [pack]
    have hlow : (pack order (.v6 high low)).bytes.drop 8 = order.encode 8 low.toNat := by
      simp [pack]
    simp only [Address.family, unpack, hhigh, hlow, IsWord.u64.ofNat_decode_encode]

/-- The block with zeros around the place of a short address. -/
def clear (block : PackedAddress) : PackedAddress :=
  ⟨List.replicate shortOffset 0 ++ (block.bytes.drop shortOffset).take 4 ++ List.replicate 4 0, by
    simp [block.length_eq, shortOffset, length]⟩

/-- The place of a short address, and what stands before and after it. -/
theorem bytes_eq_append (block : PackedAddress) :
    block.bytes = block.bytes.take shortOffset ++ (block.bytes.drop shortOffset).take 4 ++
      block.bytes.drop (shortOffset + 4) := by
  rw [← List.drop_drop, List.append_assoc, List.take_append_drop, List.take_append_drop]

theorem bytes_clear (block : PackedAddress) :
    block.clear.bytes = List.replicate shortOffset 0 ++ (block.bytes.drop shortOffset).take 4 ++
      List.replicate 4 0 := rfl

theorem pack_unpack_inet (block : PackedAddress) (order : ByteOrder) :
    pack order (block.unpack order .inet) = block.clear := by
  have hslot : ((block.bytes.drop shortOffset).take 4).length = 4 := by
    simp [block.length_eq, shortOffset, length]
  simp only [unpack, pack, clear, IsWord.u32.encode_ofNat_decode hslot]

theorem pack_unpack_inet6 (block : PackedAddress) (order : ByteOrder) :
    pack order (block.unpack order .inet6) = block := by
  obtain ⟨bytes, hbytes⟩ := block
  have hhigh : (bytes.take 8).length = 8 := by simp [hbytes, length]
  have hlow : (bytes.drop 8).length = 8 := by simp [hbytes, length]
  simp only [unpack, pack, IsWord.u64.encode_ofNat_decode hhigh,
    IsWord.u64.encode_ofNat_decode hlow, List.take_append_drop]

theorem eq_iff {block other : PackedAddress} : block = other ↔ block.bytes = other.bytes := by
  cases block
  cases other
  simp only [mk.injEq]

/-- Clearing changes nothing exactly where the padding is clean. -/
theorem clear_eq_self_iff (block : PackedAddress) :
    block.clear = block ↔ block.hasCleanPadding = true := by
  have hlength := block.length_eq
  have hfront : (block.bytes.take shortOffset).length = shortOffset := by
    simp [hlength, shortOffset, length]
  have hback : (block.bytes.drop (shortOffset + 4)).length = 4 := by
    simp [hlength, shortOffset, length]
  have hparts := block.bytes_eq_append
  have hclean : block.hasCleanPadding = true ↔
      block.bytes.take shortOffset = List.replicate shortOffset 0 ∧
        block.bytes.drop (shortOffset + 4) = List.replicate 4 0 := by
    rw [List.eq_replicate_iff, List.eq_replicate_iff, hasCleanPadding, List.all_append,
      Bool.and_eq_true, List.all_eq_true, List.all_eq_true]
    simp [hfront, hback]
  rw [hclean, eq_iff, bytes_clear]
  constructor
  · intro h
    rw [← h]
    simp [hlength, shortOffset, length]
  · intro h
    obtain ⟨hzeros, hzeros'⟩ := h
    rw [hzeros, hzeros'] at hparts
    exact hparts.symm

/-- Byte by byte, clearing keeps the place of a short address. -/
theorem bytes_clear_eq_mapIdx (block : PackedAddress) :
    block.clear.bytes = block.bytes.mapIdx fun i byte => if 8 ≤ i ∧ i < 12 then byte else 0 := by
  have hlength : block.bytes.length = 16 := block.length_eq
  apply List.ext_getElem
  · rw [List.length_mapIdx, block.clear.length_eq, hlength, length]
  · intro i hclear hi
    rw [List.length_mapIdx, hlength] at hi
    have hslot : ((block.bytes.drop shortOffset).take 4).length = 4 := by
      simp [hlength, shortOffset]
    simp only [bytes_clear, List.getElem_append, List.getElem_mapIdx, List.length_append,
      List.length_replicate, List.getElem_replicate, hslot]
    simp only [shortOffset, List.getElem_take, List.getElem_drop]
    by_cases hbehind : i < 12
    · by_cases hbefore : i < 8
      · simp [hbehind, hbefore, Nat.not_le.mpr hbefore]
      · have hwithin : 8 ≤ i := Nat.le_of_not_lt hbefore
        simp [hbehind, hbefore, hwithin, Nat.add_sub_cancel' hwithin]
    · simp [hbehind]

/-- A block and a code are read as an address exactly if the code is the one of the address's
family and the block is read so under that family. -/
theorem decode_eq_ok_iff (h : codes.inet ≠ codes.inet6) {block : PackedAddress} :
    block.decode order codes code = .ok address ↔
      code = codes.code address.family ∧ block.unpack order address.family = address := by
  rw [← FamilyCodes.family_eq_ok_iff h, decode]
  cases hfamily : codes.family code with
  | error fault => simp [Except.map]
  | ok family =>
    simp only [Except.map, Except.ok.injEq]
    constructor
    · intro hunpack
      subst hunpack
      rw [family_unpack]
      exact ⟨rfl, rfl⟩
    · intro hboth
      obtain ⟨rfl, hunpack⟩ := hboth
      exact hunpack

/-- Any block is an address of any family, so only the code can be wrong. -/
theorem decode_eq_error_iff {block : PackedAddress} {fault : Fault} :
    block.decode order codes code = .error fault ↔ codes.family code = .error fault := by
  unfold decode
  cases codes.family code <;> simp [Except.map]

theorem pack_inj (order : ByteOrder) {other : Address} (hfamily : address.family = other.family) :
    pack order address = pack order other ↔ address = other := by
  constructor
  · intro h
    rw [← unpack_pack order address, h, hfamily, unpack_pack]
  · intro h
    rw [h]

theorem hasCleanPadding_pack (order : ByteOrder) (bits : UInt32) :
    (pack order (.v4 bits)).hasCleanPadding = true := by
  apply (clear_eq_self_iff _).mp
  rw [← pack_unpack_inet _ order]
  exact congrArg (pack order) (unpack_pack order (.v4 bits))

/-- A short address is read from its place alone. -/
theorem unpack_inet_congr {block other : PackedAddress} (order : ByteOrder)
    (h : (block.bytes.drop 8).take 4 = (other.bytes.drop 8).take 4) :
    block.unpack order .inet = other.unpack order .inet := by
  simp only [unpack, shortOffset, h]

/-- The block with the bytes of each word that the family uses in reverse: of the two long words, or
of the short one. -/
def reverseWords (block : PackedAddress) : Address.Family → PackedAddress
  | .inet => ⟨block.bytes.take 8 ++ ((block.bytes.drop 8).take 4).reverse ++ block.bytes.drop 12, by
    simp [block.length_eq, length]⟩
  | .inet6 => ⟨(block.bytes.take 8).reverse ++ (block.bytes.drop 8).reverse, by
    simp [block.length_eq, length]⟩

theorem pack_eq_reverseWords {other : ByteOrder} (h : order.resolved ≠ other.resolved)
    (address : Address) :
    pack other address = (pack order address).reverseWords address.family := by
  cases address with
  | v4 bits =>
    simp [pack, reverseWords, Address.family, shortOffset, ByteOrder.encode_eq_reverse h]
  | v6 high low =>
    simp [pack, reverseWords, Address.family, ByteOrder.encode_eq_reverse h]

/-- What an order owes to packed addresses: each family has one form for each address. -/
structure IsCanonical (order : ByteOrder) : Prop where
  unpack_pack : ∀ address, (pack order address).unpack order address.family = address
  clean : ∀ bits, (pack order (.v4 bits)).hasCleanPadding = true
  pack_long : ∀ block : PackedAddress, pack order (block.unpack order .inet6) = block
  /-- A block that is read as a short address is kept if its padding is clean, and otherwise loses
  its padding and nothing else. -/
  pack_short_iff : ∀ block : PackedAddress,
    pack order (block.unpack order .inet) = block ↔ block.hasCleanPadding = true
  pack_short : ∀ block : PackedAddress, (pack order (block.unpack order .inet)).bytes =
    block.bytes.mapIdx fun i byte => if 8 ≤ i ∧ i < 12 then byte else 0
  injective : ∀ address other : Address, address.family = other.family →
    ((pack order address).bytes = (pack order other).bytes ↔ address = other)
  short_congr : ∀ block other : PackedAddress,
    (block.bytes.drop 8).take 4 = (other.bytes.drop 8).take 4 →
      block.unpack order .inet = other.unpack order .inet
  /-- Another order shows in the words that the family uses, and nowhere else. -/
  reversed : ∀ other : ByteOrder, order.resolved ≠ other.resolved → ∀ address,
    pack other address = (pack order address).reverseWords address.family

/-- In every byte order an address of a known family and its packed form determine each other. -/
theorem isCanonical (order : ByteOrder) : IsCanonical order where
  unpack_pack := PackedAddress.unpack_pack order
  clean := hasCleanPadding_pack order
  pack_long block := pack_unpack_inet6 block order
  pack_short_iff block := by
    rw [pack_unpack_inet]
    exact block.clear_eq_self_iff
  pack_short block := by
    rw [pack_unpack_inet]
    exact block.bytes_clear_eq_mapIdx
  injective _ _ hfamily := eq_iff.symm.trans (pack_inj order hfamily)
  short_congr _ _ := unpack_inet_congr order
  reversed _ := pack_eq_reverseWords

end PackedAddress

end ExporterRecords
