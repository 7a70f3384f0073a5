import ExporterRecords.Proofs.Stream.Rewriting
import ExporterRecords.Proofs.Stream.Verdicts

/-!
# Streams read in the wrong order

A reader of the other byte order finds both words of a header with their bytes exchanged. A foreign
record may look the same either way, so the reader may stay in step, or fall out of step and into it
again within a body. But a code that has a layout becomes one that has none. So no metadata record
is read where it was written, and the reader never ends with what the writer put in.
-/
namespace ExporterRecords

/-- The word whose written form under one order is that of this word under the other. -/
def exchanged (word : UInt16) : UInt16 :=
  UInt16.ofNat (word.toNat % 256 * 256 + word.toNat / 256)

theorem toNat_exchanged (word : UInt16) :
    (exchanged word).toNat = word.toNat % 256 * 256 + word.toNat / 256 := by
  have := word.toNat_lt
  apply UInt16.toNat_ofNat_of_lt'
  rw [UInt16.size]
  omega

theorem Bytes.littleEndian_exchanged (word : UInt16) :
    littleEndian 2 (exchanged word).toNat = (littleEndian 2 word.toNat).reverse := by
  have hlt := word.toNat_lt
  have hquotient : (word.toNat % 256 * 256 + word.toNat / 256) / 256 = word.toNat % 256 := by omega
  have hlow : UInt8.ofNat (word.toNat % 256 * 256 + word.toNat / 256) =
      UInt8.ofNat (word.toNat / 256) := by
    rw [← UInt8.toNat_inj, UInt8.toNat_ofNat', UInt8.toNat_ofNat']
    omega
  have hhigh : UInt8.ofNat (word.toNat % 256) = UInt8.ofNat word.toNat := by
    rw [← UInt8.toNat_inj, UInt8.toNat_ofNat', UInt8.toNat_ofNat', Nat.mod_mod]
  simp only [toNat_exchanged, littleEndian, hquotient, hlow, hhigh, List.reverse_cons,
    List.reverse_nil, List.nil_append, List.singleton_append]

theorem ByteOrder.encode_exchanged {order other : ByteOrder} (h : order.resolved ≠ other.resolved)
    (word : UInt16) : other.encode 2 (exchanged word).toNat = order.encode 2 word.toNat := by
  rw [encode_eq_reverse h]
  unfold encode arrange
  rw [Bytes.littleEndian_exchanged]
  split <;> exact List.reverse_reverse _

namespace Header

variable {order other : ByteOrder}

def exchanged (header : Header) : Header :=
  ⟨ExporterRecords.exchanged header.recordType, ExporterRecords.exchanged header.size⟩

theorem encode_exchanged (h : order.resolved ≠ other.resolved) (header : Header) :
    header.exchanged.encode other = header.encode order := by
  rw [encode_eq_append, encode_eq_append, exchanged, ByteOrder.encode_exchanged h,
    ByteOrder.encode_exchanged h]

theorem decode_encode_of_other_order (h : order.resolved ≠ other.resolved) (header : Header)
    (rest : Bytes) : decode other (header.encode order ++ rest) = .ok header.exchanged := by
  rw [← encode_exchanged h]
  exact decode_encode_append ..

end Header

namespace Registry

/-- A code that has a layout becomes one that has none. -/
theorem get?_standard_exchanged {code : UInt16} (h : standard.decoders.get? code ≠ none) :
    standard.decoders.get? (exchanged code) = none := by
  have hcode : code = RecordKind.samplerCode ∨ code = RecordKind.countersCode ∨
      code = RecordKind.exporterCode := by
    apply Decidable.byContradiction
    intro hother
    obtain ⟨hsampler, hcounters, hexporter⟩ := not_or.mp hother |>.imp_right not_or.mp
    apply h
    rw [get?_standard, if_neg hsampler, if_neg hcounters, if_neg hexporter]
  rcases hcode with rfl | rfl | rfl <;> rfl

theorem get?_ne_none_of_decodeFrame {format : WireFormat} {frame : Stream.Frame} {record : Record}
    (h : standard.decodeFrame format frame = .ok record) (hown : record.isForeign = false) :
    standard.decoders.get? frame.recordType ≠ none := by
  intro hnone
  rw [decodeFrame_of_get?_eq_none hnone] at h
  cases h
  cases hown

end Registry

theorem Fault.breaksFraming_breakage (format : WireFormat) (offset : Nat) (bytes : Bytes) :
    (Stream.Frame.breakage format offset bytes).breaksFraming = true := by
  unfold Stream.Frame.breakage
  cases hdecode : Header.decode format.order bytes with
  | error fault =>
    obtain ⟨-, rfl⟩ := Header.decode_eq_error_iff.mp hdecode
    rfl
  | ok header => dsimp only; split <;> rfl

namespace Stream

open Stream.Frame

variable {source target : WireFormat} {frame other : Frame} {frames others : List Frame}
  {record : Record} {records : List Record}

theorem Frame.decode_encode_of_other_order (h : source.order.resolved ≠ target.order.resolved)
    (frame : Frame) (rest : Bytes) :
    Header.decode target.order (frame.encode source ++ rest) = .ok frame.header.exchanged := by
  rw [frame.encode_eq_append, List.append_assoc]
  exact Header.decode_encode_of_other_order h ..

/-- Only a foreign record can be read from the same bytes under both orders. -/
theorem isForeign_of_encode_eq (horder : source.order.resolved ≠ target.order.resolved)
    (hframe : Registry.standard.decodeFrame source frame = .ok record)
    (hother : Registry.standard.decodeFrame target other = .ok record)
    (hbytes : frame.encode source = other.encode target) : record.isForeign = true := by
  apply Bool.eq_true_of_not_eq_false
  intro hown
  have hheader : other.header = frame.header.exchanged := by
    have hdecode := other.decode_encode_append target []
    rw [← hbytes, frame.decode_encode_of_other_order horder] at hdecode
    exact (Except.ok.inj hdecode).symm
  have hcode : other.recordType = exchanged frame.recordType := congrArg Header.recordType hheader
  have hlost := Registry.get?_standard_exchanged (Registry.get?_ne_none_of_decodeFrame hframe hown)
  rw [← hcode] at hlost
  exact Registry.get?_ne_none_of_decodeFrame hother hown hlost

/-- Frames that hold the same records and stand in the same bytes stand at the same places, since
the records say how long they are. So each record is read from the same bytes twice. -/
theorem isForeign_of_join_eq (horder : source.order.resolved ≠ target.order.resolved)
    (hframes : frames.map (Registry.standard.decodeFrame source) = records.map .ok)
    (hothers : others.map (Registry.standard.decodeFrame target) = records.map .ok)
    (hbytes : join source frames = join target others) :
    ∀ record ∈ records, record.isForeign = true := by
  induction records generalizing frames others with
  | nil => nofun
  | cons record records ih =>
    obtain ⟨frame, frames, rfl, hframe, hframes⟩ := List.map_eq_cons_iff.mp hframes
    obtain ⟨other, others, rfl, hother, hothers⟩ := List.map_eq_cons_iff.mp hothers
    obtain ⟨hfront, hbehind⟩ := List.append_inj hbytes (length_encode_eq hframe hother)
    intro written hmem
    rcases List.mem_cons.mp hmem with rfl | hmem
    · exact isForeign_of_encode_eq horder hframe hother hfront
    · exact ih hframes hothers hbehind written hmem

/-- A buffer that starts with the header of a code that nobody reads starts with a foreign record or
cannot be framed. -/
theorem Cursor.next?_of_unread {format : WireFormat} {registry : Registry} {bytes : Bytes}
    {header : Header} (hdecode : Header.decode format.order bytes = .ok header)
    (hget : registry.decoders.get? header.recordType = none) :
    ∃ item behind, (ofBytes format registry bytes).next? = some (item, behind) ∧
      ((∃ frame, item = .ok (.foreign frame)) ∨
        ∃ fault, item = .error fault ∧ fault.breaksFraming = true) := by
  cases hcut : cut? format bytes with
  | some cut =>
    obtain ⟨frame, rest⟩ := cut
    rw [cut?_eq_some_iff] at hcut
    have hheader : frame.header = header := by
      rw [hcut, frame.decode_encode_append] at hdecode
      exact Except.ok.inj hdecode
    subst hheader
    have hnext : (ofBytes format registry bytes).next? = _ := next?_of_frame rfl hcut
    exact ⟨_, _, hnext, .inl ⟨frame, Registry.decodeFrame_of_get?_eq_none hget⟩⟩
  | none =>
    have hne : bytes ≠ [] := by
      rintro rfl
      cases hdecode
    have hnext : (ofBytes format registry bytes).next? = _ := next?_of_tail rfl hne hcut
    exact ⟨_, _, hnext, .inr ⟨_, rfl, Fault.breaksFraming_breakage ..⟩⟩

/-- What is written in one order and holds a metadata record is never read as the same records in
the other. If the first record is one, the reader starts with a foreign record or cannot even frame
what it sees. -/
theorem never_right_in_other_order (source target : WireFormat) (records : List Record)
    (horder : source.order.resolved ≠ target.order.resolved)
    (hfamilies : source.families.inet ≠ source.families.inet6)
    (hrecords : ∀ record ∈ records, record.Writable)
    (hown : ∃ record ∈ records, record.isForeign = false) :
    ∃ writer, (Writer.new source).writeAll records = .ok writer ∧
      decodeAll target writer.bytes ≠ .ok records ∧
      ∀ first, records.head? = some first → first.isForeign = false →
        ∃ item behind,
          (Cursor.ofBytes target .standard writer.bytes).next? = some (item, behind) ∧
          ((∃ frame, item = .ok (.foreign frame)) ∨
            ∃ fault, item = .error fault ∧ fault.breaksFraming = true) := by
  obtain ⟨frames, writer, hwritten, hbytes, hframes⟩ := exists_written hfamilies hrecords
  refine ⟨writer, hwritten, ?_, ?_⟩
  · intro hread
    obtain ⟨others, hsame, hothers⟩ := decodeAll_eq_ok_iff.mp hread
    obtain ⟨record, hmem, hrecord⟩ := hown
    have hforeign := isForeign_of_join_eq horder hframes hothers (hbytes.symm.trans hsame) _ hmem
    rw [hrecord] at hforeign
    cases hforeign
  · intro first hfirst hrecord
    obtain ⟨rest, rfl⟩ := List.head?_eq_some_iff.mp hfirst
    obtain ⟨frame, frames, rfl, hframe, -⟩ := List.map_eq_cons_iff.mp hframes
    have hdecode : Header.decode target.order writer.bytes = .ok frame.header.exchanged := by
      rw [hbytes, join_cons]
      exact frame.decode_encode_of_other_order horder _
    exact Cursor.next?_of_unread hdecode
      (Registry.get?_standard_exchanged (Registry.get?_ne_none_of_decodeFrame hframe hrecord))

/-- A foreign record whose header is the same either way does not hide an exporter, whether it stands
in front of it or behind it. -/
theorem never_right_in_other_order_of_symmetric :
    let little : WireFormat := {}
    let big : WireFormat := { order := .big }
    let symmetric : Record := .foreign ⟨0x0101, List.replicate 253 0, by
      rw [List.length_replicate]
      decide⟩
    let exporter : Record := .exporter ⟨9, .v4 0xc0000201, 3, 7⟩
    symmetric.encode little = symmetric.encode big ∧
      little.order.resolved ≠ big.order.resolved ∧
      little.families.inet ≠ little.families.inet6 ∧ symmetric.Writable ∧ exporter.Writable ∧
      exporter.isForeign = false ∧
      (∃ writer, (Writer.new little).writeAll [symmetric, exporter] = .ok writer ∧
        decodeAll big writer.bytes ≠ .ok [symmetric, exporter]) ∧
      ∃ writer item behind, (Writer.new little).writeAll [exporter, symmetric] = .ok writer ∧
        decodeAll big writer.bytes ≠ .ok [exporter, symmetric] ∧
        (Cursor.ofBytes big .standard writer.bytes).next? = some (item, behind) ∧
        ((∃ frame, item = .ok (.foreign frame)) ∨
          ∃ fault, item = .error fault ∧ fault.breaksFraming = true) := by
  intro little big symmetric exporter
  have horder : little.order.resolved ≠ big.order.resolved := by decide
  have hfamilies : little.families.inet ≠ little.families.inet6 := by decide
  have hsymmetric : symmetric.Writable := by decide
  have hheader : Header.encode .little ⟨0x0101, 0x0101⟩ = Header.encode .big ⟨0x0101, 0x0101⟩ := by
    decide
  have hsame : symmetric.encode little = symmetric.encode big := by
    simp only [symmetric, Record.encode, ForeignRecord.encode, ForeignRecord.size,
      List.length_replicate]
    exact congrArg (fun front => Except.ok (front ++ List.replicate 253 0)) hheader
  have hexporter : exporter.Writable := trivial
  have hfront : ∀ record ∈ [symmetric, exporter], record.Writable :=
    List.forall_mem_cons.mpr ⟨hsymmetric, List.forall_mem_singleton.mpr hexporter⟩
  have hbehind : ∀ record ∈ [exporter, symmetric], record.Writable :=
    List.forall_mem_cons.mpr ⟨hexporter, List.forall_mem_singleton.mpr hsymmetric⟩
  obtain ⟨first, hfirst, hnever, -⟩ := never_right_in_other_order little big _ horder hfamilies
    hfront ⟨exporter, List.mem_cons_of_mem _ (List.mem_singleton.mpr rfl), rfl⟩
  obtain ⟨second, hsecond, hnever', hstart⟩ := never_right_in_other_order little big _ horder
    hfamilies hbehind ⟨exporter, List.mem_cons_self .., rfl⟩
  obtain ⟨item, behind, hnext, hitem⟩ := hstart exporter rfl rfl
  exact ⟨hsame, horder, hfamilies, hsymmetric, hexporter, rfl, ⟨first, hfirst, hnever⟩,
    second, item, behind, hsecond, hnever', hnext, hitem⟩

end Stream

end ExporterRecords
