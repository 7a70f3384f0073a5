import ExporterRecords.Header

/-!
# Fields read back

A word and its number determine each other, whatever the byte order. So a header is read exactly
where its written form stands, and a reader succeeds on a body exactly if the body starts with the
field of the value that it returns; it goes on behind that field.
-/
namespace ExporterRecords

namespace ByteOrder

variable {order : ByteOrder} {bs : Bytes} {width n : Nat}

theorem decode_lt (order : ByteOrder) (bs : Bytes) : order.decode bs < Bytes.range bs.length := by
  have h := Bytes.ofLittleEndian_lt (order.arrange bs)
  rwa [length_arrange] at h

/-- The bytes of a number are the only ones of their width that stand for it. -/
theorem decode_eq_iff (hbs : bs.length = width) (hn : n < Bytes.range width) :
    order.decode bs = n ↔ bs = order.encode width n := by
  constructor
  · intro h
    subst h
    rw [← hbs, encode_decode]
  · intro h
    subst h
    rw [decode_encode, Nat.mod_eq_of_lt hn]

/-- Of two orders that differ on this host, each writes the bytes of the other backwards. -/
theorem encode_eq_reverse {other : ByteOrder} (h : order.resolved ≠ other.resolved)
    (width n : Nat) : other.encode width n = (order.encode width n).reverse := by
  cases order <;> cases other <;> simp_all [encode, arrange, resolved]

end ByteOrder

/-- A type whose values are the numbers of one width. -/
structure IsWord {ω : Type} (width : Nat) (ofNat : Nat → ω) (toNat : ω → Nat) : Prop where
  toNat_lt : ∀ value, toNat value < Bytes.range width
  ofNat_toNat : ∀ value, ofNat (toNat value) = value
  toNat_ofNat : ∀ n < Bytes.range width, toNat (ofNat n) = n

namespace IsWord

variable {ω : Type} {width : Nat} {ofNat : Nat → ω} {toNat : ω → Nat} {order : ByteOrder}
  {bs : Bytes} {value : ω}

theorem u16 : IsWord 2 UInt16.ofNat UInt16.toNat where
  toNat_lt := UInt16.toNat_lt
  ofNat_toNat _ := UInt16.ofNat_toNat
  toNat_ofNat _ h := UInt16.toNat_ofNat_of_lt' h

theorem u32 : IsWord 4 UInt32.ofNat UInt32.toNat where
  toNat_lt := UInt32.toNat_lt
  ofNat_toNat _ := UInt32.ofNat_toNat
  toNat_ofNat _ h := UInt32.toNat_ofNat_of_lt' h

theorem u64 : IsWord 8 UInt64.ofNat UInt64.toNat where
  toNat_lt := UInt64.toNat_lt
  ofNat_toNat _ := UInt64.ofNat_toNat
  toNat_ofNat _ h := UInt64.toNat_ofNat_of_lt' h

/-- Bytes of the right number are read as a word exactly if they are its written form. -/
theorem ofNat_decode_eq_iff (h : IsWord width ofNat toNat) (hbs : bs.length = width) :
    ofNat (order.decode bs) = value ↔ bs = order.encode width (toNat value) := by
  rw [← ByteOrder.decode_eq_iff hbs (h.toNat_lt value)]
  constructor
  · intro hvalue
    subst hvalue
    have hlt := order.decode_lt bs
    rw [hbs] at hlt
    exact (h.toNat_ofNat _ hlt).symm
  · intro hvalue
    rw [hvalue, h.ofNat_toNat]

theorem ofNat_decode_encode (h : IsWord width ofNat toNat) (order : ByteOrder) (value : ω) :
    ofNat (order.decode (order.encode width (toNat value))) = value :=
  (h.ofNat_decode_eq_iff (ByteOrder.length_encode ..)).mpr rfl

theorem encode_ofNat_decode (h : IsWord width ofNat toNat) (hbs : bs.length = width) :
    order.encode width (toNat (ofNat (order.decode bs))) = bs :=
  ((h.ofNat_decode_eq_iff hbs).mp rfl).symm

end IsWord

namespace Header

variable {order : ByteOrder} {header : Header} {bytes : Bytes}

theorem encode_eq_append (order : ByteOrder) (header : Header) :
    header.encode order =
      order.encode 2 header.recordType.toNat ++ order.encode 2 header.size.toNat := by
  simp [encode, Field.encodeAll, Field.encode]

/-- A buffer has a header exactly if it starts with that header's written form. -/
theorem decode_eq_ok_iff :
    decode order bytes = .ok header ↔ ∃ rest, bytes = header.encode order ++ rest := by
  constructor
  · intro h
    unfold decode at h
    split at h
    · rename_i front rest hsplit
      obtain ⟨front, hfront⟩ := front
      cases h
      refine ⟨rest, ?_⟩
      have htype : (front.take 2).length = 2 := by simp [hfront, length]
      have hsize : (front.drop 2).length = 2 := by simp [hfront, length]
      rw [Bytes.split?_eq_some_iff.mp hsplit, encode_eq_append,
        IsWord.u16.encode_ofNat_decode htype, IsWord.u16.encode_ofNat_decode hsize,
        List.take_append_drop]
    · cases h
  · intro h
    obtain ⟨rest, rfl⟩ := h
    have hsplit : Bytes.split? length (header.encode order ++ rest) =
        some (⟨header.encode order, length_encode order header⟩, rest) :=
      Bytes.split?_eq_some_iff.mpr rfl
    have htype : (header.encode order).take 2 = order.encode 2 header.recordType.toNat := by
      simp [encode_eq_append]
    have hsize : (header.encode order).drop 2 = order.encode 2 header.size.toNat := by
      simp [encode_eq_append]
    unfold decode
    simp only [hsplit, htype, hsize, IsWord.u16.ofNat_decode_encode]

theorem decode_encode_append (order : ByteOrder) (header : Header) (rest : Bytes) :
    decode order (header.encode order ++ rest) = .ok header :=
  decode_eq_ok_iff.mpr ⟨rest, rfl⟩

/-- Only a buffer that is shorter than a header has none. -/
theorem decode_eq_error_iff {fault : Fault} :
    decode order bytes = .error fault ↔
      bytes.length < length ∧ fault = .truncatedHeader bytes.length := by
  unfold decode
  constructor
  · intro h
    split at h
    · cases h
    · rename_i hsplit
      cases h
      exact ⟨Bytes.split?_eq_none_iff.mp hsplit, rfl⟩
  · intro h
    obtain ⟨hlt, rfl⟩ := h
    rw [Bytes.split?_eq_none_iff.mpr hlt]

theorem length_le_of_decode (h : decode order bytes = .ok header) : length ≤ bytes.length := by
  obtain ⟨rest, rfl⟩ := decode_eq_ok_iff.mp h
  simp

/-- Bytes that come later do not change the header at the front. -/
theorem decode_append (h : decode order bytes = .ok header) (more : Bytes) :
    decode order (bytes ++ more) = .ok header := by
  obtain ⟨rest, rfl⟩ := decode_eq_ok_iff.mp h
  rw [List.append_assoc]
  exact decode_encode_append order header _

/-- A buffer that is cut behind its header keeps the header. -/
theorem decode_take_iff {n : Nat} (hn : length ≤ n) :
    decode order (bytes.take n) = .ok header ↔ decode order bytes = .ok header := by
  constructor
  · intro h
    have := decode_append h (bytes.drop n)
    rwa [List.take_append_drop] at this
  · intro h
    obtain ⟨rest, rfl⟩ := decode_eq_ok_iff.mp h
    apply decode_eq_ok_iff.mpr
    refine ⟨rest.take (n - length), ?_⟩
    rw [List.take_append, length_encode, List.take_of_length_le]
    rwa [length_encode]

end Header

theorem Field.encodeAll_append (order : ByteOrder) (fields more : List Field) :
    encodeAll order (fields ++ more) = encodeAll order fields ++ encodeAll order more := by
  simp [encodeAll]

theorem Field.widthAll_append (fields more : List Field) :
    widthAll (fields ++ more) = widthAll fields + widthAll more := by
  induction fields with
  | nil => simp [widthAll]
  | cons field fields ih => simp [widthAll, ih, Nat.add_assoc]

namespace BodyInput

/-- The input starts with these fields and is `out` behind them. -/
def Takes (input : BodyInput) (fields : List Field) (out : BodyInput) : Prop :=
  ∃ rest, input.rest = Field.encodeAll input.order fields ++ rest ∧
    out = { input with consumed := input.consumed + Field.widthAll fields, rest }

@[simp] theorem takes_nil {input out : BodyInput} : input.Takes [] out ↔ out = input := by
  simp [Takes, Field.encodeAll, Field.widthAll]

theorem takes_append {input out : BodyInput} {fields more : List Field} :
    input.Takes (fields ++ more) out ↔ ∃ mid, input.Takes fields mid ∧ mid.Takes more out := by
  constructor
  · intro h
    obtain ⟨rest, hrest, rfl⟩ := h
    rw [Field.encodeAll_append, List.append_assoc] at hrest
    refine ⟨_, ⟨_, hrest, rfl⟩, rest, rfl, ?_⟩
    rw [Field.widthAll_append, Nat.add_assoc]
  · intro h
    obtain ⟨_, ⟨behind, hrest, rfl⟩, rest, hbehind, rfl⟩ := h
    refine ⟨rest, ?_, ?_⟩
    · rw [hrest, Field.encodeAll_append, List.append_assoc, ← hbehind]
    · rw [Field.widthAll_append, Nat.add_assoc]

theorem takes_cons {input out : BodyInput} {field : Field} {fields : List Field} :
    input.Takes (field :: fields) out ↔
      ∃ mid, input.Takes [field] mid ∧ mid.Takes fields out :=
  @takes_append input out [field] fields

theorem takes_cons_cons {input out : BodyInput} {field next : Field} {fields : List Field} :
    input.Takes (field :: next :: fields) out ↔
      ∃ mid, input.Takes [field] mid ∧ mid.Takes (next :: fields) out :=
  takes_cons

/-- Only the written form of a field counts. -/
theorem takes_congr {input out : BodyInput} {field other : Field}
    (h : field.encode input.order = other.encode input.order) :
    input.Takes [field] out ↔ input.Takes [other] out := by
  have hwidth : field.width = other.width := by
    rw [← Field.length_encode input.order, h, Field.length_encode]
  simp only [Takes, Field.encodeAll, Field.widthAll, List.flatMap_cons, h, hwidth]

theorem Takes.consumed_ofBody {recordType : UInt16} {order : ByteOrder} {body : Bytes}
    {fields : List Field} {out : BodyInput} (h : (ofBody recordType order body).Takes fields out) :
    out.consumed = Field.widthAll fields ∧ Field.widthAll fields ≤ body.length := by
  obtain ⟨rest, hrest, rfl⟩ := h
  have hlength := congrArg List.length hrest
  rw [List.length_append, Field.length_encodeAll] at hlength
  exact ⟨Nat.zero_add _, hlength ▸ Nat.le_add_right ..⟩

/-- A body that consists of the fields is taken whole. -/
theorem takes_ofBody_iff {recordType : UInt16} {order : ByteOrder} {body : Bytes}
    {fields : List Field} {out : BodyInput} :
    (ofBody recordType order body).Takes fields out ∧ out.consumed = body.length ↔
      body = Field.encodeAll order fields ∧ out = ⟨recordType, order, body.length, []⟩ := by
  constructor
  · intro h
    obtain ⟨⟨rest, hrest, rfl⟩, hconsumed⟩ := h
    simp only [ofBody] at hrest hconsumed
    have hempty : rest = [] := by
      have := congrArg List.length hrest
      rw [List.length_append, Field.length_encodeAll] at this
      exact List.eq_nil_of_length_eq_zero (by omega)
    subst hempty
    rw [List.append_nil] at hrest
    exact ⟨hrest, by simp only [ofBody, hconsumed]⟩
  · intro h
    obtain ⟨rfl, rfl⟩ := h
    exact ⟨⟨[], by simp [ofBody], by simp [ofBody]⟩, rfl⟩

end BodyInput

namespace BodyReader

variable {α β : Type} {input out : BodyInput}

theorem bind_eq_ok_iff {reader : BodyReader α} {next : α → BodyReader β} {b : β} :
    (reader >>= next) input = .ok (b, out) ↔
      ∃ a mid, reader input = .ok (a, mid) ∧ next a mid = .ok (b, out) := by
  change (reader input >>= fun (a, mid) => next a mid) = .ok (b, out) ↔ _
  cases reader input with
  | error fault => simp [bind, Except.bind]
  | ok taken =>
    obtain ⟨a, mid⟩ := taken
    constructor
    · intro h
      exact ⟨a, mid, rfl, h⟩
    · intro h
      obtain ⟨_, _, heq, h⟩ := h
      cases heq
      exact h

theorem bind_of_ok {reader : BodyReader α} {next : α → BodyReader β} {a : α}
    (h : reader input = .ok (a, out)) : (reader >>= next) input = next a out := by
  change (reader input >>= fun (a, mid) => next a mid) = _
  rw [h]
  rfl

/-- A sequence fails in its first reader or, behind what that one takes, in the rest. -/
theorem bind_eq_error_iff {reader : BodyReader α} {next : α → BodyReader β} {fault : Fault} :
    (reader >>= next) input = .error fault ↔ reader input = .error fault ∨
      ∃ a mid, reader input = .ok (a, mid) ∧ next a mid = .error fault := by
  change (reader input >>= fun (a, mid) => next a mid) = .error fault ↔ _
  cases reader input with
  | error first => simp [bind, Except.bind]
  | ok taken =>
    obtain ⟨a, mid⟩ := taken
    constructor
    · intro h
      exact .inr ⟨a, mid, rfl, h⟩
    · rintro (h | ⟨_, _, heq, h⟩)
      · cases h
      · cases heq
        exact h

theorem pure_eq_ok_iff {a b : α} :
    (pure a : BodyReader α) input = .ok (b, out) ↔ b = a ∧ out = input := by
  change Except.ok (a, input) = .ok (b, out) ↔ _
  simp [eq_comm]

theorem map_eq_ok_iff {f : α → β} {reader : BodyReader α} {b : β} :
    (f <$> reader) input = .ok (b, out) ↔ ∃ a, reader input = .ok (a, out) ∧ f a = b := by
  change (reader input >>= fun (a, mid) => Except.ok (f a, mid)) = .ok (b, out) ↔ _
  cases reader input with
  | error fault => simp [bind, Except.bind]
  | ok taken =>
    obtain ⟨a, mid⟩ := taken
    constructor
    · intro h
      cases h
      exact ⟨a, rfl, rfl⟩
    · intro h
      obtain ⟨_, heq, rfl⟩ := h
      cases heq
      rfl

theorem map_eq_error_iff {f : α → β} {reader : BodyReader α} {fault : Fault} :
    (f <$> reader) input = .error fault ↔ reader input = .error fault := by
  change (reader input >>= fun (a, mid) => Except.ok (f a, mid)) = .error fault ↔ _
  cases reader input <;> simp [bind, Except.bind]

theorem lift_eq_ok_iff {outcome : Except Fault α} {a : α} :
    (liftM outcome : BodyReader α) input = .ok (a, out) ↔ outcome = .ok a ∧ out = input := by
  change (outcome >>= fun a => Except.ok (a, input)) = .ok (a, out) ↔ _
  cases outcome with
  | error fault => simp [bind, Except.bind]
  | ok b => simp [bind, Except.bind, eq_comm]

theorem lift_eq_error_iff {outcome : Except Fault α} {fault : Fault} :
    (liftM outcome : BodyReader α) input = .error fault ↔ outcome = .error fault := by
  change (outcome >>= fun a => Except.ok (a, input)) = .error fault ↔ _
  cases outcome <;> simp [bind, Except.bind]

theorem require_eq_error_iff {width : Nat} {fault : Fault} :
    require width input = .error fault ↔
      input.rest.length < width ∧ fault = input.shortage width := by
  unfold require
  split
  · rename_i h
    simp [Nat.not_lt.mpr h]
  · rename_i h
    simp [Nat.not_le.mp h, eq_comm]

theorem require_eq_ok_iff {width : Nat} {u : Unit} :
    require width input = .ok (u, out) ↔ width ≤ input.rest.length ∧ out = input := by
  unfold require
  split
  · rename_i h
    simp [h, eq_comm]
  · rename_i h
    simp [h]

theorem raw_eq_ok_iff {width : Nat} {bytes : { bytes : Bytes // bytes.length = width }} :
    raw width input = .ok (bytes, out) ↔ input.Takes [.raw bytes.1] out := by
  have hsplit (rest : Bytes) : input.rest.split? width = some (bytes, rest) ↔
      input.rest = bytes.1 ++ rest := Bytes.split?_eq_some_iff
  obtain ⟨bytes, rfl⟩ := bytes
  simp only [raw, BodyInput.Takes, Field.encodeAll, Field.encode, Field.widthAll, Field.width,
    List.flatMap_cons, List.flatMap_nil, List.append_nil, Nat.add_zero]
  constructor
  · intro h
    split at h
    · rename_i front rest hfront
      cases h
      exact ⟨rest, (hsplit rest).mp hfront, rfl⟩
    · cases h
  · intro h
    obtain ⟨rest, hrest, rfl⟩ := h
    rw [(hsplit rest).mpr hrest]

theorem raw_eq_error_iff {width : Nat} {fault : Fault} :
    raw width input = .error fault ↔
      input.rest.length < width ∧ fault = input.shortage width := by
  rw [← Bytes.split?_eq_none_iff]
  unfold raw
  cases input.rest.split? width <;> simp [eq_comm]

theorem number_eq_ok_iff {width n : Nat} :
    number width input = .ok (n, out) ↔
      n < Bytes.range width ∧ input.Takes [.raw (input.order.encode width n)] out := by
  have hget (bytes : Bytes) (mid : BodyInput) :
      ((do return (← get).order.decode bytes : BodyReader Nat) mid) =
        .ok (mid.order.decode bytes, mid) := rfl
  rw [number, bind_eq_ok_iff]
  simp only [raw_eq_ok_iff, hget, Except.ok.injEq, Prod.mk.injEq]
  constructor
  · intro h
    obtain ⟨⟨bytes, hbytes⟩, mid, htakes, rfl, rfl⟩ := h
    have horder : mid.order = input.order := by
      obtain ⟨rest, _, rfl⟩ := htakes
      rfl
    have hlt := input.order.decode_lt bytes
    rw [hbytes] at hlt
    rw [horder]
    refine ⟨hlt, ?_⟩
    rwa [← (ByteOrder.decode_eq_iff hbytes hlt).mp rfl]
  · intro h
    obtain ⟨hlt, htakes⟩ := h
    have hlength := input.order.length_encode width n
    have horder : out.order = input.order := by
      obtain ⟨rest, _, rfl⟩ := htakes
      rfl
    refine ⟨⟨_, hlength⟩, out, htakes, ?_, rfl⟩
    rw [horder, (ByteOrder.decode_eq_iff hlength hlt).mpr rfl]

theorem number_eq_error_iff {width : Nat} {fault : Fault} :
    number width input = .error fault ↔
      input.rest.length < width ∧ fault = input.shortage width := by
  rw [number, bind_eq_error_iff, raw_eq_error_iff, or_iff_left]
  rintro ⟨bytes, mid, -, hget⟩
  cases hget

/-- A number is read as a word exactly where the input starts with the word's written form. -/
theorem word_eq_ok_iff {ω : Type} {width : Nat} {ofNat : Nat → ω} {toNat : ω → Nat} {value : ω}
    {field : Field} (h : IsWord width ofNat toNat)
    (hfield : field.encode input.order = input.order.encode width (toNat value)) :
    (ofNat <$> number width) input = .ok (value, out) ↔ input.Takes [field] out := by
  have htakes : input.Takes [field] out ↔
      input.Takes [.raw (input.order.encode width (toNat value))] out :=
    BodyInput.takes_congr hfield
  rw [map_eq_ok_iff, htakes]
  constructor
  · intro hread
    obtain ⟨n, hn, rfl⟩ := hread
    rw [number_eq_ok_iff] at hn
    rw [h.toNat_ofNat n hn.1]
    exact hn.2
  · intro htaken
    exact ⟨toNat value, number_eq_ok_iff.mpr ⟨h.toNat_lt value, htaken⟩, h.ofNat_toNat value⟩

theorem u16_eq_ok_iff {value : UInt16} :
    u16 input = .ok (value, out) ↔ input.Takes [.u16 value] out :=
  word_eq_ok_iff .u16 rfl

theorem u32_eq_ok_iff {value : UInt32} :
    u32 input = .ok (value, out) ↔ input.Takes [.u32 value] out :=
  word_eq_ok_iff .u32 rfl

theorem u64_eq_ok_iff {value : UInt64} :
    u64 input = .ok (value, out) ↔ input.Takes [.u64 value] out :=
  word_eq_ok_iff .u64 rfl

/-- A signed word is read as the unsigned one with the same bits. -/
theorem i64_eq_ok_iff {value : Int64} :
    i64 input = .ok (value, out) ↔ input.Takes [.i64 value] out := by
  have htakes : input.Takes [.i64 value] out ↔ input.Takes [.u64 value.toUInt64] out := Iff.rfl
  rw [i64, map_eq_ok_iff, htakes, ← u64_eq_ok_iff]
  constructor
  · intro h
    obtain ⟨word, hword, rfl⟩ := h
    exact hword
  · intro h
    exact ⟨value.toUInt64, h, rfl⟩

end BodyReader

namespace BodyWriter

variable {α : Type} {order : ByteOrder}

/-- The writer puts these bytes behind whatever the buffer holds, or it fails and leaves the buffer
as it was. -/
def Writes (writer : BodyWriter) (body : Except Fault Bytes) : Prop :=
  ∀ out, writer.appendTo out = match body with
    | .ok bytes => (.ok (), out ++ bytes)
    | .error fault => (.error fault, out)

theorem writes_field (order : ByteOrder) (f : Field) :
    Writes (field order f) (.ok (f.encode order)) := fun _ => rfl

theorem Writes.append {first rest : BodyWriter} {front back : Bytes} (h : first.Writes (.ok front))
    (hrest : rest.Writes (.ok back)) : Writes (do first; rest) (.ok (front ++ back)) := by
  intro out
  have hbehind : out ++ front ++ back = out ++ (front ++ back) := by
    apply Array.toList_inj.mp
    simp only [Array.toList_appendList, List.append_assoc]
  rw [appendTo, ExceptT.run_bind, StateT.run_bind, ← appendTo, h out]
  exact (hrest (out ++ front)).trans (congrArg (Prod.mk (Except.ok ())) hbehind)

theorem writes_forM {write : α → BodyWriter} {encode : α → Bytes}
    (h : ∀ a, (write a).Writes (.ok (encode a))) (as : List α) :
    Writes (as.forM write) (.ok (as.flatMap encode)) := by
  induction as with
  | nil =>
    intro out
    dsimp only
    rw [List.flatMap_nil, Array.appendList_nil]
    rfl
  | cons a as ih =>
    rw [List.flatMap_cons]
    exact (h a).append ih

theorem writes_fields (order : ByteOrder) (fs : List Field) :
    Writes (fields order fs) (.ok (Field.encodeAll order fs)) :=
  writes_forM (writes_field order) fs

/-- A check in front of all writing leaves the buffer alone. -/
theorem writes_of_check {outcome : Except Fault α} {write : α → BodyWriter}
    {body : α → Except Fault Bytes} (h : ∀ a, outcome = .ok a → (write a).Writes (body a)) :
    Writes (do write (← outcome)) (outcome >>= body) := by
  cases outcome with
  | error fault => exact fun _ => rfl
  | ok a => exact h a rfl

end BodyWriter

end ExporterRecords
