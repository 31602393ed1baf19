import TaggedWire.Proofs.Acceptance
import TaggedWire.Proofs.Read
import TaggedWire.Proofs.Writing

/-!
# Reading back

What an encoder writes, the decoder of the same shape reads back. It stops where the encoder did, so
values are read back in the order in which they were written. A record is padded from its own first
byte on, so it does not matter where it stands.
-/

namespace TaggedWire

variable {V α β : Type}

/-! ## Shapes -/

def Primitive.encoder : (primitive : Primitive) → primitive.Value → Encoder Unit
  | .byte => .byte
  | .int32 => .int32
  | .uint32 => .uint32
  | .int64 => .int64
  | .uint64 => .uint64
  | .binary32 => .binary32
  | .binary64 => .binary64
  | .raw128 => .raw
  | .raw256 => .raw
  | .wideInt _ _ => .wideInt
  | .bool => .bool
  | .bytes => .bytes
  | .text => .text

/-- The value has the width that the shape says, or a size that a record can say. -/
def Primitive.Fits : (primitive : Primitive) → primitive.Value → Prop
  | .raw128, raw => raw.size = 16
  | .raw256, raw => raw.size = 32
  | .wideInt bits signed, n => 0 < bits ∧ n.bits = bits ∧ n.signed = signed
  | .bytes, payload => payload.size ≤ ByteString.maxSize
  | .text, value => value.utf8ByteSize ≤ ByteString.maxSize
  | _, _ => True

inductive Shape where
  | single (primitive : Primitive)
  | vector (element : Shape)
  deriving DecidableEq, Repr

namespace Shape

abbrev Value : Shape → Type
  | .single primitive => primitive.Value
  | .vector element => Array element.Value

def decoder : (shape : Shape) → Decoder V shape.Value
  | .single primitive => primitive.decoder
  | .vector element => .vector element.decoder

def encoder : (shape : Shape) → shape.Value → Encoder Unit
  | .single primitive, value => primitive.encoder value
  | .vector element, items => .vector items element.encoder

def Fits (limits : Limits) : (shape : Shape) → shape.Value → Prop
  | .single primitive, value => primitive.Fits value
  | .vector element, items =>
    items.size ≤ limits.maxVectorSize ∧ items.size < 0x80000000 ∧
      ∀ item ∈ items, element.Fits limits item

end Shape

/-- A value with its shape. -/
structure Datum where
  shape : Shape
  value : shape.Value

namespace Datum

def encoder (datum : Datum) : Encoder Unit :=
  datum.shape.encoder datum.value

def Fits (limits : Limits) (datum : Datum) : Prop :=
  datum.shape.Fits limits datum.value

/-- Reads a value of each shape, in this order. -/
def decodeAll : List Shape → Decoder V (List Datum)
  | [] => return []
  | shape :: shapes => do
    let value ← shape.decoder
    return ⟨shape, value⟩ :: (← decodeAll shapes)

end Datum

/-! ## Pairs of an encoder and a decoder -/

/-- The decoder reads the value from just the bytes that the encoder appends. -/
def ReadsBack (scope : Scope V) (encoder : Encoder Unit) (decoder : Decoder V α) (a : α) : Prop :=
  ∃ form, encoder.Appends form ∧ ∀ p q, p.Passes form q → decoder.exec scope p = (.ok a, q)

namespace ReadsBack

variable {scope : Scope V} {encoder : Encoder Unit} {decoder : Decoder V α} {a : α}

theorem value (a : α) : ReadsBack scope (pure ()) (pure a) a := by
  refine ⟨[], fun written => by simp, fun p q passes => ?_⟩
  rw [Progress.passes_nil_iff.mp passes]
  rfl

theorem bind {after : Encoder Unit} {f : α → Decoder V β} {b : β}
    (h : ReadsBack scope encoder decoder a) (h' : ReadsBack scope after (f a) b) :
    ReadsBack scope (do encoder; after) (decoder >>= f) b := by
  obtain ⟨form, appends, reads⟩ := h
  obtain ⟨form', appends', reads'⟩ := h'
  refine ⟨form ++ form', appends.seq appends', fun p q passes => ?_⟩
  obtain ⟨m, first, second⟩ := Progress.passes_append_iff.mp passes
  rw [Decoder.exec_bind_ok_iff]
  exact ⟨a, m, reads p m first, reads' m q second⟩

theorem andPure {f : α → Decoder V β} {b : β} (h : ReadsBack scope encoder decoder a)
    (made : f a = pure b) : ReadsBack scope encoder (decoder >>= f) b := by
  obtain ⟨form, appends, reads⟩ := h
  refine ⟨form, appends, fun p q passes => ?_⟩
  rw [Decoder.exec_bind_ok_iff]
  refine ⟨a, q, reads p q passes, ?_⟩
  rw [made]
  rfl

theorem of_spells {outline : List Mark} {spellings : Language Piece}
    (writes : encoder.Spells outline spellings) (writable : ∀ mark ∈ outline, mark.Writable)
    (reads : ∀ p q, p.Reads spellings q → decoder.exec scope p = (.ok a, q)) :
    ReadsBack scope encoder decoder a := by
  obtain ⟨pieces, mem, -, appends⟩ := writes.writes writable
  exact ⟨wire pieces, appends, fun p q passes => reads p q ⟨pieces, mem, passes⟩⟩

/-! ## Single values -/

theorem take (bytes : ByteArray) :
    ReadsBack scope (.raw bytes) (.take bytes.size : Decoder V ByteArray) bytes :=
  ⟨bytes.data.toList, Encoder.raw_appends bytes, fun _ _ passes =>
    Decoder.exec_take_ok_iff.mpr ⟨rfl, passes⟩⟩

theorem byte (b : UInt8) : ReadsBack scope (.byte b) (.byte : Decoder V UInt8) b :=
  ⟨[b], Encoder.byte_appends b, fun _ _ => Decoder.exec_byte_ok_iff.mpr⟩

theorem uint32 (word : UInt32) : ReadsBack scope (.uint32 word) (.uint32 : Decoder V UInt32) word :=
  .of_spells (Encoder.spells_uint32 word) (by simp) fun _ _ => Decoder.exec_uint32_ok_iff.mpr

theorem uint64 (word : UInt64) :
    ReadsBack scope (.uint64 word) (.uint64 : Decoder V UInt64) word := by
  have writes : (Encoder.uint64 word).Spells [] {[.word64 word]} :=
    Encoder.spells_piece rfl trivial (Encoder.uint64_appends word)
  exact .of_spells writes (by simp) fun _ _ => Decoder.exec_uint64_ok_iff.mpr

theorem wideInt {bits : Nat} {signed : Bool} (n : WideInt) (some : 0 < bits)
    (width : n.bits = bits) (sign : n.signed = signed) :
    ReadsBack scope (.wideInt n) (.wideInt bits signed : Decoder V WideInt) n := by
  subst width sign
  have whole : ¬ (n.bits = 0 ∨ n.bits % 8 ≠ 0) := by
    unfold WideInt.bits at some ⊢
    omega
  have size : n.bits / 8 = n.bytes.size := by
    unfold WideInt.bits
    omega
  unfold Decoder.wideInt
  rw [if_neg whole, size]
  exact (take n.bytes).andPure rfl

theorem bool (b : Bool) : ReadsBack scope (.bool b) (.bool : Decoder V Bool) b := by
  refine (uint32 _).andPure ?_
  cases b <;> rfl

theorem bytes (payload : ByteArray) (fits : payload.size ≤ ByteString.maxSize) :
    ReadsBack scope (.bytes payload) (.bytes : Decoder V ByteArray) payload :=
  .of_spells (Encoder.spells_bytes payload) (List.forall_mem_singleton.mpr fits) fun _ _ =>
    Decoder.exec_bytes_ok_iff.mpr

theorem text (value : String) (fits : value.utf8ByteSize ≤ ByteString.maxSize) :
    ReadsBack scope (.text value) (.text : Decoder V String) value :=
  .of_spells (Encoder.spells_text value) (forall_mem_textOutline.mpr fits) fun _ _ =>
    Decoder.exec_text_ok_iff.mpr

theorem primitive {primitive : Primitive} {value : primitive.Value} (fits : primitive.Fits value) :
    ReadsBack scope (primitive.encoder value) primitive.decoder value := by
  cases primitive with
  | byte => exact byte value
  | uint32 => exact uint32 value
  | int32 => exact (uint32 _).andPure (congrArg pure (Int32.toInt32_toUInt32 value))
  | binary32 => exact (uint32 _).andPure rfl
  | uint64 => exact uint64 value
  | int64 => exact (uint64 _).andPure (congrArg pure (Int64.toInt64_toUInt64 value))
  | binary64 => exact (uint64 _).andPure rfl
  | raw128 | raw256 =>
    have back : ReadsBack scope (.raw value) (.take value.size : Decoder V ByteArray) value :=
      take value
    rw [fits] at back
    exact back
  | wideInt bits signed =>
    obtain ⟨some, width, sign⟩ := fits
    exact wideInt value some width sign
  | bool => exact bool value
  | bytes => exact bytes value fits
  | text => exact text value fits

/-! ## Vectors -/

theorem vectorCount {size : Nat} (limit : size ≤ scope.limits.maxVectorSize)
    (small : size < 0x80000000) :
    ReadsBack scope (.vectorHeader size) (.vectorCount : Decoder V Nat) size :=
  .of_spells (Encoder.spells_vectorHead size)
    (List.forall_mem_singleton.mpr (Nat.le_of_lt_succ small)) fun _ _ reads =>
      Decoder.exec_vectorCount_ok_iff.mpr ⟨limit, reads⟩

theorem elements {write : α → Encoder Unit} {more : List α}
    (each : ∀ a ∈ more, ReadsBack scope (write a) decoder a) (items : Array α) :
    ReadsBack scope (more.forM write) (.elements decoder more.length items)
      (items ++ more.toArray) := by
  -- The elements that were read are in `items`, so it grows with each of those to come.
  induction more generalizing items with
  | nil =>
    have same : items ++ ([] : List α).toArray = items := by simp
    rw [same]
    exact value items
  | cons a more ih =>
    obtain ⟨first, rest⟩ := List.forall_mem_cons.mp each
    have same : items ++ (a :: more).toArray = items.push a ++ more.toArray := by simp
    rw [List.length_cons, Decoder.elements_succ, same]
    exact first.bind (f := fun item => Decoder.elements decoder more.length (items.push item))
      (ih rest (items.push a))

theorem vector {write : α → Encoder Unit} {items : Array α}
    (limit : items.size ≤ scope.limits.maxVectorSize) (small : items.size < 0x80000000)
    (each : ∀ a ∈ items, ReadsBack scope (write a) decoder a) :
    ReadsBack scope (.vector items write) (.vector decoder) items := by
  have back := elements (fun a mem => each a (Array.mem_toList_iff.mp mem)) #[]
  rw [Array.length_toList, Array.toArray_toList, Array.empty_append] at back
  obtain ⟨form, appends, reads⟩ := back
  refine (vectorCount limit small).bind ⟨form, appends, fun p q passes => ?_⟩
  rw [Decoder.exec_look_bind]
  exact reads p q passes

theorem shape {shape : Shape} {value : shape.Value} (fits : shape.Fits scope.limits value) :
    ReadsBack scope (shape.encoder value) shape.decoder value := by
  induction shape with
  | single p => exact primitive fits
  | vector element ih =>
    obtain ⟨limit, small, each⟩ := fits
    exact vector limit small fun item mem => ih (each item mem)

end ReadsBack

/-! ## Rows of values -/

theorem Datum.readsBack {scope : Scope V} {data : List Datum}
    (fits : ∀ datum ∈ data, datum.Fits scope.limits) :
    ReadsBack scope (data.forM encoder) (decodeAll (data.map shape)) data := by
  induction data with
  | nil => exact .value []
  | cons datum data ih =>
    obtain ⟨first, rest⟩ := List.forall_mem_cons.mp fits
    exact (ReadsBack.shape first).bind ((ih rest).andPure rfl)

/-- Values of any shapes that are written one after the other are read back, wherever they stand and
whatever follows. -/
theorem Datum.write_read (reader : Reader V) (data : List Datum)
    (fits : ∀ datum ∈ data, datum.Fits reader.limits) :
    ∃ bytes, ∀ behind,
      Encoder.run (data.forM encoder) behind = (.ok (), behind ++ bytes) ∧
        ∀ ahead,
          reader.run (decodeAll (data.map shape)) (.between behind (bytes ++ ahead)) =
            ⟨.ok data, .between (behind ++ bytes) ahead, reader⟩ := by
  have back : ReadsBack reader.scope (data.forM encoder) (decodeAll (data.map shape)) data :=
    readsBack fits
  obtain ⟨form, appends, reads⟩ := back
  refine ⟨form.toByteArray, fun behind => ⟨appends behind, fun ahead => ?_⟩⟩
  have passes := Progress.passes_between behind form.toByteArray ahead reader.depth
  rw [List.data_toByteArray] at passes
  exact Reader.run_eq_of_exec (reads _ _ passes)

/-- A byte, so that all else stands at odd places, lists of texts, and a number of three bytes. -/
def mixedData : List Datum :=
  [⟨.single .byte, (7 : UInt8)⟩,
    ⟨.vector (.vector (.single .text)), (#[#["hi", ""], #[]] : Array (Array String))⟩,
    ⟨.single (.wideInt 24 true), (⟨⟨#[1, 2, 0xff]⟩, true⟩ : WideInt)⟩]

theorem Datum.write_read_mixedData :
    (∀ datum ∈ mixedData, datum.Fits {}) ∧
      ∃ bytes, (Encoder.run (mixedData.forM encoder) ⟨#[9, 9]⟩).2 = ⟨#[9, 9]⟩ ++ bytes ∧
        (Reader.run ({ registry := ∅ } : Reader Empty) (decodeAll (mixedData.map shape))
          (.between ⟨#[9, 9]⟩ (bytes ++ ⟨#[0]⟩))).result = .ok mixedData := by
  have fits : ∀ datum ∈ mixedData, datum.Fits {} := by
    have short : "hi".utf8ByteSize ≤ ByteString.maxSize := by decide
    have width : WideInt.bits ⟨⟨#[1, 2, 0xff]⟩, true⟩ = 24 := rfl
    simp [mixedData, Fits, Shape.Fits, Primitive.Fits, short, width]
  obtain ⟨bytes, back⟩ := write_read ({ registry := ∅ } : Reader Empty) mixedData fits
  obtain ⟨written, read⟩ := back ⟨#[9, 9]⟩
  refine ⟨fits, bytes, ?_, ?_⟩
  · rw [written]
  · rw [read]

end TaggedWire
