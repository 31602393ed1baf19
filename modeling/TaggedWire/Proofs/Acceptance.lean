import TaggedWire.Proofs.Spelling

/-!
# What decoders accept

A decoder accepts a value from just the spellings of that value. Proved for numbers and texts here,
and carried from parts to the whole for declared objects, optional fields and vectors.
-/

namespace TaggedWire.Decoder

variable {V T α : Type} {scope : Scope V} {p q : Progress}

/-- The decoder reads an allowed value from just the spellings of that value. -/
def Accepts (decoder : Decoder V α) (scope : Scope V) (allowed : α → Prop)
    (spellings : α → Language Piece) : Prop :=
  ∀ p a q, decoder.exec scope p = (.ok a, q) ↔ allowed a ∧ p.Reads (spellings a) q

/-! ## Numbers -/

theorem take_number_iff {width n : Nat} {make : Nat → α} {a : α}
    (small : n < LittleEndian.count width)
    (only : ∀ m < LittleEndian.count width, make m = a ↔ m = n) :
    (∃ bytes, p.take width = (.ok bytes, q) ∧ make (LittleEndian.value bytes.data.toList) = a) ↔
      p.Passes (LittleEndian.encode width n) q := by
  constructor
  · rintro ⟨bytes, taken, made⟩
    obtain ⟨size, passed⟩ := Progress.take_ok_iff.mp taken
    have length : bytes.data.toList.length = width := by simpa using size
    have fits := LittleEndian.value_lt bytes.data.toList
    rw [length] at fits
    rwa [← (only _ fits).mp made, ← length, LittleEndian.encode_value]
  · intro h
    refine ⟨(LittleEndian.encode width n).toByteArray, Progress.take_ok_iff.mpr ⟨by simp, ?_⟩, ?_⟩
    · rwa [List.data_toByteArray]
    · rw [List.data_toByteArray, LittleEndian.value_encode, Nat.mod_eq_of_lt small]
      exact (only n small).mpr rfl

theorem exec_number_ok_iff {width n : Nat} {make : Nat → α} {a : α}
    (small : n < LittleEndian.count width)
    (only : ∀ m < LittleEndian.count width, make m = a ↔ m = n) :
    (do return make (LittleEndian.value (← take width).data.toList) : Decoder V α).exec scope p =
        (.ok a, q) ↔
      p.Passes (LittleEndian.encode width n) q := by
  rw [exec_bind_ok_iff, ← take_number_iff small only]
  constructor
  · rintro ⟨bytes, m, taken, rest⟩
    obtain ⟨made, rfl⟩ := exec_pure_ok_iff.mp rest
    exact ⟨bytes, taken, made⟩
  · rintro ⟨bytes, taken, made⟩
    exact ⟨bytes, q, taken, exec_pure_ok_iff.mpr ⟨made, rfl⟩⟩

theorem exec_byte_ok_iff {b : UInt8} : byte.exec scope p = (.ok b, q) ↔ p.Passes [b] q := by
  have single : LittleEndian.encode 1 b.toNat = [b] := by simp [LittleEndian.encode]
  rw [← single]
  apply exec_number_ok_iff b.toNat_lt
  intro m small
  simp only [LittleEndian.count] at small
  rw [← UInt8.toNat_inj, UInt8.toNat_ofNat', Nat.mod_eq_of_lt (by omega)]

theorem word32_eq_iff {word : UInt32} :
    ∀ n < LittleEndian.count 4, UInt32.ofNat n = word ↔ n = word.toNat := by
  intro n small
  simp only [LittleEndian.count] at small
  rw [← UInt32.toNat_inj, UInt32.toNat_ofNat', Nat.mod_eq_of_lt (by omega)]

theorem take_word32_iff {word : UInt32} :
    (∃ bytes, p.take 4 = (.ok bytes, q) ∧ LittleEndian.word32 bytes = word) ↔
      p.Reads {[.word32 word]} q := by
  rw [Progress.reads_piece_iff]
  exact take_number_iff word.toNat_lt word32_eq_iff

theorem exec_uint32_ok_iff {word : UInt32} :
    uint32.exec scope p = (.ok word, q) ↔ p.Reads {[.word32 word]} q := by
  rw [Progress.reads_piece_iff]
  exact exec_number_ok_iff word.toNat_lt word32_eq_iff

theorem exec_uint64_ok_iff {word : UInt64} :
    uint64.exec scope p = (.ok word, q) ↔ p.Reads {[.word64 word]} q := by
  rw [Progress.reads_piece_iff]
  apply exec_number_ok_iff word.toNat_lt
  intro m small
  simp only [LittleEndian.count] at small
  rw [← UInt64.toNat_inj, UInt64.toNat_ofNat', Nat.mod_eq_of_lt (by omega)]

theorem exec_renamed_ok_iff {β : Type} {decoder : Decoder V α} {make : α → β} {back : β → α}
    (left : ∀ a, back (make a) = a) (right : ∀ b, make (back b) = b) {b : β} :
    (do return make (← decoder) : Decoder V β).exec scope p = (.ok b, q) ↔
      decoder.exec scope p = (.ok (back b), q) := by
  rw [exec_bind_ok_iff]
  constructor
  · rintro ⟨a, m, first, second⟩
    obtain ⟨rfl, rfl⟩ := exec_pure_ok_iff.mp second
    rwa [left]
  · intro h
    exact ⟨back b, q, h, exec_pure_ok_iff.mpr ⟨right b, rfl⟩⟩

theorem exec_int32_ok_iff {n : Int32} :
    int32.exec scope p = (.ok n, q) ↔ p.Reads {[.word32 n.toUInt32]} q := by
  unfold int32
  rw [exec_renamed_ok_iff UInt32.toUInt32_toInt32 Int32.toInt32_toUInt32, exec_uint32_ok_iff]

theorem exec_int64_ok_iff {n : Int64} :
    int64.exec scope p = (.ok n, q) ↔ p.Reads {[.word64 n.toUInt64]} q := by
  unfold int64
  rw [exec_renamed_ok_iff UInt64.toUInt64_toInt64 Int64.toInt64_toUInt64, exec_uint64_ok_iff]

theorem accepts_int32 :
    (int32 : Decoder V Int32).Accepts scope (fun _ => True) fun n => {[.word32 n.toUInt32]} := by
  intro p n q
  rw [exec_int32_ok_iff, true_and]

theorem accepts_int64 :
    (int64 : Decoder V Int64).Accepts scope (fun _ => True) fun n => {[.word64 n.toUInt64]} := by
  intro p n q
  rw [exec_int64_ok_iff, true_and]

/-! ## Byte strings -/

theorem exec_recordHeader_ok_iff {size padding : Nat} :
    recordHeader.exec scope p = (.ok (size, padding), q) ↔
      ∃ form : SizeForm, form.Admits size ∧ padding = form.padding size ∧
        p.Passes (form.header size) q := by
  have only (n : Nat) : ∀ m < LittleEndian.count 3,
      (m, ByteString.padding m) = (n, ByteString.padding n) ↔ m = n := by
    intro m _
    constructor
    · exact congrArg Prod.fst
    · rintro rfl
      rfl
  unfold recordHeader
  rw [exec_bind_ok_iff]
  constructor
  · rintro ⟨first, m, byte, rest⟩
    rw [exec_byte_ok_iff] at byte
    split at rest
    next marker =>
      obtain ⟨raw, _, taken, made⟩ := exec_bind_ok_iff.mp rest
      obtain ⟨size24, -⟩ := exec_take_ok_iff.mp taken
      obtain ⟨made, -⟩ := exec_pure_ok_iff.mp made
      obtain ⟨rfl, rfl⟩ := Prod.mk.inj made
      have small := LittleEndian.value_lt raw.data.toList
      rw [Array.length_toList, ByteArray.size_data, size24] at small
      rw [exec_number_ok_iff small (only _)] at rest
      refine ⟨.long, small, SizeForm.padding_long _, ?_⟩
      rw [marker] at byte
      exact Progress.passes_cons_iff.mpr ⟨m, byte, rest⟩
    next other =>
      obtain ⟨made, rfl⟩ := exec_pure_ok_iff.mp rest
      obtain ⟨rfl, rfl⟩ := Prod.mk.inj made
      refine ⟨.short, ⟨first.toNat_lt, ?_⟩, SizeForm.padding_short _, ?_⟩
      · intro same
        exact other (UInt8.toNat_inj.mp same)
      · simpa [SizeForm.header, LittleEndian.encode] using byte
  · rintro ⟨form, admits, rfl, h⟩
    cases form with
    | short =>
      obtain ⟨small, other⟩ := admits
      have back : (UInt8.ofNat size).toNat = size := by
        rw [UInt8.toNat_ofNat', Nat.mod_eq_of_lt small]
      refine ⟨UInt8.ofNat size, q, exec_byte_ok_iff.mpr h, ?_⟩
      rw [if_neg, back, SizeForm.padding_short]
      · rfl
      · intro marker
        rw [marker] at back
        exact other back.symm
    | long =>
      obtain ⟨m, byte, rest⟩ := Progress.passes_cons_iff.mp h
      refine ⟨ByteString.longMarker, m, exec_byte_ok_iff.mpr byte, ?_⟩
      rw [if_pos rfl, ← SizeForm.padding_long]
      exact (exec_number_ok_iff admits (only size)).mpr rest

theorem exec_padding_ok_iff {count : Nat} {a b : α} :
    (if count ≠ 0 then do let _ ← take count; pure a else pure a : Decoder V α).exec scope p =
        (.ok b, q) ↔
      a = b ∧ ∃ padding : List UInt8, padding.length = count ∧ p.Passes padding q := by
  split
  next =>
    rw [exec_bind_ok_iff]
    constructor
    · rintro ⟨raw, m, first, second⟩
      obtain ⟨size, passed⟩ := exec_take_ok_iff.mp first
      obtain ⟨same, rfl⟩ := exec_pure_ok_iff.mp second
      exact ⟨same, raw.data.toList, by simpa using size, passed⟩
    · rintro ⟨rfl, padding, rfl, passed⟩
      refine ⟨padding.toByteArray, q, exec_take_ok_iff.mpr ⟨by simp, ?_⟩, rfl⟩
      rwa [List.data_toByteArray]
  next none =>
    rw [not_not] at none
    rw [exec_pure_ok_iff]
    constructor
    · rintro ⟨rfl, rfl⟩
      exact ⟨rfl, [], none.symm, Progress.passes_nil_iff.mpr rfl⟩
    · rintro ⟨rfl, padding, length, passed⟩
      have empty : padding = [] := List.eq_nil_of_length_eq_zero (length.trans none)
      rw [empty, Progress.passes_nil_iff] at passed
      exact ⟨rfl, passed⟩

theorem exec_bytes_ok_iff {payload : ByteArray} :
    bytes.exec scope p = (.ok payload, q) ↔ p.Reads (recordSpellings payload.data.toList) q := by
  unfold bytes
  rw [exec_bind_ok_iff, Progress.reads_record_iff]
  constructor
  · rintro ⟨⟨size, padding⟩, m, header, rest⟩
    obtain ⟨form, admits, rfl, head⟩ := exec_recordHeader_ok_iff.mp header
    obtain ⟨payload', m', taken, rest⟩ := exec_bind_ok_iff.mp rest
    obtain ⟨rfl, middle⟩ := exec_take_ok_iff.mp taken
    obtain ⟨rfl, padding, length, tail⟩ := exec_padding_ok_iff.mp rest
    refine ⟨⟨form, payload'.data.toList, padding, by simpa using admits, by simpa using length⟩,
      rfl, ?_⟩
    rw [Record.bytes, Progress.passes_append_iff]
    refine ⟨m', Progress.passes_append_iff.mpr ⟨m, ?_, middle⟩, tail⟩
    simpa using head
  · rintro ⟨⟨form, content, padding, admits, length⟩, rfl, h⟩
    rw [Record.bytes, Progress.passes_append_iff] at h
    obtain ⟨m', h, tail⟩ := h
    obtain ⟨m, head, middle⟩ := Progress.passes_append_iff.mp h
    refine ⟨(payload.size, form.padding payload.size), m, ?_, ?_⟩
    · rw [exec_recordHeader_ok_iff]
      exact ⟨form, by simpa using admits, rfl, by simpa using head⟩
    · rw [exec_bind_ok_iff]
      refine ⟨payload, m', exec_take_ok_iff.mpr ⟨rfl, middle⟩, ?_⟩
      exact exec_padding_ok_iff.mpr ⟨rfl, padding, by simpa using length, tail⟩

theorem fromUTF8?_eq_some_iff {payload : ByteArray} {value : String} :
    String.fromUTF8? payload = some value ↔ payload = value.toByteArray := by
  unfold String.fromUTF8?
  constructor
  · intro h
    split at h
    next valid =>
      cases h
      rfl
    next => cases h
  · rintro rfl
    rw [dif_pos value.isValidUTF8]
    rfl

theorem exec_text_ok_iff {value : String} :
    text.exec scope p = (.ok value, q) ↔ p.Reads (textSpellings value) q := by
  unfold text
  rw [exec_bind_ok_iff]
  constructor
  · rintro ⟨payload, m, first, second⟩
    split at second
    next valid =>
      obtain ⟨rfl, rfl⟩ := exec_pure_ok_iff.mp second
      rw [fromUTF8?_eq_some_iff.mp valid] at first
      exact exec_bytes_ok_iff.mp first
    next => exact absurd second exec_throw_ne_ok
  · intro h
    refine ⟨value.toByteArray, q, exec_bytes_ok_iff.mpr h, ?_⟩
    rw [fromUTF8?_eq_some_iff.mpr rfl]
    rfl

theorem accepts_text : (text : Decoder V String).Accepts scope (fun _ => True) textSpellings := by
  intro p value q
  rw [exec_text_ok_iff, true_and]

/-! ## From parts to the whole -/

variable {allowed : α → Prop} {spellings : α → Language Piece}

theorem Accepts.exec_return_ok_iff {β : Type} {decoder : Decoder V α} {make : α → β} {b : β}
    (h : decoder.Accepts scope allowed spellings) :
    (do return make (← decoder) : Decoder V β).exec scope p = (.ok b, q) ↔
      ∃ a, make a = b ∧ allowed a ∧ p.Reads (spellings a) q := by
  rw [exec_bind_ok_iff]
  constructor
  · rintro ⟨a, m, first, second⟩
    obtain ⟨rfl, rfl⟩ := exec_pure_ok_iff.mp second
    exact ⟨a, rfl, (h p a m).mp first⟩
  · rintro ⟨a, rfl, reads⟩
    exact ⟨a, q, (h p a q).mpr reads, rfl⟩

theorem toNat_toUInt32 (n : Int32) : (n.toUInt32.toNat : Int) = n.toInt % 0x100000000 := by
  have signed : n.toInt = n.toBitVec.toInt := rfl
  have unsigned : n.toUInt32.toNat = n.toBitVec.toNat := rfl
  have := n.toBitVec.isLt
  rw [signed, unsigned, BitVec.toInt_eq_toNat_cond]
  split <;> omega

theorem count_iff {count : Int32} {size : Nat} :
    ¬ count < 0 ∧ count.toNatClampNeg = size ↔
      size < 0x80000000 ∧ count.toUInt32 = UInt32.ofNat size := by
  have low : -0x80000000 ≤ count.toInt := count.le_toInt
  have high : count.toInt < 0x80000000 := count.toInt_lt
  have word := toNat_toUInt32 count
  have clamp : count.toNatClampNeg = count.toInt.toNat := rfl
  rw [Int32.lt_iff_toInt_lt, Int32.toInt_zero, clamp, ← UInt32.toNat_inj, UInt32.toNat_ofNat']
  omega

theorem exec_vectorCount_ok_iff {size : Nat} :
    vectorCount.exec scope p = (.ok size, q) ↔
      size ≤ scope.limits.maxVectorSize ∧ p.Reads (vectorHeadSpellings size) q := by
  unfold vectorCount
  rw [exec_bind_ok_iff, Progress.reads_vectorHead_iff]
  dsimp only
  simp only [exec_guard_ok_iff, exec_bind_ok_iff, exec_look_bind, exec_pure_ok_iff,
    exec_uint32_ok_iff, exec_int32_ok_iff]
  constructor
  · rintro ⟨id, m, first, same, count, m', second, sign, limit, made, rfl⟩
    obtain ⟨small, word⟩ := count_iff.mp ⟨sign, made⟩
    rw [not_not] at same
    rw [same] at first
    rw [word] at second
    rw [made] at limit
    exact ⟨Nat.le_of_not_lt limit, small, m, first, second⟩
  · rintro ⟨limit, small, m, first, second⟩
    obtain ⟨sign, made⟩ := count_iff.mpr ⟨small, UInt32.toUInt32_toInt32 (UInt32.ofNat size)⟩
    refine ⟨Tag.vector, m, first, not_not.mpr rfl, (UInt32.ofNat size).toInt32, q, second, sign,
      ?_, made, rfl⟩
    rw [made]
    exact Nat.not_lt.mpr limit

theorem exec_elements_ok_iff {element : Decoder V α} (h : element.Accepts scope allowed spellings)
    {count : Nat} {items all : Array α} :
    (elements element count items).exec scope p = (.ok all, q) ↔
      ∃ more : List α, all.toList = items.toList ++ more ∧ more.length = count ∧
        (∀ a ∈ more, allowed a) ∧ p.Reads (more.map spellings).prod q := by
  induction count generalizing items p with
  | zero =>
    constructor
    · intro done
      cases done
      exact ⟨[], by simp, rfl, by simp, Progress.reads_one_iff.mpr rfl⟩
    · rintro ⟨more, same, length, -, passed⟩
      obtain rfl := List.eq_nil_of_length_eq_zero length
      obtain rfl := Progress.reads_one_iff.mp passed
      rw [List.append_nil, Array.toList_inj] at same
      rw [same]
      rfl
  | succ count ih =>
    rw [elements_succ, exec_bind_ok_iff]
    constructor
    · rintro ⟨a, m, first, rest⟩
      obtain ⟨ha, first⟩ := (h p a m).mp first
      obtain ⟨more, same, length, hmore, rest⟩ := ih.mp rest
      refine ⟨a :: more, by simpa using same, by simpa using length, ?_, ?_⟩
      · exact List.forall_mem_cons.mpr ⟨ha, hmore⟩
      · rw [List.map_cons, List.prod_cons, Progress.reads_mul_iff]
        exact ⟨m, first, rest⟩
    · rintro ⟨more, same, length, hmore, passed⟩
      obtain ⟨a, more, rfl⟩ := List.exists_cons_of_length_eq_add_one length
      obtain ⟨ha, hmore⟩ := List.forall_mem_cons.mp hmore
      rw [List.map_cons, List.prod_cons, Progress.reads_mul_iff] at passed
      obtain ⟨m, first, rest⟩ := passed
      refine ⟨a, m, (h p a m).mpr ⟨ha, first⟩, ih.mpr ⟨more, ?_, ?_, hmore, rest⟩⟩
      · simpa using same
      · simpa using length

theorem Accepts.vector {element : Decoder V α} (h : element.Accepts scope allowed spellings) :
    (vector element).Accepts scope
      (fun items => items.size ≤ scope.limits.maxVectorSize ∧ ∀ a ∈ items, allowed a)
      (fun items => vectorSpellings items spellings) := by
  intro p items q
  unfold Decoder.vector
  rw [exec_bind_ok_iff]
  simp only [vectorSpellings, Progress.reads_mul_iff]
  constructor
  · rintro ⟨count, m, head, rest⟩
    obtain ⟨limit, head⟩ := exec_vectorCount_ok_iff.mp head
    rw [exec_look_bind] at rest
    obtain ⟨more, same, rfl, hmore, rest⟩ := (exec_elements_ok_iff h).mp rest
    obtain rfl : items.toList = more := same
    rw [Array.length_toList] at limit head
    exact ⟨⟨limit, by simpa using hmore⟩, m, head, rest⟩
  · rintro ⟨⟨limit, hitems⟩, m, head, rest⟩
    refine ⟨items.size, m, exec_vectorCount_ok_iff.mpr ⟨limit, head⟩, ?_⟩
    rw [exec_look_bind]
    exact (exec_elements_ok_iff h).mpr ⟨items.toList, rfl, by simp, by simpa using hitems, rest⟩

theorem exec_typed_ok_iff {kind : Kind V T} {value : T} :
    (typed kind).exec scope p = (.ok value, q) ↔
      ∃ id object, scope.object p = (.ok (id, object), q) ∧ kind.narrow? object = some value := by
  unfold typed
  rw [exec_bind_ok_iff]
  constructor
  · rintro ⟨⟨id, object⟩, m, first, rest⟩
    dsimp only at rest
    split at rest
    next narrow narrows =>
      obtain ⟨rfl, rfl⟩ := exec_pure_ok_iff.mp rest
      exact ⟨id, object, first, narrows⟩
    next => exact absurd rest exec_throw_ne_ok
  · rintro ⟨id, object, first, narrows⟩
    refine ⟨(id, object), q, first, ?_⟩
    dsimp only
    rw [narrows]
    rfl

end TaggedWire.Decoder
