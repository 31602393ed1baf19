import TaggedWire.Encoder
import TaggedWire.Proofs.Outline
import TaggedWire.Proofs.Spelling

/-!
# What encoders write

An encoder writes the canonical spelling of a value, unless a mark in its outline has no room. Then
it stops with the fault of the first such mark.
-/

namespace TaggedWire.Encoder

variable {α : Type}

/-! ## Bytes -/

/-- The encoder appends just these bytes. -/
def Appends (encoder : Encoder Unit) (form : List UInt8) : Prop :=
  ∀ written, encoder.run written = (.ok (), written ++ form.toByteArray)

theorem Appends.seq {first second : Encoder Unit} {a b : List UInt8} (ha : first.Appends a)
    (hb : second.Appends b) : (do first; second : Encoder Unit).Appends (a ++ b) := by
  intro written
  rw [run_bind, ha written]
  dsimp only
  rw [hb, List.toByteArray_append, ByteArray.append_assoc]

theorem raw_appends (bytes : ByteArray) : (raw bytes).Appends bytes.data.toList := by
  intro written
  rw [toByteArray_eq_iff.mpr rfl]
  rfl

theorem byte_appends (b : UInt8) : (byte b).Appends [b] := by
  intro written
  rw [run_byte, ByteArray.append_toByteArray_singleton]

theorem uint32_appends (word : UInt32) :
    (uint32 word).Appends (LittleEndian.encode 4 word.toNat) :=
  fun _ => rfl

theorem uint64_appends (word : UInt64) :
    (uint64 word).Appends (LittleEndian.encode 8 word.toNat) :=
  fun _ => rfl

theorem zeros_appends (count : Nat) : (zeros count).Appends (List.replicate count 0) :=
  fun _ => rfl

/-! ## Spellings -/

/-- The encoder writes a canonical spelling, or stops at the first mark without room. -/
structure Spells (encoder : Encoder Unit) (outline : List Mark) (spellings : Language Piece) :
    Prop where
  writes : (∀ mark ∈ outline, mark.Writable) →
    ∃ pieces ∈ spellings, (∀ piece ∈ pieces, piece.Canonical) ∧ encoder.Appends (wire pieces)
  refuses : ∀ fault, outline.findSome? Mark.refusal = some fault →
    ∀ written, ∃ more, encoder.run written = (.error fault, written ++ more)

theorem spells_nothing : (pure () : Encoder Unit).Spells [] 1 where
  writes _ := ⟨[], rfl, by simp, fun written => by simp⟩
  refuses fault h := by cases h

theorem spells_piece {encoder : Encoder Unit} {piece : Piece} {spellings : Language Piece}
    (mem : [piece] ∈ spellings) (canonical : piece.Canonical) (h : encoder.Appends piece.bytes) :
    encoder.Spells [] spellings where
  writes _ := by
    refine ⟨[piece], mem, List.forall_mem_singleton.mpr canonical, ?_⟩
    rwa [wire_cons, wire_nil, List.append_nil]
  refuses fault h := by cases h

theorem spells_uint32 (word : UInt32) : (uint32 word).Spells [] {[.word32 word]} :=
  spells_piece rfl trivial (uint32_appends word)

theorem spells_int32 (n : Int32) : (int32 n).Spells [] {[.word32 n.toUInt32]} :=
  spells_uint32 n.toUInt32

theorem spells_int64 (n : Int64) : (int64 n).Spells [] {[.word64 n.toUInt64]} :=
  spells_piece rfl trivial (uint64_appends n.toUInt64)

theorem spells_flags {known : List Nat} {fits : UInt32 → Prop} {word : UInt32} (fit : fits word)
    (canonical : ∀ place, word.toNat.testBit place = true → place ∈ known) :
    (uint32 word).Spells [] (flagSpellings known fits) :=
  spells_piece ⟨word, fit, rfl⟩ canonical (uint32_appends word)

theorem Spells.seq {first second : Encoder Unit} {marks₁ marks₂ : List Mark}
    {spellings₁ spellings₂ : Language Piece} (h₁ : first.Spells marks₁ spellings₁)
    (h₂ : second.Spells marks₂ spellings₂) :
    (do first; second : Encoder Unit).Spells (marks₁ ++ marks₂) (spellings₁ * spellings₂) where
  writes room := by
    rw [List.forall_mem_append] at room
    obtain ⟨a, ha, canonicalA, appendsA⟩ := h₁.writes room.1
    obtain ⟨b, hb, canonicalB, appendsB⟩ := h₂.writes room.2
    refine ⟨a ++ b, Language.append_mem_mul ha hb, ?_, ?_⟩
    · exact List.forall_mem_append.mpr ⟨canonicalA, canonicalB⟩
    · rw [wire_append]
      exact appendsA.seq appendsB
  refuses fault h written := by
    rw [List.findSome?_append] at h
    rw [run_bind]
    cases found : marks₁.findSome? Mark.refusal with
    | some other =>
      rw [found, Option.some_or] at h
      cases h
      obtain ⟨more, run⟩ := h₁.refuses fault found written
      exact ⟨more, by rw [run]⟩
    | none =>
      rw [found, Option.none_or] at h
      obtain ⟨a, -, -, appends⟩ := h₁.writes (Mark.findSome?_refusal_eq_none_iff.mp found)
      obtain ⟨more, run⟩ := h₂.refuses fault h (written ++ (wire a).toByteArray)
      refine ⟨(wire a).toByteArray ++ more, ?_⟩
      rw [appends written]
      dsimp only
      rw [run, ByteArray.append_assoc]

/-! ## Byte strings -/

theorem bytes_appends (payload : ByteArray)
    (fits : payload.data.toList.length ≤ ByteString.maxSize) :
    (bytes payload).Appends (Record.ofPayload payload.data.toList fits).bytes := by
  have size : payload.data.toList.length = payload.size := by simp
  simp only [Record.bytes, Record.ofPayload, size, SizeForm.canonical]
  rw [size] at fits
  unfold bytes
  dsimp only
  by_cases short : payload.size < 254
  · rw [if_pos short, if_pos (show payload.size < ByteString.longMarker.toNat from short),
      SizeForm.padding_short]
    exact (byte_appends _).seq ((raw_appends payload).seq (zeros_appends _))
  · have long : (254 : UInt8) :: LittleEndian.encode 3 payload.size =
        [254] ++ LittleEndian.encode 3 payload.size := rfl
    have head : (raw (LittleEndian.encode 3 payload.size).toByteArray).Appends
        (LittleEndian.encode 3 payload.size) := fun _ => rfl
    rw [if_neg short, if_neg (show ¬ payload.size < ByteString.longMarker.toNat from short),
      if_pos fits, SizeForm.padding_long, SizeForm.header, long, List.append_assoc,
      List.append_assoc]
    exact (byte_appends _).seq (head.seq ((raw_appends payload).seq (zeros_appends _)))

theorem spells_bytes (payload : ByteArray) :
    (bytes payload).Spells [.text payload.size] (recordSpellings payload.data.toList) where
  writes room := by
    have fits : payload.size ≤ ByteString.maxSize := room _ List.mem_cons_self
    have fits : payload.data.toList.length ≤ ByteString.maxSize := by simpa using fits
    refine ⟨[.record (.ofPayload _ fits)], ⟨_, rfl, rfl⟩, ?_, ?_⟩
    · exact List.forall_mem_singleton.mpr (Record.ofPayload_canonical _ fits)
    · rw [wire_cons, wire_nil, List.append_nil]
      exact bytes_appends payload fits
  refuses fault h written := by
    have large : ¬ payload.size ≤ ByteString.maxSize := by
      intro fits
      simp [Mark.refusal, fits] at h
    have long : ¬ payload.size < ByteString.longMarker.toNat := by
      intro short
      exact large (Nat.le_trans (Nat.le_of_lt short) (by decide))
    obtain rfl : Fault.payloadTooLarge payload.size ByteString.maxSize = fault := by
      simpa [Mark.refusal, large] using h
    refine ⟨.empty, ?_⟩
    unfold bytes
    rw [if_neg long, if_neg large, run_throw, ByteArray.append_empty]

theorem spells_text (value : String) :
    (text value).Spells (textOutline value) (textSpellings value) :=
  spells_bytes value.toByteArray

/-! ## Vectors -/

theorem spells_vectorHead (size : Nat) :
    (vectorHeader size).Spells [.vector size] (vectorHeadSpellings size) where
  writes room := by
    have fits : size < 0x80000000 := Nat.lt_succ_of_le (room _ List.mem_cons_self)
    unfold vectorHeader
    rw [if_pos fits]
    refine ⟨[.word32 Tag.vector, .word32 (UInt32.ofNat size)], ⟨fits, rfl⟩, ?_, ?_⟩
    · exact List.forall_mem_cons.mpr ⟨trivial, List.forall_mem_singleton.mpr trivial⟩
    · rw [wire_cons, wire_cons, wire_nil, List.append_nil]
      exact (uint32_appends _).seq (uint32_appends _)
  refuses fault h written := by
    have large : ¬ size < 0x80000000 := by
      intro fits
      simp [Mark.refusal, fits] at h
    obtain rfl : Fault.countOverflow size = fault := by
      simpa [Mark.refusal, large] using h
    refine ⟨.empty, ?_⟩
    unfold vectorHeader
    rw [if_neg large, run_throw, ByteArray.append_empty]

theorem spells_elements {element : α → Encoder Unit} {outline : α → List Mark}
    {spellings : α → Language Piece} (h : ∀ a, (element a).Spells (outline a) (spellings a))
    (items : List α) :
    (items.forM element).Spells (items.flatMap outline) (items.map spellings).prod := by
  induction items with
  | nil => exact spells_nothing
  | cons a items ih =>
    rw [List.flatMap_cons, List.map_cons, List.prod_cons]
    exact (h a).seq ih

theorem spells_vector {element : α → Encoder Unit} {outline : α → List Mark}
    {spellings : α → Language Piece} (h : ∀ a, (element a).Spells (outline a) (spellings a))
    (items : Array α) :
    (vector items element).Spells (vectorOutline items outline) (vectorSpellings items spellings) :=
  (spells_vectorHead items.size).seq (spells_elements h items.toList)

end TaggedWire.Encoder
