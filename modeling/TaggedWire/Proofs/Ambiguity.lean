import Mathlib.Data.Nat.Bitwise
import TaggedWire.Proofs.Spelling

/-!
# Telling spellings apart

A value has many spellings, but its bytes say which of them was written, whatever follows. The
writer has no choice either: just one spelling of a value is canonical. Both carry over from parts
to rows of parts.
-/

namespace TaggedWire

variable {α : Type}

/-- Bytes are read as one of the spellings in one way only, and one of them at most is canonical. -/
structure Unambiguous (spellings : Language Piece) : Prop where
  of_wire : ∀ a ∈ spellings, ∀ b ∈ spellings, ∀ rest rest',
    wire a ++ rest = wire b ++ rest' → a = b
  of_canonical : ∀ a ∈ spellings, ∀ b ∈ spellings,
    (∀ piece ∈ a, piece.Canonical) → (∀ piece ∈ b, piece.Canonical) → a = b

/-! ## Rows -/

theorem unambiguous_singleton (pieces : List Piece) : Unambiguous {pieces} where
  of_wire _ ha _ hb _ _ _ := ha.trans hb.symm
  of_canonical _ ha _ hb _ _ := ha.trans hb.symm

theorem unambiguous_one : Unambiguous 1 :=
  unambiguous_singleton []

theorem Unambiguous.mul {first second : Language Piece} (h₁ : Unambiguous first)
    (h₂ : Unambiguous second) : Unambiguous (first * second) where
  of_wire a ha b hb rest rest' same := by
    obtain ⟨a₁, ha₁, a₂, ha₂, rfl⟩ := Language.mem_mul.mp ha
    obtain ⟨b₁, hb₁, b₂, hb₂, rfl⟩ := Language.mem_mul.mp hb
    rw [wire_append, wire_append, List.append_assoc, List.append_assoc] at same
    -- What stands behind the first parts plays no role for them.
    obtain rfl := h₁.of_wire a₁ ha₁ b₁ hb₁ _ _ same
    rw [h₂.of_wire a₂ ha₂ b₂ hb₂ rest rest' (List.append_cancel_left same)]
  of_canonical a ha b hb canonicalA canonicalB := by
    obtain ⟨a₁, ha₁, a₂, ha₂, rfl⟩ := Language.mem_mul.mp ha
    obtain ⟨b₁, hb₁, b₂, hb₂, rfl⟩ := Language.mem_mul.mp hb
    rw [List.forall_mem_append] at canonicalA canonicalB
    rw [h₁.of_canonical a₁ ha₁ b₁ hb₁ canonicalA.1 canonicalB.1,
      h₂.of_canonical a₂ ha₂ b₂ hb₂ canonicalA.2 canonicalB.2]

theorem unambiguous_prod {spellings : List (Language Piece)}
    (h : ∀ one ∈ spellings, Unambiguous one) : Unambiguous spellings.prod := by
  induction spellings with
  | nil => exact unambiguous_one
  | cons one spellings ih =>
    obtain ⟨hone, hmore⟩ := List.forall_mem_cons.mp h
    rw [List.prod_cons]
    exact hone.mul (ih hmore)

theorem unambiguous_optional (field : Option α) {spellings : α → Language Piece}
    (h : ∀ a, Unambiguous (spellings a)) : Unambiguous (optionalSpellings field spellings) := by
  cases field with
  | none => exact unambiguous_one
  | some a => exact h a

theorem unambiguous_vector (items : Array α) {element : α → Language Piece}
    (h : ∀ a, Unambiguous (element a)) : Unambiguous (vectorSpellings items element) := by
  have head : Unambiguous (vectorHeadSpellings items.size) := {
    of_wire := fun _ ha _ hb _ _ _ => ha.2.trans hb.2.symm
    of_canonical := fun _ ha _ hb _ _ => ha.2.trans hb.2.symm }
  refine head.mul (unambiguous_prod fun one mem => ?_)
  obtain ⟨a, -, rfl⟩ := List.mem_map.mp mem
  exact h a

/-! ## Words of flags -/

theorem word_eq_of_known {known : List Nat} {word word' : UInt32}
    (agree : ∀ place ∈ known, word.toNat.testBit place = word'.toNat.testBit place)
    (h : ∀ place, word.toNat.testBit place = true → place ∈ known)
    (h' : ∀ place, word'.toNat.testBit place = true → place ∈ known) : word = word' := by
  apply UInt32.toNat_inj.mp
  apply Nat.eq_of_testBit_eq
  intro place
  by_cases mem : place ∈ known
  · exact agree place mem
  · rw [Bool.eq_false_iff.mpr fun set => mem (h place set),
      Bool.eq_false_iff.mpr fun set => mem (h' place set)]

theorem unambiguous_flags {known : List Nat} {fits : UInt32 → Prop}
    (agree : ∀ word word', fits word → fits word' →
      ∀ place ∈ known, word.toNat.testBit place = word'.toNat.testBit place) :
    Unambiguous (flagSpellings known fits) where
  of_wire := by
    rintro _ ⟨word, -, rfl⟩ _ ⟨word', -, rfl⟩ rest rest' same
    have same : LittleEndian.encode 4 word.toNat ++ rest =
        LittleEndian.encode 4 word'.toNat ++ rest' := by simpa [Piece.bytes] using same
    obtain ⟨bytes, -⟩ := List.append_inj same (by simp)
    have words : LittleEndian.ofWord32 word = LittleEndian.ofWord32 word' :=
      congrArg List.toByteArray bytes
    rw [← LittleEndian.word32_ofWord32 word, words, LittleEndian.word32_ofWord32]
  of_canonical := by
    rintro _ ⟨word, fit, rfl⟩ _ ⟨word', fit', rfl⟩ canonical canonical'
    rw [word_eq_of_known (agree word word' fit fit') (canonical _ List.mem_cons_self)
      (canonical' _ List.mem_cons_self)]

/-! ## Records -/

/-- The first byte tells the form, because the short form cannot say the marker. -/
theorem SizeForm.eq_of_header {form form' : SizeForm} {size : Nat} (h : form.Admits size)
    (h' : form'.Admits size) {rest rest' : List UInt8}
    (same : form.header size ++ rest = form'.header size ++ rest') : form = form' := by
  have marker (small : size < 256 ∧ size ≠ 254) : UInt8.ofNat size ≠ 254 := by
    intro eq
    have eq := congrArg UInt8.toNat eq
    rw [UInt8.toNat_ofNat', Nat.mod_eq_of_lt small.1] at eq
    exact small.2 eq
  cases form <;> cases form'
  case short.short | long.long => rfl
  case short.long => exact absurd (List.cons.inj same).1 (marker h)
  case long.short => exact absurd (List.cons.inj same).1.symm (marker h')

theorem Record.eq_of_parts {r r' : Record} (form : r.form = r'.form)
    (payload : r.payload = r'.payload) (padding : r.padding = r'.padding) : r = r' := by
  obtain ⟨_, _, _, _, _⟩ := r
  obtain ⟨_, _, _, _, _⟩ := r'
  subst form payload padding
  rfl

theorem Record.eq_of_bytes {r r' : Record} (payload : r.payload = r'.payload)
    {rest rest' : List UInt8} (same : r.bytes ++ rest = r'.bytes ++ rest') : r = r' := by
  simp only [bytes, List.append_assoc, payload] at same
  have admits := r.admits
  rw [payload] at admits
  have form := SizeForm.eq_of_header admits r'.admits same
  rw [form] at same
  have tails := List.append_cancel_left (List.append_cancel_left same)
  have lengths : r.padding.length = r'.padding.length := by
    rw [r.length_padding, r'.length_padding, form, payload]
  exact eq_of_parts form payload (List.append_inj tails lengths).1

theorem Record.eq_of_canonical {r r' : Record} (payload : r.payload = r'.payload)
    (h : r.Canonical) (h' : r'.Canonical) : r = r' := by
  have short : r.form = .short ↔ r'.form = .short := by rw [h.1, h'.1, payload]
  have form : r.form = r'.form := by
    cases hr : r.form <;> cases hr' : r'.form <;> simp_all
  have lengths : r.padding.length = r'.padding.length := by
    rw [r.length_padding, r'.length_padding, form, payload]
  have padding : r.padding = r'.padding := by
    rw [List.eq_replicate_of_mem h.2, List.eq_replicate_of_mem h'.2, lengths]
  exact eq_of_parts form payload padding

theorem unambiguous_record (payload : List UInt8) : Unambiguous (recordSpellings payload) where
  of_wire := by
    rintro _ ⟨r, hr, rfl⟩ _ ⟨r', hr', rfl⟩ rest rest' same
    rw [Record.eq_of_bytes (hr.trans hr'.symm) (by simpa [Piece.bytes] using same)]
  of_canonical := by
    rintro _ ⟨r, hr, rfl⟩ _ ⟨r', hr', rfl⟩ canonical canonical'
    rw [Record.eq_of_canonical (hr.trans hr'.symm) (canonical _ List.mem_cons_self)
      (canonical' _ List.mem_cons_self)]

theorem unambiguous_text (text : String) : Unambiguous (textSpellings text) :=
  unambiguous_record _

end TaggedWire
