import Mathlib.Computability.Language
import TaggedWire.Decoder.Composite
import TaggedWire.Proofs.Passage

/-!
# How values are spelled

A wire form is a row of pieces. The numbers in it are fixed by the value, but a byte string has two
ways to say its size, and neither its padding nor the spare bits of a word of flags mean anything.
The spellings of a value are the rows of pieces that stand for it.
-/

namespace TaggedWire

variable {α : Type}

/-! ## Records -/

/-- How a record says the size of its payload. -/
inductive SizeForm where
  | short
  /-- In three bytes behind the marker. -/
  | long
  deriving DecidableEq

namespace SizeForm

/-- The sizes that the form can say. One byte cannot say 254, which is the marker. -/
def Admits : SizeForm → Nat → Prop
  | .short, size => size < 256 ∧ size ≠ 254
  | .long, size => size < 0x1000000

def header : SizeForm → Nat → List UInt8
  | .short, size => LittleEndian.encode 1 size
  | .long, size => 254 :: LittleEndian.encode 3 size

/-- How many bytes of padding stand behind a payload. -/
def padding : SizeForm → Nat → Nat
  | .short, size => (4 - (size + 1) % 4) % 4
  | .long, size => (4 - size % 4) % 4

def canonical (size : Nat) : SizeForm :=
  if size < 254 then .short else .long

theorem padding_short (size : Nat) : ByteString.padding (1 + size) = short.padding size := by
  simp only [ByteString.padding, padding]
  split <;> omega

theorem padding_long (size : Nat) : ByteString.padding size = long.padding size := by
  simp only [ByteString.padding, padding]
  split <;> omega

theorem canonical_admits {size : Nat} (h : size ≤ ByteString.maxSize) :
    (canonical size).Admits size := by
  unfold canonical
  split
  next short => exact ⟨by omega, by omega⟩
  next long => exact Nat.lt_succ_of_le h

end SizeForm

/-- A byte string as it is written. The padding may hold anything. -/
structure Record where
  form : SizeForm
  payload : List UInt8
  padding : List UInt8
  admits : form.Admits payload.length
  length_padding : padding.length = form.padding payload.length

def Record.bytes (r : Record) : List UInt8 :=
  r.form.header r.payload.length ++ r.payload ++ r.padding

theorem Record.length_payload_le (r : Record) : r.payload.length ≤ ByteString.maxSize := by
  obtain ⟨form, payload, _, admits, _⟩ := r
  cases form with
  | short =>
    obtain ⟨small, _⟩ := admits
    simp only [ByteString.maxSize]
    omega
  | long =>
    simp only [SizeForm.Admits] at admits
    simp only [ByteString.maxSize]
    omega

/-! ## Pieces -/

/-- What a wire form is made of. -/
inductive Piece where
  /-- An identifier, a count or a number. -/
  | word32 (word : UInt32)
  | word64 (word : UInt64)
  /-- A word of flags. The bits at other places than the `known` ones mean nothing. -/
  | flags (known : List Nat) (word : UInt32)
  | record (record : Record)

def Piece.bytes : Piece → List UInt8
  | .word32 word => LittleEndian.encode 4 word.toNat
  | .word64 word => LittleEndian.encode 8 word.toNat
  | .flags _ word => LittleEndian.encode 4 word.toNat
  | .record r => r.bytes

def wire (pieces : List Piece) : List UInt8 :=
  pieces.flatMap Piece.bytes

@[simp] theorem wire_nil : wire [] = [] :=
  rfl

@[simp] theorem wire_cons (piece : Piece) (pieces : List Piece) :
    wire (piece :: pieces) = piece.bytes ++ wire pieces :=
  rfl

@[simp] theorem wire_append (first second : List Piece) :
    wire (first ++ second) = wire first ++ wire second :=
  List.flatMap_append

/-- The record that a writer chooses: short if it can be, and padded with zeros. -/
def Record.Canonical (r : Record) : Prop :=
  (r.form = .short ↔ r.payload.length < 254) ∧ ∀ b ∈ r.padding, b = 0

/-- The record that a writer makes of a payload. -/
def Record.ofPayload (payload : List UInt8) (h : payload.length ≤ ByteString.maxSize) : Record where
  form := .canonical payload.length
  payload
  padding := List.replicate ((SizeForm.canonical payload.length).padding payload.length) 0
  admits := SizeForm.canonical_admits h
  length_padding := List.length_replicate

theorem Record.ofPayload_canonical (payload : List UInt8)
    (h : payload.length ≤ ByteString.maxSize) : (ofPayload payload h).Canonical := by
  constructor
  · simp only [ofPayload, SizeForm.canonical]
    split <;> simp_all
  · intro b mem
    exact List.eq_of_mem_replicate mem

/-- The piece that a writer chooses where there is a choice. -/
def Piece.Canonical : Piece → Prop
  | .word32 _ => True
  | .word64 _ => True
  | .flags known word => ∀ place, word.toNat.testBit place = true → place ∈ known
  | .record r => r.Canonical

/-! ## Spellings of single values -/

def recordSpellings (payload : List UInt8) : Language Piece :=
  {pieces | ∃ record : Record, record.payload = payload ∧ pieces = [.record record]}

/-- The records of a text in UTF-8. -/
def textSpellings (text : String) : Language Piece :=
  recordSpellings text.toByteArray.data.toList

def flagSpellings (known : List Nat) (fits : UInt32 → Prop) : Language Piece :=
  {pieces | ∃ word, fits word ∧ pieces = [.flags known word]}

/-- The identifier and the count before the elements of a vector. The count is a signed number. -/
def vectorHeadSpellings (size : Nat) : Language Piece :=
  {pieces | size < 0x80000000 ∧ pieces = [.word32 Tag.vector, .word32 (UInt32.ofNat size)]}

def vectorSpellings (items : Array α) (element : α → Language Piece) : Language Piece :=
  vectorHeadSpellings items.size * (items.toList.map element).prod

/-- A field that is left out if it has no value. -/
def optionalSpellings (field : Option α) (spellings : α → Language Piece) : Language Piece :=
  field.elim 1 spellings

/-! ## Having a spelling -/

theorem exists_mem_mul_iff {first second : Language Piece} :
    (∃ pieces, pieces ∈ first * second) ↔
      (∃ pieces, pieces ∈ first) ∧ ∃ pieces, pieces ∈ second := by
  constructor
  · rintro ⟨pieces, mem⟩
    obtain ⟨a, ha, b, hb, rfl⟩ := Language.mem_mul.mp mem
    exact ⟨⟨a, ha⟩, b, hb⟩
  · rintro ⟨⟨a, ha⟩, b, hb⟩
    exact ⟨a ++ b, Language.append_mem_mul ha hb⟩

theorem exists_mem_prod_iff {spellings : List (Language Piece)} :
    (∃ pieces, pieces ∈ spellings.prod) ↔ ∀ one ∈ spellings, ∃ pieces, pieces ∈ one := by
  induction spellings with
  | nil => exact iff_of_true ⟨[], rfl⟩ (by simp)
  | cons one spellings ih => rw [List.prod_cons, exists_mem_mul_iff, ih, List.forall_mem_cons]

theorem size_le_of_mem_textSpellings {text : String} {pieces : List Piece}
    (h : pieces ∈ textSpellings text) : text.utf8ByteSize ≤ ByteString.maxSize := by
  obtain ⟨record, payload, -⟩ := h
  have fits := record.length_payload_le
  rw [payload, Array.length_toList] at fits
  exact fits

theorem exists_mem_vectorSpellings_iff {items : Array α} {element : α → Language Piece} :
    (∃ pieces, pieces ∈ vectorSpellings items element) ↔
      items.size < 0x80000000 ∧ ∀ a ∈ items, ∃ pieces, pieces ∈ element a := by
  rw [vectorSpellings, exists_mem_mul_iff, exists_mem_prod_iff]
  refine and_congr ⟨?_, ?_⟩ (by simp)
  · rintro ⟨_, small, -⟩
    exact small
  · intro small
    exact ⟨_, small, rfl⟩

/-! ## Reading a spelling -/

/-- Between `p` and `q` stands one of the spellings. -/
def Progress.Reads (p : Progress) (spellings : Language Piece) (q : Progress) : Prop :=
  ∃ pieces ∈ spellings, p.Passes (wire pieces) q

namespace Progress

variable {p q : Progress}

theorem reads_one_iff : p.Reads 1 q ↔ p = q := by
  constructor
  · rintro ⟨pieces, rfl, h⟩
    exact passes_nil_iff.mp h
  · rintro rfl
    exact ⟨[], rfl, passes_nil_iff.mpr rfl⟩

theorem reads_mul_iff {first second : Language Piece} :
    p.Reads (first * second) q ↔ ∃ m, p.Reads first m ∧ m.Reads second q := by
  constructor
  · rintro ⟨pieces, mem, h⟩
    obtain ⟨a, ha, b, hb, rfl⟩ := Language.mem_mul.mp mem
    rw [wire_append, passes_append_iff] at h
    obtain ⟨m, hm, hq⟩ := h
    exact ⟨m, ⟨a, ha, hm⟩, b, hb, hq⟩
  · rintro ⟨m, ⟨a, ha, hm⟩, b, hb, hq⟩
    refine ⟨a ++ b, Language.append_mem_mul ha hb, ?_⟩
    rw [wire_append, passes_append_iff]
    exact ⟨m, hm, hq⟩

theorem reads_singleton_iff {pieces : List Piece} :
    p.Reads {pieces} q ↔ p.Passes (wire pieces) q := by
  constructor
  · rintro ⟨_, rfl, h⟩
    exact h
  · intro h
    exact ⟨pieces, rfl, h⟩

theorem reads_piece_iff {piece : Piece} : p.Reads {[piece]} q ↔ p.Passes piece.bytes q := by
  rw [reads_singleton_iff, wire_cons, wire_nil, List.append_nil]

theorem reads_cons_iff {piece next : Piece} {pieces : List Piece} :
    p.Reads {piece :: next :: pieces} q ↔
      ∃ m, p.Reads {[piece]} m ∧ m.Reads {next :: pieces} q := by
  rw [reads_singleton_iff, wire_cons, passes_append_iff]
  exact exists_congr fun m => and_congr reads_piece_iff.symm reads_singleton_iff.symm

theorem reads_record_iff {payload : List UInt8} :
    p.Reads (recordSpellings payload) q ↔
      ∃ record : Record, record.payload = payload ∧ p.Passes record.bytes q := by
  constructor
  · rintro ⟨_, ⟨record, same, rfl⟩, h⟩
    exact ⟨record, same, by simpa [Piece.bytes] using h⟩
  · rintro ⟨record, same, h⟩
    exact ⟨[.record record], ⟨record, same, rfl⟩, by simpa [Piece.bytes] using h⟩

theorem reads_vectorHead_iff {size : Nat} :
    p.Reads (vectorHeadSpellings size) q ↔
      size < 0x80000000 ∧ ∃ m, p.Reads {[.word32 Tag.vector]} m ∧
        m.Reads {[.word32 (UInt32.ofNat size)]} q := by
  rw [← reads_cons_iff, reads_singleton_iff]
  constructor
  · rintro ⟨_, ⟨small, rfl⟩, h⟩
    exact ⟨small, h⟩
  · rintro ⟨small, h⟩
    exact ⟨_, ⟨small, rfl⟩, h⟩

theorem reads_leave_iff {spellings : Language Piece} :
    (∃ inside, p.enter.Reads spellings inside ∧ inside.leave = q) ↔ p.Reads spellings q := by
  constructor
  · rintro ⟨inside, ⟨pieces, mem, h⟩, same⟩
    exact ⟨pieces, mem, passes_leave_iff.mp ⟨inside, h, same⟩⟩
  · rintro ⟨pieces, mem, h⟩
    obtain ⟨inside, h, same⟩ := passes_leave_iff.mpr h
    exact ⟨inside, ⟨pieces, mem, h⟩, same⟩

theorem reads_flags_iff {known : List Nat} {fits : UInt32 → Prop} :
    p.Reads (flagSpellings known fits) q ↔
      ∃ word, fits word ∧ p.Reads {[.word32 word]} q := by
  constructor
  · rintro ⟨_, ⟨word, fit, rfl⟩, h⟩
    exact ⟨word, fit, [.word32 word], rfl, h⟩
  · rintro ⟨word, fit, _, rfl, h⟩
    exact ⟨[.flags known word], ⟨word, fit, rfl⟩, h⟩

end Progress

end TaggedWire
