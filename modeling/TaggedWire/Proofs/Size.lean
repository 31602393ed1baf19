import TaggedWire.Proofs.Records

/-!
# How large values are on the wire

A writer spends the same number of bytes on all spellings of a value. Another spelling has four
bytes less for each record that says 255 in one byte, and four more for each long record whose
payload a short one holds in one word less.
-/

namespace TaggedWire

variable {α : Type}

/-! ## Records -/

namespace Record

/-- The size byte is 255. A writer says that size in the long form, which takes one word more. -/
def grows (r : Record) : Bool :=
  r.bytes.head? = some 0xff

/-- The record is long, and a short one of the same payload takes one word less. -/
def shrinks (r : Record) : Bool :=
  r.form = .long ∧ r.payload.length < 254 ∧ r.payload.length % 4 ≠ 0

theorem grows_iff (r : Record) : r.grows ↔ r.form = .short ∧ r.payload.length = 255 := by
  obtain ⟨form, payload, padding, admits, -⟩ := r
  unfold grows bytes
  cases form with
  | long => simp [SizeForm.header]
  | short =>
    obtain ⟨small, -⟩ := admits
    simp [SizeForm.header, LittleEndian.encode, ← UInt8.toNat_inj]
    omega

theorem length_add_grows (r : Record) :
    r.bytes.length + 4 * r.grows.toNat =
      ByteString.recordSize r.payload.length + 4 * r.shrinks.toNat := by
  have grows : r.grows = decide (r.form = .short ∧ r.payload.length = 255) := by
    rw [Bool.eq_iff_iff, grows_iff, decide_eq_true_eq]
  have admits := r.admits
  rw [r.length_bytes, ByteString.recordSize_eq_total, grows, shrinks, frame]
  simp only [SizeForm.frame, Frame.total, Frame.body]
  cases form : r.form with
  | short =>
    rw [form] at admits
    obtain ⟨small, unmarked⟩ := admits
    by_cases full : r.payload.length = 255
    · simp [full, SizeForm.canonical, SizeForm.width]
    · have canonical : SizeForm.canonical r.payload.length = .short := if_pos (by omega)
      simp [canonical, full]
  | long =>
    by_cases small : r.payload.length < 254
    · by_cases whole : r.payload.length % 4 = 0
      · simp [small, whole, SizeForm.canonical, SizeForm.width]
        omega
      · simp [small, whole, SizeForm.canonical, SizeForm.width]
        omega
    · simp [small, SizeForm.canonical]

variable {r : Record}

theorem not_grows (chosen : r.form = .short ↔ r.payload.length < 254) : ¬ r.grows := by
  rw [grows_iff]
  rintro ⟨short, full⟩
  have := chosen.mp short
  omega

theorem not_shrinks (chosen : r.form = .short ↔ r.payload.length < 254) : ¬ r.shrinks := by
  rw [shrinks, decide_eq_true_eq]
  rintro ⟨long, small, -⟩
  rw [chosen.mpr small] at long
  cases long

end Record

/-! ## Pieces -/

namespace Piece

/-- How many bytes a writer spends on the piece. -/
def size : Piece → Nat
  | .word32 _ => 4
  | .word64 _ => 8
  | .flags _ _ => 4
  | .record r => ByteString.recordSize r.payload.length

def record? : Piece → Option Record
  | .record r => some r
  | _ => none

theorem size_mod (piece : Piece) : piece.size % 4 = 0 := by
  cases piece with
  | word32 | word64 | flags => simp [size]
  | record r => exact ByteString.recordSize_mod _

end Piece

def records (pieces : List Piece) : List Record :=
  pieces.filterMap Piece.record?

@[simp] theorem records_cons (piece : Piece) (pieces : List Piece) :
    records (piece :: pieces) = piece.record?.toList ++ records pieces := by
  cases piece <;> rfl

theorem mem_records_iff {pieces : List Piece} {r : Record} :
    r ∈ records pieces ↔ .record r ∈ pieces := by
  rw [records, List.mem_filterMap]
  constructor
  · rintro ⟨piece, mem, found⟩
    cases piece with
    | record other =>
      obtain rfl := Option.some.inj found
      exact mem
    | _ => cases found
  · intro mem
    exact ⟨_, mem, rfl⟩

/-- How many bytes a writer spends on a row of pieces. -/
def writtenSize (pieces : List Piece) : Nat :=
  (pieces.map Piece.size).sum

@[simp] theorem writtenSize_cons (piece : Piece) (pieces : List Piece) :
    writtenSize (piece :: pieces) = piece.size + writtenSize pieces :=
  List.sum_cons

theorem writtenSize_append (first second : List Piece) :
    writtenSize (first ++ second) = writtenSize first + writtenSize second := by
  rw [writtenSize, List.map_append, List.sum_append]
  rfl

theorem writtenSize_mod (pieces : List Piece) : writtenSize pieces % 4 = 0 := by
  induction pieces with
  | nil => rfl
  | cons piece pieces ih =>
    have := piece.size_mod
    rw [writtenSize_cons]
    omega

theorem length_wire_add_grows (pieces : List Piece) :
    (wire pieces).length + 4 * (records pieces).countP Record.grows =
      writtenSize pieces + 4 * (records pieces).countP Record.shrinks := by
  induction pieces with
  | nil => rfl
  | cons piece pieces ih =>
    rw [wire_cons, List.length_append, writtenSize_cons]
    cases piece with
    | word32 word | word64 word | flags known word =>
      simp [Piece.bytes, Piece.size, Piece.record?]
      omega
    | record r =>
      have first := r.length_add_grows
      simp only [Bool.toNat, Bool.cond_eq_ite] at first
      simp [Piece.bytes, Piece.size, Piece.record?, List.countP_cons]
      omega

theorem length_wire_eq {pieces : List Piece}
    (chosen : ∀ r ∈ records pieces, r.form = .short ↔ r.payload.length < 254) :
    (wire pieces).length = writtenSize pieces := by
  have sizes := length_wire_add_grows pieces
  rw [List.countP_eq_zero.mpr fun r mem => Record.not_grows (chosen r mem),
    List.countP_eq_zero.mpr fun r mem => Record.not_shrinks (chosen r mem)] at sizes
  exact sizes

theorem length_wire_of_canonical {pieces : List Piece} (h : ∀ piece ∈ pieces, piece.Canonical) :
    (wire pieces).length = writtenSize pieces :=
  length_wire_eq fun _ mem => (h _ (mem_records_iff.mp mem)).1

/-! ## Spellings -/

/-- All spellings are of one size to a writer. -/
def Measures (spellings : Language Piece) (size : Nat) : Prop :=
  ∀ pieces ∈ spellings, writtenSize pieces = size

theorem measures_one : Measures 1 0 := by
  rintro _ rfl
  rfl

theorem measures_word32 (word : UInt32) : Measures {[.word32 word]} 4 := by
  rintro _ rfl
  rfl

theorem measures_word64 (word : UInt64) : Measures {[.word64 word]} 8 := by
  rintro _ rfl
  rfl

theorem measures_flags (known : List Nat) (fits : UInt32 → Prop) :
    Measures (flagSpellings known fits) 4 := by
  rintro _ ⟨word, -, rfl⟩
  rfl

theorem measures_text (text : String) :
    Measures (textSpellings text) (ByteString.recordSize text.utf8ByteSize) := by
  rintro _ ⟨r, same, rfl⟩
  simp [writtenSize, Piece.size, same]

theorem Measures.mul {first second : Language Piece} {a b : Nat} (ha : Measures first a)
    (hb : Measures second b) : Measures (first * second) (a + b) := by
  intro pieces mem
  obtain ⟨front, front_mem, back, back_mem, rfl⟩ := Language.mem_mul.mp mem
  rw [writtenSize_append, ha front front_mem, hb back back_mem]

theorem measures_prod {items : List α} {element : α → Language Piece} {size : α → Nat}
    (h : ∀ a, Measures (element a) (size a)) :
    Measures (items.map element).prod (items.map size).sum := by
  induction items with
  | nil => exact measures_one
  | cons a items ih =>
    rw [List.map_cons, List.map_cons, List.prod_cons, List.sum_cons]
    exact (h a).mul ih

/-- The identifier and the count stand before the elements. -/
def vectorSize (items : Array α) (size : α → Nat) : Nat :=
  8 + (items.toList.map size).sum

theorem measures_vector (items : Array α) {element : α → Language Piece} {size : α → Nat}
    (h : ∀ a, Measures (element a) (size a)) :
    Measures (vectorSpellings items element) (vectorSize items size) := by
  refine Measures.mul ?_ (measures_prod h)
  rintro _ ⟨-, rfl⟩
  rfl

def optionalSize (field : Option α) (size : α → Nat) : Nat :=
  field.elim 0 size

theorem measures_optional (field : Option α) {spellings : α → Language Piece} {size : α → Nat}
    (h : ∀ a, Measures (spellings a) (size a)) :
    Measures (optionalSpellings field spellings) (optionalSize field size) := by
  cases field with
  | none => exact measures_one
  | some a => exact h a

end TaggedWire
