import TaggedWire.Proofs.Narrowing
import TaggedWire.Proofs.Work

/-!
# What is reserved for a vector

Slots are reserved before the first element is read, and no more of them than the bytes that are
left can fill with elements of four bytes. If each element takes at least that, a vector that can be
read has a slot for each of its elements from the start.
-/

namespace TaggedWire

variable {V T α β σ : Type}

/-! ## Reads of four bytes or more -/

/-- Each call that succeeds ends four bytes further on, or more. -/
def Decoder.Strides (reader : Reader V) (d : Decoder V α) : Prop :=
  ∀ c a, (reader.run d c).result = .ok a → c.position + 4 ≤ (reader.run d c).cursor.position

theorem Decoder.Strides.made {reader : Reader V} {d : Decoder V α} (h : d.Strides reader)
    (make : α → β) : (do return make (← d) : Decoder V β).Strides reader := by
  intro c b read
  obtain ⟨a, first, whole⟩ := Reader.exists_run_of_bind read
  rw [whole]
  exact h c a first

theorem Registry.object_strides {registry : Registry V} {limits : Limits} {room : Nat}
    (forward : ∀ constructor ∈ registry.constructors, constructor.body.Forward) {p q : Progress}
    {id : UInt32} {value : V} (read : registry.object limits room p = (.ok (id, value), q)) :
    p.cursor.position + 4 ≤ q.cursor.position := by
  cases room with
  | zero => exact absurd read object_zero_ne_ok
  | succ room =>
    obtain ⟨constructor, mem, rfl, m, tag, inside, body, rfl⟩ := object_succ_ok_iff.mp read
    -- The identifier takes the four bytes, and the body does not go back behind it.
    have identifier := (Progress.reads_piece_iff.mp tag).position
    let scope : Scope V := ⟨limits, registry.labels, registry.object limits room⟩
    have fields : m.enter.Advances
        (constructor.body.acts scope (registry.acts limits room) m.enter)
        (constructor.body.exec scope m.enter).2 :=
      (forward constructor mem).advances (object_advances forward limits room) m.enter
    rw [Piece.bytes, LittleEndian.length_encode] at identifier
    rw [body] at fields
    rw [← identifier]
    exact Nat.le_trans (Nat.le_add_right _ _) fields.position

namespace Decoder

variable {reader : Reader V}
  (forward : ∀ constructor ∈ reader.registry.constructors, constructor.body.Forward)

include forward

theorem strides_object : (object : Decoder V V).Strides reader := by
  intro c value read
  obtain ⟨⟨id, _⟩, run, -⟩ := exec_map_ok_iff.mp (Reader.exec_of_result read)
  exact Registry.object_strides forward run

theorem strides_typed (kind : Kind V T) : (typed kind).Strides reader := by
  intro c narrow read
  obtain ⟨id, value, run, -⟩ := exec_typed_ok_iff.mp (Reader.exec_of_result read)
  exact Registry.object_strides forward run

end Decoder

/-! ## Elements -/

namespace Decoder

/-- Elements of a vector, by a routine that keeps a state of its own from one call to the next. -/
def elementsFrom (routine : σ → Decoder V (α × σ)) :
    (count : Nat) → σ → Array α → Decoder V (Array α)
  | 0, _, items => pure items
  | count + 1, s, items => do
    let (item, s) ← routine s
    elementsFrom routine count s (items.push item)

/-- What a vector announces, and how many slots are reserved for that. -/
def reservation : Decoder V (Nat × Nat) := do
  let count ← vectorCount
  let remaining := (← look).cursor.remaining
  return (count, reservedSlots count remaining)

/-- A vector whose elements are read by a routine with a state, which is `s` at the start. -/
def vectorFrom (routine : σ → Decoder V (α × σ)) (s : σ) : Decoder V (Array α) := do
  let (count, slots) ← reservation
  elementsFrom routine count s (Array.emptyWithCapacity slots)

theorem elements_eq_elementsFrom (element : Decoder V α) (count : Nat) (items : Array α) :
    elements element count items =
      elementsFrom (fun _ => do return (← element, ())) count () items := by
  induction count generalizing items with
  | zero => rfl
  | succ count ih => simp only [elements_succ, elementsFrom, bind_assoc, pure_bind, ih]

theorem vector_eq_vectorFrom (element : Decoder V α) :
    vector element = vectorFrom (fun _ => do return (← element, ())) () := by
  simp only [vector, vectorFrom, reservation, bind_assoc, pure_bind, elements_eq_elementsFrom]

variable {reader : Reader V} {routine : σ → Decoder V (α × σ)}

/-- Every element that was read is paid for with four bytes. -/
theorem elementsFrom_paid (strides : ∀ s, (routine s).Strides reader) {count : Nat} {s : σ}
    {items all : Array α} {c : Cursor}
    (read : (reader.run (elementsFrom routine count s items) c).result = .ok all) :
    all.size = items.size + count ∧
      c.position + 4 * count ≤
        (reader.run (elementsFrom routine count s items) c).cursor.position := by
  induction count generalizing s items c with
  | zero =>
    cases read
    exact ⟨rfl, Nat.le_refl _⟩
  | succ count ih =>
    obtain ⟨⟨item, s'⟩, first, whole⟩ := Reader.exists_run_of_bind read
    change reader.run (elementsFrom routine (count + 1) s items) c =
      reader.run (elementsFrom routine count s' (items.push item)) _ at whole
    have step := strides s c _ first
    rw [whole] at read ⊢
    obtain ⟨size, behind⟩ := ih read
    rw [Array.size_push] at size
    exact ⟨by omega, by omega⟩

end Decoder

/-! ## Vectors -/

/-- The count that a vector at this cursor announces, behind its identifier. -/
def Cursor.announced (c : Cursor) : Int32 :=
  (LittleEndian.word32 (c.buffer.extract (c.position + 4) (c.position + 8))).toInt32

namespace Reader

/-- A vector at `c` announces `count` elements. Behind that there are four bytes or more for each of
them, and so a slot is reserved for each. -/
structure ReservesAll (reader : Reader V) (c : Cursor) (count : Nat) : Prop where
  head : 8 ≤ c.remaining
  announced : c.announced.toInt = count
  enough : count ≤ (c.remaining - 8) / 4
  slots : reservedSlots count (c.remaining - 8) = count
  reserved : (reader.run .reservation c).result = .ok (count, count)

/-- If the vector at `c` can be read, it has as many elements as it announces and as there are slots.
If it announces too many for the bytes behind its count, it cannot be read. -/
structure SlotsSuffice (reader : Reader V) (vector : Decoder V (Array α)) (c : Cursor) : Prop where
  whole : ∀ items, (reader.run vector c).result = .ok items → reader.ReservesAll c items.size
  excess : ((c.remaining - 8) / 4 : Nat) < c.announced.toInt →
    ∃ e, (reader.run vector c).result = .error e

variable {reader : Reader V} {c : Cursor}

theorem slotsSuffice_of_whole {vector : Decoder V (Array α)}
    (whole : ∀ items, (reader.run vector c).result = .ok items →
      reader.ReservesAll c items.size) : reader.SlotsSuffice vector c where
  whole := whole
  excess more := by
    cases read : (reader.run vector c).result with
    | error e => exact ⟨e, rfl⟩
    | ok items =>
      have announced := (whole items read).announced
      have enough := (whole items read).enough
      omega

theorem run_vectorCount_ok {count : Nat} (read : (reader.run .vectorCount c).result = .ok count) :
    c.announced.toInt = count ∧
      (reader.run .vectorCount c).cursor.position = c.position + 8 := by
  obtain ⟨-, head⟩ := Decoder.exec_vectorCount_ok_iff.mp (exec_of_result read)
  obtain ⟨small, m, tag, size⟩ := Progress.reads_vectorHead_iff.mp head
  have first := Progress.reads_piece_iff.mp tag
  have middle := first.position
  have behind := (Progress.reads_piece_iff.mp size).position
  rw [Piece.bytes, LittleEndian.length_encode] at middle behind
  have word : c.announced = (UInt32.ofNat count).toInt32 := by
    rw [← size.word_eq, Cursor.word, first.buffer, middle]
    rfl
  obtain ⟨sign, same⟩ :=
    Decoder.count_iff.mpr ⟨small, UInt32.toUInt32_toInt32 (UInt32.ofNat count)⟩
  have clamp : c.announced.toNatClampNeg = c.announced.toInt.toNat := rfl
  rw [← word] at sign same
  rw [Int32.lt_iff_toInt_lt, Int32.toInt_zero] at sign
  dsimp only at middle behind
  exact ⟨by omega, by omega⟩

theorem run_reservation_ok {count slots : Nat}
    (read : (reader.run .reservation c).result = .ok (count, slots)) :
    c.announced.toInt = count ∧ slots = reservedSlots count (c.remaining - 8) ∧
      (reader.run .reservation c).cursor.position = c.position + 8 := by
  obtain ⟨size, head, whole⟩ := exists_run_of_bind read
  obtain ⟨announced, position⟩ := run_vectorCount_ok head
  have buffer := reader.buffer_run .vectorCount c
  generalize (reader.run .vectorCount c).cursor = behind at whole position buffer
  have remaining : behind.remaining = c.remaining - 8 := by
    rw [Cursor.remaining, Cursor.remaining, buffer, position, Nat.sub_sub]
  change reader.run .reservation c =
    ⟨.ok (size, reservedSlots size behind.remaining), behind, reader⟩ at whole
  rw [whole] at read ⊢
  cases read
  exact ⟨announced, by rw [remaining], position⟩

variable {routine : σ → Decoder V (α × σ)}

theorem run_vectorFrom_ok (strides : ∀ s, (routine s).Strides reader) {s : σ} {items : Array α}
    (read : (reader.run (.vectorFrom routine s) c).result = .ok items) :
    reader.ReservesAll c items.size ∧
      c.position + 8 + 4 * items.size ≤
        (reader.run (.vectorFrom routine s) c).cursor.position := by
  obtain ⟨⟨count, slots⟩, head, whole⟩ := exists_run_of_bind read
  change reader.run (.vectorFrom routine s) c =
    reader.run (.elementsFrom routine count s (Array.emptyWithCapacity slots)) _ at whole
  obtain ⟨announced, same, position⟩ := run_reservation_ok head
  -- The last element ends in the buffer, so the bytes that were paid had been left.
  have inside := (reader.run (.vectorFrom routine s) c).cursor.position_le
  rw [buffer_run] at inside
  rw [whole] at read inside ⊢
  obtain ⟨size, paid⟩ := Decoder.elementsFrom_paid strides read
  obtain rfl : items.size = count := size.trans (Nat.zero_add count)
  rw [position] at paid
  have left := c.position_add_remaining
  have enough : items.size ≤ (c.remaining - 8) / 4 := by omega
  have slots : reservedSlots items.size (c.remaining - 8) = items.size := Nat.min_eq_left enough
  rw [same, slots] at head
  exact ⟨⟨by omega, announced, enough, slots, head⟩, paid⟩

theorem slotsSuffice_vectorFrom (strides : ∀ s, (routine s).Strides reader) (s : σ) (c : Cursor) :
    reader.SlotsSuffice (.vectorFrom routine s) c :=
  slotsSuffice_of_whole fun _ read => (run_vectorFrom_ok strides read).1

end Reader

theorem Decoder.Strides.vector {reader : Reader V} {element : Decoder V α}
    (h : element.Strides reader) : (vector element).Strides reader := by
  intro c items read
  rw [vector_eq_vectorFrom] at read ⊢
  have behind := (Reader.run_vectorFrom_ok (fun _ => h.made (·, ())) read).2
  omega

theorem Reader.slotsSuffice_vector {reader : Reader V} {element : Decoder V α}
    (strides : element.Strides reader) (c : Cursor) : reader.SlotsSuffice (.vector element) c := by
  rw [Decoder.vector_eq_vectorFrom]
  exact slotsSuffice_vectorFrom (fun _ => strides.made (·, ())) () c

-- Five single bytes can be read where one slot is reserved.
example :
    let buffer : ByteArray := ⟨#[0x15, 0xc4, 0xb5, 0x1c, 5, 0, 0, 0, 1, 2, 3, 4, 5]⟩
    let reader : Reader Empty := { registry := ∅ }
    (reader.run (.vector .byte) (.start buffer)).result = .ok #[1, 2, 3, 4, 5] ∧
      (reader.run .reservation (.start buffer)).result = .ok (5, 1) := by
  decide +kernel

end TaggedWire
