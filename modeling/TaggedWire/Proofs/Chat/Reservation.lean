import TaggedWire.Proofs.Chat.Continuation
import TaggedWire.Proofs.Reservation

/-!
# Vectors of objects

An object of the schema takes four bytes or more, so no vector of objects outgrows what is reserved
for it.
-/

namespace TaggedWire.Chat

open Decoder

/-- A vector whose elements take four bytes or more cannot be read beyond the slots that were
reserved for it. -/
theorem reserved_slots_suffice :
    (∀ (V α : Type) (reader : Reader V) (element : Decoder V α), element.Strides reader →
      ∀ c : Cursor, reader.SlotsSuffice (.vector element) c) ∧
    (∀ (V α σ : Type) (reader : Reader V) (routine : σ → Decoder V (α × σ)),
      (∀ s, (routine s).Strides reader) →
        ∀ (s : σ) (c : Cursor), reader.SlotsSuffice (.vectorFrom routine s) c) ∧
    ∀ (limits : Limits) (depth : Nat),
      let reader : Reader Object := { registry, limits, depth }
      (object : Decoder Object Object).Strides reader ∧
        ∀ (T : Type) (kind : Kind Object T), (typed kind).Strides reader := by
  refine ⟨fun _ _ _ _ strides => Reader.slotsSuffice_vector strides,
    fun _ _ _ _ _ strides => Reader.slotsSuffice_vectorFrom strides, fun limits depth => ?_⟩
  exact ⟨strides_object forward_constructors, fun _ => strides_typed forward_constructors⟩

/-- A row of objects, with the number of rows before it. -/
def numberedRow (place : Nat) : Decoder Object ((Nat × Array Object) × Nat) := do
  return ((place, ← objectVector), place + 1)

/-- A row with a user in it, and an empty one. -/
def twoRows : ByteArray :=
  ⟨#[0x15, 0xc4, 0xb5, 0x1c, 2, 0, 0, 0,
    0x15, 0xc4, 0xb5, 0x1c, 1, 0, 0, 0, 0x22, 0x17, 0x51, 0x59, 7, 0, 0, 0, 0, 0, 0, 0,
    0x15, 0xc4, 0xb5, 0x1c, 0, 0, 0, 0]⟩

theorem reserved_slots_suffice_twoRows :
    let reader : Reader Object := { registry }
    (∀ place, (numberedRow place).Strides reader) ∧
      (reader.run (.vectorFrom numberedRow 0) (.start twoRows)).result =
        .ok #[(0, #[.peer (.user 7)]), (1, #[])] ∧
      reader.ReservesAll (.start twoRows) 2 := by
  intro reader
  obtain ⟨-, suffice, schema⟩ := reserved_slots_suffice
  have strides (place : Nat) : (numberedRow place).Strides reader :=
    (schema {} 0).1.vector.made fun row => ((place, row), place + 1)
  have read : (Reader.run { registry } (.vectorFrom numberedRow 0) (.start twoRows)).result =
      .ok #[(0, #[.peer (.user 7)]), (1, #[])] := by
    decide +kernel
  exact ⟨strides, read, (suffice _ _ _ reader numberedRow strides 0 (.start twoRows)).whole _ read⟩

end TaggedWire.Chat
