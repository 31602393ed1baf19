import Mathlib.Data.Nat.Bitwise
import TaggedWire.Chat.Schema
import TaggedWire.Proofs.Chat.Grammar
import TaggedWire.Proofs.Writing

/-!
# The schema encoder writes its grammar

Every object is written in its canonical spelling, and the flags of a message tell which of its
fields follow.
-/

namespace TaggedWire.Chat

open Encoder

/-! ## Flags -/

theorem Flag.testBit_mask (flag : Flag) (place : Nat) :
    flag.mask.toNat.testBit place = (flag.bit.toNat == place) := by
  rw [toNat_mask, Nat.testBit_two_pow]
  rfl

theorem Flag.testBit_word (flags : List Flag) (place : Nat) :
    (Flag.word flags).toNat.testBit place = flags.any (·.bit.toNat == place) := by
  induction flags with
  | nil => simp [word]
  | cons flag flags ih =>
    rw [List.any_cons, ← ih, ← testBit_mask, ← Nat.testBit_or, ← UInt32.toNat_or]
    rfl

theorem Flag.any_if (c : Bool) (flag : Flag) (place : Nat) :
    (if c then [flag] else []).any (·.bit.toNat == place) = (c && flag.bit.toNat == place) := by
  cases c <;> simp

theorem Message.testBit_flags (message : Message) (place : Nat) :
    (Flag.word message.flags).toNat.testBit place =
      (message.out && 1 == place || message.silent && 13 == place ||
        message.sender.isSome && 8 == place || message.entities.isSome && 7 == place ||
        message.views.isSome && 10 == place) := by
  rw [Flag.testBit_word, flags]
  simp only [List.any_append, Flag.any_if]
  rfl

theorem spells_messageFlags (message : Message) :
    (Encoder.uint32 (Flag.word message.flags)).Spells [] message.flagSpellings := by
  refine spells_flags ?_ fun place set => ?_
  · constructor <;> simp [Message.testBit_flags]
  · rw [Message.testBit_flags] at set
    simp only [Bool.or_eq_true, Bool.and_eq_true, beq_iff_eq] at set
    rcases set with (((⟨-, rfl⟩ | ⟨-, rfl⟩) | ⟨-, rfl⟩) | ⟨-, rfl⟩) | ⟨-, rfl⟩ <;> decide

theorem spells_emptyMessageFlags (message : EmptyMessage) :
    (Encoder.uint32 (Flag.word message.flags)).Spells [] message.flagSpellings := by
  have bits (place : Nat) : (Flag.word message.flags).toNat.testBit place =
      (message.peer.isSome && 0 == place) := by
    rw [Flag.testBit_word, EmptyMessage.flags, Flag.any_if]
    rfl
  refine spells_flags (by simp [bits]) fun place set => ?_
  rw [bits, Bool.and_eq_true, beq_iff_eq] at set
  obtain ⟨-, rfl⟩ := set
  decide

/-! ## Objects -/

theorem spells_layout (level : Nat) (layout : Layout) :
    layout.encoder.Spells [.object level] {[.word32 layout.id]} where
  writes _ := (spells_uint32 layout.id).writes (by simp)
  -- The mark of an object stops no writer.
  refuses fault h := by cases h

theorem spells_optional {α : Type} (field : Option α) {encoder : α → Encoder Unit}
    {outline : α → List Mark} {spellings : α → Language Piece}
    (h : ∀ a, (encoder a).Spells (outline a) (spellings a)) :
    (optional field encoder).Spells (optionalOutline field outline)
      (optionalSpellings field spellings) := by
  cases field with
  | none => exact spells_nothing
  | some a => exact h a

theorem spells_peer (level : Nat) (peer : Peer) :
    peer.encoder.Spells (peer.outline level) peer.spellings := by
  cases peer with
  | user id | group id | channel id => exact (spells_layout level _).seq (spells_int64 id)

theorem spells_format (format : Format) : format.encoder.Spells format.outline format.fields := by
  cases format with
  | plain style => exact spells_nothing
  | pre text | link text => exact spells_text text
  | mention user => exact spells_int64 user

theorem spells_entity (level : Nat) (entity : Entity) :
    entity.encoder.Spells (entity.outline level) entity.spellings := by
  have h := (spells_layout level entity.format.layout).seq
    ((spells_int32 entity.offset).seq ((spells_int32 entity.length).seq
      (spells_format entity.format)))
  unfold Entity.encoder
  simpa [Entity.spellings, Layout.spellings, Entity.fields, Entity.outline, mul_assoc] using h

theorem spells_message (level : Nat) (message : Message) :
    message.encoder.Spells (.object level :: message.inner level)
      (Layout.message.spellings message.fields) := by
  have noViews : optionalOutline message.views (fun _ => []) = [] := by
    cases message.views <;> rfl
  have h := (spells_layout level .message).seq ((spells_messageFlags message).seq
    ((spells_int32 message.id).seq ((spells_optional message.sender (spells_peer (level + 1))).seq
    ((spells_peer (level + 1) message.peer).seq ((spells_int32 message.date).seq
    ((spells_text message.text).seq ((spells_optional message.entities fun entities =>
      spells_vector (spells_entity (level + 1)) entities).seq
    (spells_optional message.views spells_int32))))))))
  unfold Message.encoder
  simpa [Message.inner, Layout.spellings, Message.fields, mul_assoc, noViews] using h

theorem spells_emptyMessage (level : Nat) (message : EmptyMessage) :
    message.encoder.Spells (.object level :: message.inner level)
      (Layout.emptyMessage.spellings message.fields) := by
  have h := (spells_layout level .emptyMessage).seq ((spells_emptyMessageFlags message).seq
    ((spells_int32 message.id).seq (spells_optional message.peer (spells_peer (level + 1)))))
  unfold EmptyMessage.encoder
  simpa [EmptyMessage.inner, Layout.spellings, EmptyMessage.fields, mul_assoc] using h

theorem spells_anyMessage (level : Nat) (message : AnyMessage) :
    message.encoder.Spells (message.outline level) message.spellings := by
  cases message with
  | full message => exact spells_message level message
  | empty message => exact spells_emptyMessage level message

theorem spells_object (level : Nat) (o : Object) :
    o.encoder.Spells (o.outline level) o.spellings := by
  cases o with
  | peer peer => exact spells_peer level peer
  | entity entity => exact spells_entity level entity
  | message message => exact spells_anyMessage level message
  | page messages =>
    exact (spells_layout level .page).seq (spells_vector (spells_anyMessage (level + 1)) messages)

end TaggedWire.Chat
