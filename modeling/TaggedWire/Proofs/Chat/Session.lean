import TaggedWire.Proofs.Chat.Continuation
import TaggedWire.Proofs.Session

/-!
# Sessions with the schema
-/

namespace TaggedWire.Chat

open Decoder

theorem unmoved_constructors : ∀ constructor ∈ registry.constructors, ∀ scope : Scope Object,
    (labelled : Decoder Object (UInt32 × Object)).Unmoved scope →
      constructor.body.Unmoved scope := by
  intro constructor mem scope object
  obtain ⟨layout, -, rfl⟩ := List.mem_map.mp mem
  exact (inherited_of_closed (closed_unmoved object)).body layout

/-- After any reads and moves in a row the cursor is sound, whether they succeeded or not. -/
theorem session_sound (buffer : ByteArray) (small : buffer.size < 0x7fffffffffffffff)
    (limits : Limits) (operations : List (Operation Object)) :
    (Session.after ⟨{ registry, limits }, .start buffer⟩ operations).Sound buffer :=
  Session.sound_after forward_constructors unmoved_constructors small operations

/-- A truth value and a word. -/
def truthAndWord : ByteArray :=
  ⟨#[0xb5, 0x75, 0x72, 0x99, 1, 0, 0, 0]⟩

theorem session_sound_truthAndWord :
    truthAndWord.size < 0x7fffffffffffffff ∧
      let s := Session.after ⟨{ registry }, .start truthAndWord⟩
        [.read (.single .bool), .read (.single .uint64), .seek (-2), .read .object,
          .seek Int64.minValue]
      s.cursor.position = 6 ∧ s.Sound truthAndWord := by
  have small : truthAndWord.size < 0x7fffffffffffffff := by decide
  exact ⟨small, by rfl, session_sound truthAndWord small {} _⟩

end TaggedWire.Chat
