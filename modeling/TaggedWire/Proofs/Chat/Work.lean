import TaggedWire.Proofs.Chat.Continuation
import TaggedWire.Proofs.Footprint
import TaggedWire.Proofs.Work

/-!
# What reading an object costs

The bytes that are left bound the lookups, the bodies that run at once, and the object that comes
out. No limit is needed for that, so neither a count nor deep nesting makes much of a small input.
-/

namespace TaggedWire.Chat

open Decoder

/-! ## The size of an object -/

/-- The object itself and all messages, peers and entities in it. -/
def Object.count (o : Object) : Nat :=
  objectCount (o.outline 0)

def Object.textSize (o : Object) : Nat :=
  TaggedWire.textSize (o.outline 0)

variable {level : Nat}

theorem covers_layout (level : Nat) (layout : Layout) {fields : Language Piece} {inner : List Mark}
    (h : Covers fields inner) : Covers (layout.spellings fields) (.object level :: inner) :=
  (Covers.word level layout.id).mul h

theorem covers_peer (level : Nat) (peer : Peer) : Covers peer.spellings (peer.outline level) :=
  covers_layout level _ (.nil _)

theorem covers_format (format : Format) : Covers format.fields format.outline := by
  cases format with
  | pre value | link value => exact .text value
  | plain | mention => exact .nil _

theorem covers_entity (level : Nat) (entity : Entity) :
    Covers entity.spellings (entity.outline level) :=
  covers_layout level _ ((Covers.nil _).mul (covers_format entity.format))

theorem covers_message (level : Nat) (message : Message) :
    Covers message.fields (message.inner level) := by
  have sender := Covers.optional message.sender (covers_peer (level + 1))
  have peer := covers_peer (level + 1) message.peer
  have entities := Covers.optional message.entities fun entities =>
    Covers.vector entities (covers_entity (level + 1))
  have fields := ((((((Covers.nil (message.flagSpellings * {[.word32 message.id.toUInt32]})).mul
    sender).mul peer).mul (.nil {[.word32 message.date.toUInt32]})).mul
      (.text message.text)).mul entities).mul
        (.nil (optionalSpellings message.views fun views => {[.word32 views.toUInt32]}))
  simpa [Message.fields, Message.inner] using fields

theorem covers_emptyMessage (level : Nat) (message : EmptyMessage) :
    Covers message.fields (message.inner level) :=
  (Covers.nil _).mul (.optional message.peer (covers_peer (level + 1)))

theorem covers_anyMessage (level : Nat) (message : AnyMessage) :
    Covers message.spellings (message.outline level) := by
  cases message with
  | full message => exact covers_layout level _ (covers_message level message)
  | empty message => exact covers_layout level _ (covers_emptyMessage level message)

theorem covers_object (level : Nat) (o : Object) : Covers o.spellings (o.outline level) := by
  cases o with
  | peer peer => exact covers_peer level peer
  | entity entity => exact covers_entity level entity
  | message message => exact covers_anyMessage level message
  | page messages =>
    exact covers_layout level _ (.vector messages (covers_anyMessage (level + 1)))

/-! ## Reading an object -/

/-- From `n` bytes on at most `n / 4` identifiers are looked up, and the object that comes out is no
larger than what was read. -/
theorem read_bounded (limits : Limits) (c : Cursor) :
    let reader : Reader Object := { registry, limits }
    let outcome := reader.run .object c
    lookups (reader.acts .object c) ≤ c.remaining / 4 ∧
    (∀ before after, reader.events .object c = before ++ after →
      running before ≤ (c.remaining / 4 : Nat)) ∧
    (∀ more : Nat,
      let enough : Limits := { limits with maxDepth := c.remaining / 4 }
      let higher : Limits := { limits with maxDepth := c.remaining / 4 + more }
      (Reader.run { registry, limits := higher } .object c).result =
          (Reader.run { registry, limits := enough } .object c).result ∧
        (Reader.run { registry, limits := higher } .object c).cursor =
          (Reader.run { registry, limits := enough } .object c).cursor) ∧
    ∀ o, outcome.result = .ok o →
      c.position + (4 * o.count + o.textSize) ≤ outcome.cursor.position := by
  intro reader outcome
  have cost := (reader.acts_advance forward_constructors forward_object c).remaining
  have looked : lookups (reader.acts .object c) ≤ c.remaining / 4 := by
    change 4 * lookups (reader.acts .object c) + _ ≤ c.remaining at cost
    omega
  refine ⟨looked, ?_, ?_, ?_⟩
  · intro before after split
    have started := reader.starts_le_lookups .object c
    have inside := running_le_starts before
    rw [split, starts, List.countP_append, ← starts] at started
    omega
  · intro more enough higher
    have longest : higher.maxVectorSize = enough.maxVectorSize := rfl
    have same : (Decoder.object : Decoder Object Object).exec
          (Reader.scope { registry, limits := higher }) ⟨c, 0⟩ =
        Decoder.object.exec (Reader.scope { registry, limits := enough }) ⟨c, 0⟩ :=
      Reader.exec_eq_of_depth forward_constructors longest forward_object (Nat.le_add_right _ _)
        (Nat.le_refl _)
    exact ⟨congrArg Prod.fst same, congrArg (fun run => run.2.cursor) same⟩
  · intro o read
    obtain ⟨q, run, position⟩ := Reader.run_ok_iff.mp ⟨read, rfl⟩
    obtain ⟨-, pieces, mem, passed⟩ := exec_object_ok_iff.mp run
    have covered : footprint (o.outline 0) ≤ (wire pieces).length := covers_object 0 o pieces mem
    have behind := passed.position
    rw [position] at behind
    rw [behind]
    exact Nat.add_le_add_left covered _

/-- A page that announces two thousand million messages and ends there. -/
def hollowPage : ByteArray :=
  ⟨#[0x87, 0x8e, 0x71, 0x8c, 0x15, 0xc4, 0xb5, 0x1c, 0xff, 0xff, 0xff, 0x7f]⟩

example :
    let reader : Reader Object := { registry, limits := ⟨0xffffffff, 0xffffffff⟩ }
    lookups (reader.acts .object (.start hollowPage)) = 1 := by
  rfl

end TaggedWire.Chat
