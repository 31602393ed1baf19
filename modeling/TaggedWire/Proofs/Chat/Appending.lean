import TaggedWire.Chat.Encoder
import TaggedWire.Proofs.Appending

/-!
# Writing objects only appends

The schema writes its objects with the same few calls as everyone else, so an object adds the same
bytes wherever it is written, and an object that fails ends all the objects and vectors around it.
-/

namespace TaggedWire.Chat

open Encoder

theorem isWrite_layout (layout : Layout) : layout.encoder.IsWrite :=
  isWrite_single .uint32 layout.id

theorem isWrite_optional {α : Type} {encoder : α → Encoder Unit} (h : ∀ a, (encoder a).IsWrite)
    (field : Option α) : (optional field encoder).IsWrite := by
  cases field with
  | none => exact isWrite_nothing
  | some a => exact h a

theorem isWrite_peer (peer : Peer) : peer.encoder.IsWrite :=
  (isWrite_layout peer.layout).seq (isWrite_single .int64 peer.id)

theorem isWrite_format (format : Format) : format.encoder.IsWrite := by
  cases format with
  | plain style => exact isWrite_nothing
  | pre text | link text => exact isWrite_single .text text
  | mention user => exact isWrite_single .int64 user

theorem isWrite_entity (entity : Entity) : entity.encoder.IsWrite :=
  (isWrite_layout entity.format.layout).seq ((isWrite_single .int32 entity.offset).seq
    ((isWrite_single .int32 entity.length).seq (isWrite_format entity.format)))

theorem isWrite_anyMessage (message : AnyMessage) : message.encoder.IsWrite := by
  cases message with
  | full message =>
    refine (isWrite_layout .message).seq ((isWrite_single .uint32 _).seq ?_)
    refine (isWrite_single .int32 message.id).seq ?_
    refine (isWrite_optional isWrite_peer message.sender).seq ((isWrite_peer message.peer).seq ?_)
    refine (isWrite_single .int32 message.date).seq ((isWrite_single .text message.text).seq ?_)
    refine (isWrite_optional (isWrite_vector isWrite_entity) message.entities).seq ?_
    exact isWrite_optional (isWrite_single .int32) message.views
  | empty message =>
    refine (isWrite_layout .emptyMessage).seq ((isWrite_single .uint32 _).seq ?_)
    refine (isWrite_single .int32 message.id).seq ?_
    exact isWrite_optional isWrite_peer message.peer

theorem isWrite_object (o : Object) : o.encoder.IsWrite := by
  cases o with
  | peer peer => exact isWrite_peer peer
  | entity entity => exact isWrite_entity entity
  | message message => exact isWrite_anyMessage message
  | page messages => exact (isWrite_layout .page).seq (isWrite_vector isWrite_anyMessage messages)

/-! ## Rows of writes -/

/-- Every row of writes adds the same bytes and ends alike, whatever was written before. -/
theorem writes_append :
    (∀ (write : Write) (written : ByteArray),
      write.encoder.run written = (write.result, written ++ write.delta)) ∧
    (∀ (writes : List Write) (written : ByteArray), Write.runAll writes written =
      (writes.map Write.result, written ++ joined (writes.map Write.delta))) ∧
    (∀ o : Object, ∃ write : Write, write.encoder = o.encoder) ∧
    (∀ first second : Write,
      (first.result = .ok () →
        (first.seq second).encoder.Yields second.result (first.delta ++ second.delta)) ∧
      ∀ e, first.result = .error e → (first.seq second).encoder.Yields (.error e) first.delta) ∧
    (∀ payload : ByteArray, ByteString.maxSize < payload.size →
      (Write.single .bytes payload).encoder.Yields
        (.error (.payloadTooLarge payload.size ByteString.maxSize)) .empty) ∧
    (∀ text : String, ByteString.maxSize < text.utf8ByteSize →
      (Write.single .text text).encoder.Yields
        (.error (.payloadTooLarge text.utf8ByteSize ByteString.maxSize)) .empty) ∧
    ∀ (α : Type) (items : Array α) (element : α → Write),
      (0x80000000 ≤ items.size →
        (Write.vector items element).encoder.Yields (.error (.countOverflow items.size)) .empty) ∧
      (items.size < 0x80000000 → (∀ a ∈ items, (element a).result = .ok ()) →
        (Write.vector items element).encoder.Yields (.ok ())
          (vectorHead items.size ++ joined (items.toList.map fun a => (element a).delta))) ∧
      ∀ before failing later e, items.toList = before ++ failing :: later →
        items.size < 0x80000000 → (∀ a ∈ before, (element a).result = .ok ()) →
        (element failing).result = .error e →
        ∀ other : α → Encoder Unit, (∀ a ∈ before ++ [failing], other a = (element a).encoder) →
          (vector items other).Yields (.error e)
            (vectorHead items.size ++ joined (before.map fun a => (element a).delta) ++
              (element failing).delta) := by
  have yields (write : Write) {result : Except Fault Unit} (h : write.result = result) :
      write.encoder.Yields result write.delta := h ▸ write.uniform
  refine ⟨Write.uniform, Write.runAll_eq, isWrite_object, fun first second => ⟨?_, ?_⟩,
    fun payload => bytes_yields_of_large, fun text => bytes_yields_of_large,
    fun α items element => ⟨vector_yields_of_large, ?_, ?_⟩⟩
  · intro goes
    rw [Write.encoder_seq]
    exact (yields first goes).bind second.uniform
  · intro e fails
    rw [Write.encoder_seq]
    exact (yields first fails).bind_error
  · intro fits goes
    exact vector_yields fits fun a mem => yields _ (goes a mem)
  · intro before failing later e split fits goes fails other same
    have same := List.forall_mem_append.mp same
    refine vector_yields_of_fault split fits (fun a mem => ?_) ?_
    · rw [same.1 a mem]
      exact yields _ (goes a mem)
    · rw [same.2 failing List.mem_cons_self]
      exact yields _ fails

end TaggedWire.Chat
