import TaggedWire.Proofs.Ambiguity
import TaggedWire.Proofs.Chat.RoundTrip

/-!
# What the schema encoder can write

The bytes of an object are made of its pieces in one way only. They are what the encoder writes just
if each of these pieces is canonical, so nothing else in them is a matter of choice.
-/

namespace TaggedWire.Chat

/-! ## One reading -/

theorem unambiguous_fields {layout : Layout} {fields : Language Piece} (h : Unambiguous fields) :
    Unambiguous (layout.spellings fields) :=
  (unambiguous_singleton _).mul h

theorem unambiguous_peer (peer : Peer) : Unambiguous peer.spellings := by
  cases peer with
  | user id | group id | channel id => exact unambiguous_fields (unambiguous_singleton _)

theorem unambiguous_format (format : Format) : Unambiguous format.fields := by
  cases format with
  | plain style => exact unambiguous_one
  | pre text | link text => exact unambiguous_text text
  | mention user => exact unambiguous_singleton _

theorem unambiguous_entity (entity : Entity) : Unambiguous entity.spellings :=
  unambiguous_fields <|
    ((unambiguous_singleton _).mul (unambiguous_singleton _)).mul (unambiguous_format _)

theorem unambiguous_messageFlags (message : Message) : Unambiguous message.flagSpellings := by
  refine unambiguous_flags fun word word' h h' place known => ?_
  simp only [List.mem_cons, List.not_mem_nil, or_false] at known
  rcases known with rfl | rfl | rfl | rfl | rfl
  · rw [h.out, h'.out]
  · rw [h.entities, h'.entities]
  · rw [h.sender, h'.sender]
  · rw [h.views, h'.views]
  · rw [h.silent, h'.silent]

theorem unambiguous_message (message : Message) : Unambiguous message.fields := by
  have flags := unambiguous_messageFlags message
  have sender := unambiguous_optional message.sender unambiguous_peer
  have entities := unambiguous_optional message.entities fun entities =>
    unambiguous_vector entities unambiguous_entity
  have views := unambiguous_optional message.views fun views =>
    unambiguous_singleton [.word32 views.toUInt32]
  exact (((((((flags.mul (unambiguous_singleton _)).mul sender).mul (unambiguous_peer _)).mul
    (unambiguous_singleton _)).mul (unambiguous_text _)).mul entities).mul views)

theorem unambiguous_emptyMessage (message : EmptyMessage) : Unambiguous message.fields := by
  have flags : Unambiguous message.flagSpellings := by
    refine unambiguous_flags fun word word' h h' place known => ?_
    obtain rfl := List.mem_singleton.mp known
    rw [h, h']
  exact (flags.mul (unambiguous_singleton _)).mul
    (unambiguous_optional message.peer unambiguous_peer)

theorem unambiguous_anyMessage (message : AnyMessage) : Unambiguous message.spellings := by
  cases message with
  | full message => exact unambiguous_fields (unambiguous_message message)
  | empty message => exact unambiguous_fields (unambiguous_emptyMessage message)

theorem unambiguous_object (o : Object) : Unambiguous o.spellings := by
  cases o with
  | peer peer => exact unambiguous_peer peer
  | entity entity => exact unambiguous_entity entity
  | message message => exact unambiguous_anyMessage message
  | page messages =>
    exact unambiguous_fields (unambiguous_vector messages unambiguous_anyMessage)

/-! ## What was read and what is written -/

theorem encode_eq_wire_iff {o : Object} {pieces : List Piece} (mem : pieces ∈ o.spellings) :
    encode o = .ok (wire pieces).toByteArray ↔ ∀ piece ∈ pieces, piece.Canonical := by
  obtain ⟨written, written_mem, canonical, encoded⟩ :=
    encode_of_writable (exists_mem_spellings_iff_writable.mp ⟨pieces, mem⟩)
  have unambiguous := unambiguous_object o
  constructor
  · intro h
    have bytes := congrArg (fun bytes => bytes.data.toList)
      (Except.ok.inj (h.symm.trans encoded))
    simp only [List.data_toByteArray] at bytes
    -- The same bytes are the same pieces, so these are the ones that were written.
    rwa [unambiguous.of_wire pieces mem written written_mem [] [] (by rw [bytes])]
  · intro h
    rw [unambiguous.of_canonical pieces mem written written_mem h canonical, encoded]

theorem exists_pieces_of_decode {buffer : ByteArray} {limits : Limits} {o : Object}
    (h : decode buffer limits = .ok o) :
    let k := (Reader.run { registry, limits } .object (.start buffer)).cursor.position
    ∃ pieces ∈ o.spellings, k = (wire pieces).length ∧
      wire pieces = (buffer.extract 0 k).data.toList ∧
      ∀ other ∈ o.spellings, wire other = (buffer.extract 0 k).data.toList → other = pieces := by
  intro k
  obtain ⟨q, run, (position : q.cursor.position = k)⟩ := Reader.run_ok_iff.mp ⟨h, rfl⟩
  obtain ⟨-, pieces, mem, passed⟩ := exec_object_ok_iff.mp run
  have front : wire pieces = (buffer.extract 0 k).data.toList := by
    rw [← position]
    exact passed.eq_front
  have length := passed.position
  rw [position] at length
  refine ⟨pieces, mem, length.trans (Nat.zero_add _), front, fun other other_mem same => ?_⟩
  exact (unambiguous_object o).of_wire other other_mem pieces mem [] [] (by rw [same, front])

/-- The bytes that an object was read from are its encoding just if each of their pieces is
canonical. -/
theorem encode_eq_consumed_iff (buffer : ByteArray) (limits : Limits) (o : Object)
    (h : decode buffer limits = .ok o) :
    let k := (Reader.run { registry, limits } .object (.start buffer)).cursor.position
    ∃ pieces ∈ o.spellings, wire pieces = (buffer.extract 0 k).data.toList ∧
      (∀ other ∈ o.spellings, wire other = (buffer.extract 0 k).data.toList → other = pieces) ∧
      (encode o = .ok (buffer.extract 0 k) ↔ ∀ piece ∈ pieces, piece.Canonical) := by
  intro k
  obtain ⟨pieces, mem, -, front, only⟩ := exists_pieces_of_decode h
  have bytes : (wire pieces).toByteArray = buffer.extract 0 k := by
    apply ByteArray.ext
    rw [List.data_toByteArray, front, Array.toArray_toList]
  refine ⟨pieces, mem, front, only, ?_⟩
  rw [← bytes]
  exact encode_eq_wire_iff mem

/-- A block of code whose language stands in a long record. The short one would be just as large. -/
def longLanguage : ByteArray :=
  ⟨#[0xe0, 0x4b, 0x92, 0x73, 0, 0, 0, 0, 9, 0, 0, 0, 0xfe, 4, 0, 0, 0x6c, 0x65, 0x61, 0x6e]⟩

/-- The record in it. -/
def longRecord : Record where
  form := .long
  payload := "lean".toByteArray.data.toList
  padding := []
  admits := show 4 < 0x1000000 by decide
  length_padding := by rfl

theorem encode_longLanguage_ne :
    decode longLanguage = .ok (.entity ⟨0, 9, .pre "lean"⟩) ∧
      encode (.entity ⟨0, 9, .pre "lean"⟩) ≠ .ok longLanguage := by
  have read : decode longLanguage = .ok (.entity ⟨0, 9, .pre "lean"⟩) := by rfl
  refine ⟨read, fun written => ?_⟩
  obtain ⟨pieces, -, -, only, image⟩ := encode_eq_consumed_iff longLanguage {} _ read
  have canonical := image.mp written
  have mem : [.word32 0x73924be0, .word32 0, .word32 9, .record longRecord] ∈
      Object.spellings (.entity ⟨0, 9, .pre "lean"⟩) :=
    ⟨[_], rfl, [_, _, _], ⟨[_, _], ⟨[_], rfl, [_], rfl, rfl⟩, [_], ⟨longRecord, rfl, rfl⟩, rfl⟩,
      rfl⟩
  rw [← only _ mem (by rfl)] at canonical
  have short : longRecord.form = .short :=
    (canonical (.record longRecord) (by simp)).1.mpr (by decide)
  cases short

end TaggedWire.Chat
