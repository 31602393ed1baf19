import TaggedWire.Proofs.Chat.Canonical
import TaggedWire.Proofs.Size

/-!
# How large the objects of a chat are

The size of an encoding is a sum over the fields of the object, and what is not written is told by
the first mark without room. What was read had that size too, up to the records in it that a writer
would write in the other form.
-/

namespace TaggedWire.Chat

/-! ## Sizes -/

/-- The identifier of the layout and the number of the peer. -/
def Peer.encodedSize (_ : Peer) : Nat :=
  12

def Format.encodedSize : Format → Nat
  | .plain _ => 0
  | .pre language => ByteString.recordSize language.utf8ByteSize
  | .link url => ByteString.recordSize url.utf8ByteSize
  | .mention _ => 8

def Entity.encodedSize (entity : Entity) : Nat :=
  12 + entity.format.encodedSize

def Message.encodedSize (message : Message) : Nat :=
  28 + ByteString.recordSize message.text.utf8ByteSize +
    optionalSize message.sender Peer.encodedSize +
    optionalSize message.entities (vectorSize · Entity.encodedSize) +
    optionalSize message.views fun _ => 4

def EmptyMessage.encodedSize (message : EmptyMessage) : Nat :=
  12 + optionalSize message.peer Peer.encodedSize

def AnyMessage.encodedSize : AnyMessage → Nat
  | .full message => message.encodedSize
  | .empty message => message.encodedSize

def Object.encodedSize : Object → Nat
  | .peer p => p.encodedSize
  | .entity e => e.encodedSize
  | .message m => m.encodedSize
  | .page messages => 4 + vectorSize messages AnyMessage.encodedSize

theorem measures_layout (layout : Layout) {fields : Language Piece} {size : Nat}
    (h : Measures fields size) : Measures (layout.spellings fields) (4 + size) :=
  (measures_word32 layout.id).mul h

theorem measures_peer (peer : Peer) : Measures peer.spellings peer.encodedSize := by
  cases peer with
  | user id | group id | channel id => exact measures_layout _ (measures_word64 _)

theorem measures_format (format : Format) : Measures format.fields format.encodedSize := by
  cases format with
  | plain style => exact measures_one
  | pre text | link text => exact measures_text text
  | mention user => exact measures_word64 _

theorem measures_entity (entity : Entity) : Measures entity.spellings entity.encodedSize := by
  have fields := ((measures_word32 entity.offset.toUInt32).mul
    (measures_word32 entity.length.toUInt32)).mul (measures_format entity.format)
  have whole := measures_layout entity.format.layout fields
  rwa [← Nat.add_assoc] at whole

theorem measures_message (message : Message) :
    Measures (Layout.message.spellings message.fields) message.encodedSize := by
  have flags : Measures message.flagSpellings 4 := measures_flags _ _
  have sender := measures_optional message.sender measures_peer
  have entities := measures_optional message.entities fun entities =>
    measures_vector entities measures_entity
  have views := measures_optional message.views fun views => measures_word32 views.toUInt32
  have whole := measures_layout .message
    (((((((flags.mul (measures_word32 message.id.toUInt32)).mul sender).mul
      (measures_peer message.peer)).mul (measures_word32 message.date.toUInt32)).mul
      (measures_text message.text)).mul entities).mul views)
  intro pieces mem
  rw [whole pieces mem, Message.encodedSize, Peer.encodedSize]
  omega

theorem measures_emptyMessage (message : EmptyMessage) :
    Measures (Layout.emptyMessage.spellings message.fields) message.encodedSize := by
  have flags : Measures message.flagSpellings 4 := measures_flags _ _
  have whole := measures_layout .emptyMessage
    ((flags.mul (measures_word32 message.id.toUInt32)).mul
      (measures_optional message.peer measures_peer))
  rwa [← Nat.add_assoc] at whole

theorem measures_anyMessage (message : AnyMessage) :
    Measures message.spellings message.encodedSize := by
  cases message with
  | full message => exact measures_message message
  | empty message => exact measures_emptyMessage message

theorem measures_object (o : Object) : Measures o.spellings o.encodedSize := by
  cases o with
  | peer peer => exact measures_peer peer
  | entity entity => exact measures_entity entity
  | message message => exact measures_anyMessage message
  | page messages => exact measures_layout _ (measures_vector messages measures_anyMessage)

/-! ## What is written -/

theorem encode_error_iff {o : Object} {fault : Fault} :
    encode o = .error fault ↔ (o.outline 0).findSome? Mark.refusal = some fault := by
  constructor
  · intro failed
    cases refused : (o.outline 0).findSome? Mark.refusal with
    | none =>
      have writable : o.Writable := Mark.findSome?_refusal_eq_none_iff.mp refused
      obtain ⟨pieces, -, -, written⟩ := encode_of_writable writable
      cases written.symm.trans failed
    | some first => rw [Except.error.inj ((encode_of_refusal refused).symm.trans failed)]
  · exact encode_of_refusal

theorem size_of_encode {o : Object} {bytes : ByteArray} (h : encode o = .ok bytes) :
    bytes.size = o.encodedSize ∧ bytes.size % 4 = 0 := by
  obtain ⟨pieces, mem, canonical, written⟩ := encode_of_writable (writable_of_encode h)
  obtain rfl := Except.ok.inj (h.symm.trans written)
  have whole := writtenSize_mod pieces
  rw [measures_object o pieces mem] at whole
  rw [List.size_toByteArray, length_wire_of_canonical canonical, measures_object o pieces mem]
  exact ⟨rfl, whole⟩

/-- Encoding succeeds just if every text and every vector can say its size, and the bytes are as
many as the fields add up to. -/
theorem encode_outcome (o : Object) :
    ((∃ bytes, encode o = .ok bytes) ↔ o.Writable) ∧
    (∀ fault, encode o = .error fault ↔ ∃ before mark after,
      o.outline 0 = before ++ mark :: after ∧ mark.refusal = some fault ∧
        ∀ other ∈ before, other.Writable) ∧
    ∀ bytes, encode o = .ok bytes → bytes.size = o.encodedSize ∧ bytes.size % 4 = 0 := by
  refine ⟨⟨?_, ?_⟩, fun fault => ?_, fun bytes => size_of_encode⟩
  · rintro ⟨bytes, h⟩
    exact writable_of_encode h
  · intro writable
    obtain ⟨pieces, -, -, written⟩ := encode_of_writable writable
    exact ⟨_, written⟩
  · simp only [encode_error_iff, List.findSome?_eq_some_iff, Mark.refusal_eq_none_iff]

/-! ## What was read -/

theorem four_le_length_wire {o : Object} {pieces : List Piece} (h : pieces ∈ o.spellings) :
    4 ≤ (wire pieces).length := by
  obtain ⟨_, rfl, fields, -, rfl⟩ := Language.mem_mul.mp h
  simp [Piece.bytes]

/-- Encoding an object again adds or saves four bytes for each record that takes another number of
words in the form that the writer chooses. -/
theorem size_of_reencoded (buffer : ByteArray) (limits : Limits) (o : Object)
    (h : decode buffer limits = .ok o) :
    let k := (Reader.run { registry, limits } .object (.start buffer)).cursor.position
    0 < k ∧ k % 4 = 0 ∧
    ∃ pieces ∈ o.spellings, wire pieces = (buffer.extract 0 k).data.toList ∧
      (∀ other ∈ o.spellings, wire other = (buffer.extract 0 k).data.toList → other = pieces) ∧
      ∃ bytes, encode o = .ok bytes ∧
        (bytes.size : Int) = k + 4 * (records pieces).countP Record.grows -
          4 * (records pieces).countP Record.shrinks ∧
        (k < bytes.size → ∃ r ∈ records pieces, r.bytes.head? = some 0xff) ∧
        ((∀ r ∈ records pieces, r.form = .short ↔ r.payload.length < 254) → bytes.size = k) := by
  intro k
  obtain ⟨pieces, mem, (length : k = _), front, only⟩ := exists_pieces_of_decode h
  obtain ⟨_, -, -, written⟩ :=
    encode_of_writable (exists_mem_spellings_iff_writable.mp ⟨pieces, mem⟩)
  obtain ⟨size, whole⟩ := size_of_encode written
  have start := four_le_length_wire mem
  have sizes := length_wire_add_grows pieces
  rw [measures_object o pieces mem, ← size, ← length] at sizes
  rw [← length] at start
  refine ⟨by omega, by omega, pieces, mem, front, only, _, written, by omega, ?_, ?_⟩
  · intro larger
    have some : 0 < (records pieces).countP Record.grows := by omega
    obtain ⟨r, found, grows⟩ := List.countP_pos_iff.mp some
    exact ⟨r, found, of_decide_eq_true grows⟩
  · intro chosen
    rw [size, ← measures_object o pieces mem, ← length_wire_eq chosen, length]

theorem run_wire {limits : Limits} {o : Object} {pieces : List Piece} (h : pieces ∈ o.spellings)
    (within : o.Within limits) :
    Reader.run { registry, limits } .object (.start (wire pieces).toByteArray) =
      ⟨.ok o, .between (wire pieces).toByteArray .empty, { registry, limits }⟩ := by
  have passed := Progress.passes_between .empty (wire pieces).toByteArray .empty 0
  rw [List.data_toByteArray, ByteArray.append_empty, ← Cursor.start_eq_between,
    ByteArray.empty_append] at passed
  exact Reader.run_eq_of_exec (exec_object_ok_iff.mpr ⟨within, pieces, h, passed⟩)

/-- A record that begins with 255. -/
def fullRecord : Record where
  form := .short
  payload := List.replicate 255 0x61
  padding := []
  admits := by
    rw [List.length_replicate]
    exact ⟨by decide, by decide⟩
  length_padding := by
    rw [List.length_replicate]
    rfl

/-- A link of as many letters as one byte can say. -/
def fullLink : Object :=
  .entity ⟨0, 9, .link (String.ofList (List.replicate 255 'a'))⟩

def fullRow : List Piece :=
  [.word32 0x76a6d327, .word32 0, .word32 9, .record fullRecord]

theorem fullRow_mem : fullRow ∈ fullLink.spellings := by
  have letter : String.utf8EncodeChar 'a' = [0x61] := by decide
  have payload : fullRecord.payload =
      (String.ofList (List.replicate 255 'a')).toByteArray.data.toList := by
    rw [String.toByteArray_ofList, List.utf8Encode, List.data_toByteArray, List.flatMap_replicate,
      letter, List.flatten_replicate_singleton, fullRecord]
  exact ⟨[_], rfl, [_, _, _], ⟨[_, _], ⟨[_], rfl, [_], rfl, rfl⟩, [_],
    ⟨fullRecord, payload, rfl⟩, rfl⟩, rfl⟩

theorem size_of_reencoded_fullLink :
    decode (wire fullRow).toByteArray = .ok fullLink ∧
      ∃ bytes, encode fullLink = .ok bytes ∧ bytes.size = (wire fullRow).length + 4 := by
  have run := run_wire fullRow_mem (show fullLink.Within {} by decide)
  have read : decode (wire fullRow).toByteArray = .ok fullLink := by
    rw [decode, Reader.decode, run]
  obtain ⟨-, -, pieces, -, -, only, bytes, written, size, -⟩ := size_of_reencoded _ {} _ read
  simp only [run, Cursor.between, ByteArray.extract_zero_size] at only size
  obtain rfl := only fullRow fullRow_mem (by rw [List.data_toByteArray])
  have found : records fullRow = [fullRecord] := rfl
  have grows : fullRecord.grows := fullRecord.grows_iff.mpr ⟨rfl, List.length_replicate⟩
  have shrinks : ¬ fullRecord.shrinks := by
    rw [Record.shrinks, decide_eq_true_eq]
    rintro ⟨long, -⟩
    cases long
  rw [found, List.countP_cons_of_pos grows, List.countP_cons_of_neg shrinks, List.countP_nil,
    List.countP_nil, List.size_toByteArray] at size
  exact ⟨read, bytes, written, by omega⟩

end TaggedWire.Chat
