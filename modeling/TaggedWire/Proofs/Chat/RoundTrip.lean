import TaggedWire.Proofs.Chat.Acceptance
import TaggedWire.Proofs.Chat.Writing

/-!
# Round trips

What the schema encoder writes, the schema decoder reads back, wherever it stands and whatever
follows. What the decoder reads can be written again, and reads the same then.
-/

namespace TaggedWire.Chat

/-! ## Writable objects -/

theorem writable_format {format : Format} (h : ∃ pieces, pieces ∈ format.fields) :
    ∀ mark ∈ format.outline, mark.Writable := by
  obtain ⟨pieces, mem⟩ := h
  cases format with
  | plain style => simp [Format.outline]
  | pre text | link text => exact forall_mem_textOutline.mpr (size_le_of_mem_textSpellings mem)
  | mention user => simp [Format.outline]

theorem writable_entity {level : Nat} {entity : Entity} (h : ∃ pieces, pieces ∈ entity.fields) :
    ∀ mark ∈ entity.outline level, mark.Writable := by
  rw [Entity.fields, exists_mem_mul_iff] at h
  exact List.forall_mem_cons.mpr ⟨trivial, writable_format h.2⟩

theorem writable_peer (level : Nat) (peer : Peer) : ∀ mark ∈ peer.outline level, mark.Writable :=
  List.forall_mem_singleton.mpr trivial

theorem writable_message {level : Nat} {message : Message}
    (h : ∃ pieces, pieces ∈ message.fields) : ∀ mark ∈ message.inner level, mark.Writable := by
  simp only [Message.fields, exists_mem_mul_iff] at h
  obtain ⟨⟨⟨-, _, text⟩, entities⟩, -⟩ := h
  refine Message.forall_mem_inner.mpr ⟨fun peer _ => writable_peer _ peer, writable_peer _ _,
    size_le_of_mem_textSpellings text, fun items mem => ?_⟩
  rw [mem, optionalSpellings, Option.elim_some, exists_mem_vectorSpellings_iff] at entities
  refine ⟨Nat.le_of_lt_succ entities.1, fun entity mem => writable_entity ?_⟩
  have h := entities.2 entity mem
  rw [Entity.spellings, Layout.spellings, exists_mem_mul_iff] at h
  exact h.2

theorem writable_anyMessage {level : Nat} {message : AnyMessage}
    (h : ∃ pieces, pieces ∈ message.fields) : ∀ mark ∈ message.inner level, mark.Writable := by
  cases message with
  | full message => exact writable_message h
  | empty message =>
    exact forall_mem_optionalOutline.mpr fun peer _ => writable_peer (level + 1) peer

theorem exists_mem_spellings_iff_writable {o : Object} :
    (∃ pieces, pieces ∈ o.spellings) ↔ o.Writable := by
  constructor
  · intro h
    rw [Object.spellings, Layout.spellings, exists_mem_mul_iff] at h
    refine List.forall_mem_cons.mpr ⟨trivial, ?_⟩
    cases o with
    | peer peer => simp [Object.inner]
    | entity entity =>
      have writable : ∀ mark ∈ entity.outline 0, mark.Writable := writable_entity h.2
      exact (List.forall_mem_cons.mp writable).2
    | message message => exact writable_anyMessage h.2
    | page messages =>
      obtain ⟨small, each⟩ := exists_mem_vectorSpellings_iff.mp h.2
      refine forall_mem_vectorOutline.mpr ⟨Nat.le_of_lt_succ small, fun message mem => ?_⟩
      have h := each message mem
      rw [AnyMessage.spellings, Layout.spellings, exists_mem_mul_iff] at h
      exact List.forall_mem_cons.mpr ⟨trivial, writable_anyMessage h.2⟩
  · intro writable
    obtain ⟨pieces, mem, -⟩ := (spells_object 0 o).writes writable
    exact ⟨pieces, mem⟩

/-! ## Writing whole objects -/

theorem encode_of_writable {o : Object} (h : o.Writable) :
    ∃ pieces ∈ o.spellings, (∀ piece ∈ pieces, piece.Canonical) ∧
      encode o = .ok (wire pieces).toByteArray := by
  obtain ⟨pieces, mem, canonical, appends⟩ := (spells_object 0 o).writes h
  refine ⟨pieces, mem, canonical, ?_⟩
  rw [encode, appends, ByteArray.empty_append]
  rfl

theorem encode_of_refusal {o : Object} {fault : Fault}
    (h : (o.outline 0).findSome? Mark.refusal = some fault) : encode o = .error fault := by
  obtain ⟨more, run⟩ := (spells_object 0 o).refuses fault h .empty
  rw [encode, run]
  rfl

theorem writable_of_encode {o : Object} {bytes : ByteArray} (h : encode o = .ok bytes) :
    o.Writable := by
  cases refused : (o.outline 0).findSome? Mark.refusal with
  | none => exact Mark.findSome?_refusal_eq_none_iff.mp refused
  | some fault =>
    rw [encode_of_refusal refused] at h
    cases h

/-! ## Reading what was written -/

variable {limits : Limits} {o : Object} {bytes : ByteArray}

theorem accepts_object : (Decoder.object : Decoder Object Object).Accepts
    (Reader.scope { registry, limits }) (·.Within limits) Object.spellings :=
  fun _ _ _ => exec_object_ok_iff

theorem reads_encoding (h : encode o = .ok bytes) (behind ahead : ByteArray) (depth : Nat) :
    Progress.Reads ⟨.between behind (bytes ++ ahead), depth⟩ o.spellings
      ⟨.between (behind ++ bytes) ahead, depth⟩ := by
  obtain ⟨pieces, mem, -, written⟩ := encode_of_writable (writable_of_encode h)
  obtain rfl := Except.ok.inj (h.symm.trans written)
  have passed := Progress.passes_between behind (wire pieces).toByteArray ahead depth
  rw [List.data_toByteArray] at passed
  exact ⟨pieces, mem, passed⟩

theorem run_encoding (h : encode o = .ok bytes) (within : o.Within limits)
    (behind ahead : ByteArray) :
    Reader.run { registry, limits } .object (.between behind (bytes ++ ahead)) =
      ⟨.ok o, .between (behind ++ bytes) ahead, { registry, limits }⟩ :=
  Reader.run_eq_of_exec (exec_object_ok_iff.mpr ⟨within, reads_encoding h behind ahead 0⟩)

theorem decode_encoding (h : encode o = .ok bytes) (within : o.Within limits)
    (ahead : ByteArray) : decode (bytes ++ ahead) limits = .ok o := by
  have run := run_encoding h within .empty ahead
  rw [← Cursor.start_eq_between] at run
  rw [decode, Reader.decode, run]

theorem encoding_prefix_free {o' : Object} {more : ByteArray} (h : encode o = .ok bytes)
    (h' : encode o' = .ok (bytes ++ more)) : o = o' ∧ more = .empty := by
  -- Reading the longer one gives both, under limits that are high enough for both.
  obtain ⟨limits, within⟩ := Mark.exists_within (o.outline 0 ++ o'.outline 0)
  obtain ⟨within, within'⟩ := List.forall_mem_append.mp within
  have short := decode_encoding h within more
  have long := decode_encoding h' within' .empty
  rw [ByteArray.append_empty, short] at long
  obtain rfl := Except.ok.inj long
  refine ⟨rfl, ?_⟩
  have same : bytes = bytes ++ more := Except.ok.inj (h.symm.trans h')
  have sizes := congrArg ByteArray.size same
  rw [ByteArray.size_append] at sizes
  exact ByteArray.size_eq_zero_iff.mp (by omega)

/-! ## Objects one behind the other -/

def encodeAll : List Object → Except Fault ByteArray
  | [] => .ok .empty
  | o :: objects => do return (← encode o) ++ (← encodeAll objects)

theorem encodeAll_of_writable {objects : List Object} (h : ∀ o ∈ objects, o.Writable) :
    ∃ bytes, encodeAll objects = .ok bytes := by
  induction objects with
  | nil => exact ⟨.empty, rfl⟩
  | cons o objects ih =>
    obtain ⟨writable, others⟩ := List.forall_mem_cons.mp h
    obtain ⟨pieces, -, -, first⟩ := encode_of_writable writable
    obtain ⟨more, rest⟩ := ih others
    exact ⟨(wire pieces).toByteArray ++ more, by rw [encodeAll, first, rest]; rfl⟩

theorem encodeAll_cons_ok {objects : List Object} (h : encodeAll (o :: objects) = .ok bytes) :
    ∃ part parts, encode o = .ok part ∧ encodeAll objects = .ok parts ∧ part ++ parts = bytes := by
  unfold encodeAll at h
  cases first : encode o with
  | error fault =>
    rw [first] at h
    cases h
  | ok part =>
    cases rest : encodeAll objects with
    | error fault =>
      rw [first, rest] at h
      cases h
    | ok parts =>
      rw [first, rest] at h
      exact ⟨part, parts, rfl, rfl, Except.ok.inj h⟩

theorem reads_encodings {objects : List Object} (h : encodeAll objects = .ok bytes)
    (behind ahead : ByteArray) (depth : Nat) :
    Progress.Reads ⟨.between behind (bytes ++ ahead), depth⟩ (objects.map Object.spellings).prod
      ⟨.between (behind ++ bytes) ahead, depth⟩ := by
  induction objects generalizing behind bytes with
  | nil =>
    cases h
    rw [ByteArray.empty_append, ByteArray.append_empty]
    exact Progress.reads_one_iff.mpr rfl
  | cons o objects ih =>
    obtain ⟨part, parts, first, rest, rfl⟩ := encodeAll_cons_ok h
    have front : part ++ parts ++ ahead = part ++ (parts ++ ahead) := ByteArray.append_assoc
    have back : behind ++ part ++ parts = behind ++ (part ++ parts) := ByteArray.append_assoc
    rw [List.map_cons, List.prod_cons, Progress.reads_mul_iff, front, ← back]
    exact ⟨_, reads_encoding first behind (parts ++ ahead) depth, ih rest (behind ++ part)⟩

theorem run_encodings {objects : List Object} (h : encodeAll objects = .ok bytes)
    (within : ∀ o ∈ objects, o.Within limits) (behind ahead : ByteArray) :
    Reader.run { registry, limits } (.elements .object objects.length #[])
        (.between behind (bytes ++ ahead)) =
      ⟨.ok objects.toArray, .between (behind ++ bytes) ahead, { registry, limits }⟩ := by
  have reads := reads_encodings h behind ahead 0
  exact Reader.run_eq_of_exec
    ((Decoder.exec_elements_ok_iff accepts_object).mpr ⟨objects, by simp, rfl, within, reads⟩)

/-! ## Results -/

instance (limits : Limits) : DecidablePred (Object.Within limits) :=
  fun o => inferInstanceAs (Decidable (∀ mark ∈ o.outline 0, mark.Within limits))

instance : DecidablePred Object.Writable :=
  fun o => inferInstanceAs (Decidable (∀ mark ∈ o.outline 0, mark.Writable))

/-- A writable object within the limits is read back from its encoding, wherever that stands and
whatever follows. -/
theorem decode_encode (limits : Limits) :
    (∀ o : Object, o.Writable → o.Within limits →
      ∃ bytes, encode o = .ok bytes ∧ decode bytes limits = .ok o ∧
        ∀ behind ahead,
          Reader.run { registry, limits } .object (.between behind (bytes ++ ahead)) =
            ⟨.ok o, .between (behind ++ bytes) ahead, { registry, limits }⟩) ∧
    (∀ o o' : Object, o.Writable → encode o = encode o' → o = o') ∧
    (∀ (o o' : Object) (bytes more : ByteArray), encode o = .ok bytes →
      encode o' = .ok (bytes ++ more) → more = .empty) ∧
    ∀ objects : List Object, (∀ o ∈ objects, o.Writable ∧ o.Within limits) →
      ∃ bytes, encodeAll objects = .ok bytes ∧
        ∀ behind ahead,
          Reader.run { registry, limits } (.elements .object objects.length #[])
              (.between behind (bytes ++ ahead)) =
            ⟨.ok objects.toArray, .between (behind ++ bytes) ahead, { registry, limits }⟩ := by
  refine ⟨?_, ?_, ?_, ?_⟩
  · intro o writable within
    obtain ⟨pieces, -, -, written⟩ := encode_of_writable writable
    have read := decode_encoding written within .empty
    rw [ByteArray.append_empty] at read
    exact ⟨_, written, read, run_encoding written within⟩
  · intro o o' writable same
    obtain ⟨pieces, -, -, written⟩ := encode_of_writable writable
    have written' := same.symm.trans written
    rw [← ByteArray.append_empty (b := (wire pieces).toByteArray)] at written'
    exact (encoding_prefix_free written written').1
  · intro o o' bytes more h h'
    exact (encoding_prefix_free h h').2
  · intro objects h
    obtain ⟨bytes, written⟩ := encodeAll_of_writable fun o mem => (h o mem).1
    exact ⟨bytes, written, run_encodings written fun o mem => (h o mem).2⟩

/-- A page of one post that was read by nobody yet. -/
def freshPage : Object :=
  .page #[.full {
    out := true
    silent := false
    id := 1
    sender := none
    peer := .channel 7
    date := 0
    text := "hi"
    entities := some #[⟨0, 2, .plain .bold⟩]
    views := some 0 }]

theorem decode_encode_freshPage :
    ∃ bytes, encode freshPage = .ok bytes ∧ decode bytes = .ok freshPage := by
  obtain ⟨bytes, written, read, -⟩ := (decode_encode {}).1 freshPage (by decide) (by decide)
  exact ⟨bytes, written, read⟩

/-- Whatever was read can be written, and is read back from its encoding to the last byte. -/
theorem encode_decode (buffer : ByteArray) (limits : Limits) (o : Object)
    (h : decode buffer limits = .ok o) :
    ∃ bytes, encode o = .ok bytes ∧ decode bytes limits = .ok o ∧
      (Reader.run { registry, limits } .object (.start bytes)).cursor.position = bytes.size ∧
      ∀ o', decode bytes limits = .ok o' → encode o' = .ok bytes := by
  obtain ⟨q, run, -⟩ := Reader.run_ok_iff.mp ⟨h, rfl⟩
  obtain ⟨within, pieces, mem, -⟩ := exec_object_ok_iff.mp run
  obtain ⟨canonical, -, -, written⟩ :=
    encode_of_writable (exists_mem_spellings_iff_writable.mp ⟨pieces, mem⟩)
  have read := decode_encoding written within .empty
  have back := run_encoding written within .empty .empty
  rw [ByteArray.append_empty] at read
  rw [ByteArray.append_empty, ← Cursor.start_eq_between] at back
  refine ⟨_, written, read, ?_, ?_⟩
  · rw [back]
    simp [Cursor.between]
  · intro o' read'
    obtain rfl := Except.ok.inj (read.symm.trans read')
    exact written

/-- An empty message with a flag that means nothing. -/
def strayFlag : ByteArray :=
  ⟨#[0x84, 0xca, 0xa6, 0x90, 0x20, 0, 0, 0, 1, 0, 0, 0]⟩

theorem encode_decode_strayFlag :
    decode strayFlag = .ok (.message (.empty ⟨1, none⟩)) ∧
      ∃ bytes, encode (.message (.empty ⟨1, none⟩)) = .ok bytes ∧
        decode bytes = .ok (.message (.empty ⟨1, none⟩)) := by
  have read : decode strayFlag = .ok (.message (.empty ⟨1, none⟩)) := by rfl
  obtain ⟨bytes, written, back, -⟩ := encode_decode strayFlag {} _ read
  exact ⟨read, bytes, written, back⟩

end TaggedWire.Chat
