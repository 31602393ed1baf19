import TaggedWire.Proofs.Ambiguity
import TaggedWire.Proofs.Framing
import TaggedWire.Proofs.Writing

/-!
# The record that is written

Of all records of a payload the writer chooses one, and its size depends on that of the payload
only. What was read is that record just if its form and its padding are the chosen ones.
-/

namespace TaggedWire

variable {V : Type}

theorem Progress.Passes.eq_extract {p q : Progress} {form : List UInt8} (h : p.Passes form q) :
    (p.cursor.buffer.extract p.cursor.position q.cursor.position).data.toList = form := by
  rw [h.position, Cursor.toList_extract, h.rest, List.take_left]

theorem ByteString.recordSize_eq_total (size : Nat) :
    recordSize size = ((SizeForm.canonical size).frame size).total := by
  have marker : longMarker.toNat = 254 := rfl
  unfold recordSize SizeForm.canonical
  rw [marker]
  split
  · rw [SizeForm.padding_short, SizeForm.padding_eq]
    simp only [SizeForm.frame, Frame.total, Frame.body, SizeForm.width]
    omega
  · rw [SizeForm.padding_long, SizeForm.padding_eq]
    simp only [SizeForm.frame, Frame.total, Frame.body, SizeForm.width]
    omega

namespace Record

theorem drop_body (r : Record) : r.bytes.drop r.frame.body = r.padding := by
  have front : (r.form.header r.payload.length ++ r.payload).length = r.frame.body := by
    rw [List.length_append, r.length_header]
    rfl
  rw [bytes, ← front, List.drop_left]

theorem canonical_iff (r : Record) :
    r.Canonical ↔ (r.frame.header = 1 ↔ r.frame.size < 254) ∧
      ∀ b ∈ r.bytes.drop r.frame.body, b = 0 := by
  rw [drop_body]
  unfold Canonical
  cases hr : r.form <;> simp [frame, SizeForm.frame, SizeForm.width, hr]

theorem length_ofPayload (payload : List UInt8) (fits : payload.length ≤ ByteString.maxSize) :
    (ofPayload payload fits).bytes.length = ByteString.recordSize payload.length := by
  rw [ByteString.recordSize_eq_total, length_bytes]
  rfl

theorem bytes_eq_iff_canonical {r : Record} {payload : List UInt8} (same : r.payload = payload)
    (fits : payload.length ≤ ByteString.maxSize) :
    r.bytes = (ofPayload payload fits).bytes ↔ r.Canonical := by
  have chosen := ofPayload_canonical payload fits
  have payloads : r.payload = (ofPayload payload fits).payload := same
  constructor
  · intro h
    rw [eq_of_bytes payloads (congrArg (· ++ []) h)]
    exact chosen
  · intro h
    rw [eq_of_canonical payloads h chosen]

end Record

namespace Encoder

/-- Of all records that are read as a payload, the writer's is the canonical one. -/
theorem bytes_canonical (payload : ByteArray) :
    (payload.size ≤ ByteString.maxSize → ∃ record : ByteArray,
      (∀ written, (bytes payload).run written = (.ok (), written ++ record)) ∧
      record.size = ByteString.recordSize payload.size ∧ record.size % 4 = 0 ∧
      (∀ (reader : Reader V) (c : Cursor), (reader.run .bytes c).result = .ok payload →
        let consumed := c.buffer.extract c.position (reader.run .bytes c).cursor.position
        ∃ frame, Frame.of? consumed.data.toList = some frame ∧ frame.size = payload.size ∧
          (consumed = record ↔ (frame.header = 1 ↔ payload.size < 254) ∧
            ∀ b ∈ consumed.data.toList.drop frame.body, b = 0)) ∧
      ∀ (reader : Reader V) (behind ahead : ByteArray),
        reader.run .bytes (.between behind (record ++ ahead)) =
          ⟨.ok payload, .between (behind ++ record) ahead, reader⟩) ∧
    (ByteString.maxSize < payload.size → ∀ written,
      (bytes payload).run written =
        (.error (.payloadTooLarge payload.size ByteString.maxSize), written)) := by
  refine ⟨fun fits => ?_, fun large written => ?_⟩
  · have fits' : payload.data.toList.length ≤ ByteString.maxSize := by simpa using fits
    let chosen := Record.ofPayload payload.data.toList fits'
    have size : chosen.bytes.toByteArray.size = ByteString.recordSize payload.size := by
      simpa using Record.length_ofPayload payload.data.toList fits'
    refine ⟨chosen.bytes.toByteArray, bytes_appends payload fits', size, ?_, ?_, ?_⟩
    · rw [size, ByteString.recordSize_mod]
    · intro reader c read consumed
      obtain ⟨r, same, passes⟩ := Progress.reads_record_iff.mp
        (Decoder.exec_bytes_ok_iff.mp (Reader.exec_of_result read))
      have bytes : consumed.data.toList = r.bytes := passes.eq_extract
      have framed : Frame.of? r.bytes = some r.frame := by simpa using r.of?_bytes []
      have length : r.frame.size = payload.size := by simp [Record.frame, SizeForm.frame, same]
      have chosen_iff : consumed = chosen.bytes.toByteArray ↔ r.bytes = chosen.bytes := by
        rw [← bytes, eq_comm, toByteArray_eq_iff, eq_comm]
      refine ⟨r.frame, by rw [bytes, framed], length, ?_⟩
      rw [chosen_iff, Record.bytes_eq_iff_canonical same fits', r.canonical_iff, bytes, length]
    · intro reader behind ahead
      have passes := Progress.passes_between behind chosen.bytes.toByteArray ahead reader.depth
      rw [List.data_toByteArray] at passes
      exact Reader.run_eq_of_exec
        (Decoder.exec_bytes_ok_iff.mpr (Progress.reads_record_iff.mpr ⟨chosen, rfl, passes⟩))
  · unfold bytes
    have long : ¬ payload.size < ByteString.longMarker.toNat := by
      have : ByteString.longMarker.toNat ≤ ByteString.maxSize := by decide
      omega
    dsimp only
    rw [if_neg long, if_neg (Nat.not_le_of_lt large), run_throw]

/-- One letter in a long record that is padded with sevens. -/
def paddedLetter : ByteArray :=
  ⟨#[0xfe, 1, 0, 0, 0x41, 7, 7, 7]⟩

def hugePayload : ByteArray :=
  ⟨Array.replicate 0x1000000 0⟩

theorem bytes_canonical_paddedLetter :
    let letter : ByteArray := ⟨#[0x41]⟩
    letter.size ≤ ByteString.maxSize ∧ ByteString.maxSize < hugePayload.size ∧
      (Reader.run ({ registry := ∅ } : Reader Empty) .bytes (.start paddedLetter)).result =
        .ok letter ∧
      (bytes letter).run .empty ≠ (.ok (), paddedLetter) ∧
      (bytes hugePayload).run paddedLetter =
        (.error (.payloadTooLarge hugePayload.size ByteString.maxSize), paddedLetter) := by
  intro letter
  have fits : letter.size ≤ ByteString.maxSize := by decide
  have large : ByteString.maxSize < hugePayload.size := by
    simp [hugePayload, ByteArray.size, ByteString.maxSize]
  have read : (Reader.run ({ registry := ∅ } : Reader Empty) .bytes (.start paddedLetter)).result =
      .ok letter := by rfl
  refine ⟨fits, large, read, fun same => ?_, (bytes_canonical (V := Empty) hugePayload).2 large _⟩
  obtain ⟨record, written, -, -, image, -⟩ := (bytes_canonical (V := Empty) letter).1 fits
  obtain ⟨frame, framed, -, chosen⟩ := image _ _ read
  obtain rfl : ⟨4, 1⟩ = frame := Option.some.inj framed
  rw [written, ByteArray.empty_append] at same
  have short := (chosen.mp (Prod.ext_iff.mp same).2.symm).1
  exact absurd (short.mpr (by decide)) (by decide)

end Encoder

end TaggedWire
