import TaggedWire.Proofs.Framing
import TaggedWire.Proofs.Utf8

/-!
# Texts in records

A text is a record whose payload is UTF-8. The payload is judged when the whole record is behind, so
a flaw in it changes nothing about where the read ends.
-/

namespace TaggedWire

variable {V : Type}

/-- What becomes of a payload that has to be a text. -/
def judgeText (payload : ByteArray) : Except Fault String :=
  match String.fromUTF8? payload with
  | some value => .ok value
  | none => .error (.malformedText (Utf8.firstFlaw payload.data.toList))

theorem fromUTF8?_eq_some_iff_flatMap {payload : ByteArray} {value : String} :
    String.fromUTF8? payload = some value ↔
      value.toList.flatMap String.utf8EncodeChar = payload.data.toList := by
  rw [Decoder.fromUTF8?_eq_some_iff, ← String.utf8Encode_toList, eq_comm]
  exact toByteArray_eq_iff

theorem judgeText_eq_ok_iff {payload : ByteArray} {value : String} :
    judgeText payload = .ok value ↔
      value.toList.flatMap String.utf8EncodeChar = payload.data.toList := by
  rw [← fromUTF8?_eq_some_iff_flatMap]
  unfold judgeText
  cases String.fromUTF8? payload <;> simp

theorem judgeText_of_malformed {payload : ByteArray}
    (h : ¬ Utf8.WellFormed payload.data.toList) :
    judgeText payload = .error (.malformedText (Utf8.firstFlaw payload.data.toList)) := by
  have none : String.fromUTF8? payload = none := by
    apply Option.eq_none_iff_forall_ne_some.mpr
    intro value text
    exact h ⟨value.toList, fromUTF8?_eq_some_iff_flatMap.mp text⟩
  unfold judgeText
  rw [none]

theorem Reader.run_text (reader : Reader V) (c : Cursor) :
    reader.run .text c =
      ⟨(reader.run .bytes c).result.bind judgeText, (reader.run .bytes c).cursor, reader⟩ := by
  unfold Decoder.text
  rw [run_bind]
  cases (reader.run .bytes c).result with
  | error e => rfl
  | ok payload =>
    dsimp only [Except.bind, judgeText]
    cases String.fromUTF8? payload <;> rfl

/-- A text is read as its record is, and then its payload is judged. -/
theorem text_judges_record (reader : Reader V) (c : Cursor) :
    let raw := reader.run .bytes c
    let run := reader.run .text c
    run.reader = reader ∧ run.cursor = raw.cursor ∧
      (∀ e, raw.result = .error e → run.result = .error e) ∧
      ∀ payload, raw.result = .ok payload →
        (∀ value, run.result = .ok value ↔
          value.toList.flatMap String.utf8EncodeChar = payload.data.toList) ∧
        (¬ Utf8.WellFormed payload.data.toList → ∃ flaw : Utf8.Flaw,
          flaw.Of payload.data.toList ∧ run.result = .error (.malformedText flaw)) := by
  intro raw run
  have judged : run = ⟨raw.result.bind judgeText, raw.cursor, reader⟩ := reader.run_text c
  rw [judged]
  refine ⟨rfl, rfl, fun e fault => ?_, fun payload read => ⟨fun value => ?_, fun malformed => ?_⟩⟩
  · rw [fault]
    rfl
  · rw [read]
    exact judgeText_eq_ok_iff
  · rw [read]
    exact ⟨_, Utf8.firstFlaw_of _, judgeText_of_malformed malformed⟩

-- The record is read to its padding before the two letters around a lone lead byte are refused.
example :
    let run := Reader.run ({ registry := ∅ } : Reader Empty) .text
      (.start ⟨#[3, 0x68, 0xc3, 0x69, 0x2e]⟩)
    run.result = .error (.malformedText (.invalid 1 1)) ∧ run.cursor.position = 4 := by
  exact ⟨rfl, rfl⟩

end TaggedWire
