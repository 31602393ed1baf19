import TaggedWire.Proofs.Chat.Continuation
import TaggedWire.Proofs.Limits

/-!
# Reading objects under higher limits

An object of a wrong type is read to its end before it is refused, so hostile bytes nest as deep as
the limit lets them. Still a higher limit changes only what the lower one had stopped.
-/

namespace TaggedWire.Chat

open Decoder

theorem read_outlasts {limits higher : Limits} (deeper : limits.maxDepth ≤ higher.maxDepth)
    (longer : limits.maxVectorSize ≤ higher.maxVectorSize) (p : Progress) :
    Outlasts
      ((Decoder.object : Decoder Object Object).exec (Reader.scope { registry, limits }) p)
      ((Decoder.object : Decoder Object Object).exec
        (Reader.scope { registry, limits := higher }) p) := by
  refine forward_object.outlasts longer (fun p => ?_) p
  exact Registry.object_outlasts forward_constructors longer (Nat.succ_le_succ deeper) p

/-- Higher limits change nothing about a read that no limit stopped. -/
theorem read_raise (buffer : ByteArray) (limits higher : Limits)
    (deeper : limits.maxDepth ≤ higher.maxDepth)
    (longer : limits.maxVectorSize ≤ higher.maxVectorSize)
    (shallow : ∀ limit, (Reader.run { registry, limits } .object (.start buffer)).result ≠
      .error (.tooDeep limit))
    (short : ∀ count limit, (Reader.run { registry, limits } .object (.start buffer)).result ≠
      .error (.vectorTooLong count limit)) :
    let low := Reader.run { registry, limits } .object (.start buffer)
    let high := Reader.run { registry, limits := higher } .object (.start buffer)
    high.result = low.result ∧ high.cursor = low.cursor := by
  intro low high
  have same := (read_outlasts deeper longer ⟨.start buffer, 0⟩).eq_of_no_limit shallow short
  constructor
  · exact congrArg Prod.fst same
  · exact congrArg (fun run => run.2.cursor) same

/-- A page with a page in it where a message has to be. The element of the inner page is unknown. -/
def nestedPage : ByteArray :=
  ⟨#[0x87, 0x8e, 0x71, 0x8c, 0x15, 0xc4, 0xb5, 0x1c, 1, 0, 0, 0,
    0x87, 0x8e, 0x71, 0x8c, 0x15, 0xc4, 0xb5, 0x1c, 1, 0, 0, 0, 7, 0, 0, 0]⟩

theorem read_raise_nestedPage :
    (Reader.run { registry, limits := ⟨1, 1⟩ } .object (.start nestedPage)).result =
        .error (.unknownConstructor 7) ∧
      (Reader.run { registry, limits := ⟨64, 0x100000⟩ } .object (.start nestedPage)).result =
        .error (.unknownConstructor 7) := by
  have low : (Reader.run { registry, limits := ⟨1, 1⟩ } .object (.start nestedPage)).result =
      .error (.unknownConstructor 7) := by rfl
  obtain ⟨same, -⟩ := read_raise nestedPage ⟨1, 1⟩ ⟨64, 0x100000⟩ (by decide) (by decide)
    (by simp [low]) (by simp [low])
  exact ⟨low, same.trans low⟩

end TaggedWire.Chat
