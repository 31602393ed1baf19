import TaggedWire.Proofs.Chat.Acceptance
import TaggedWire.Proofs.Chat.Bodies
import TaggedWire.Proofs.Continuation
import TaggedWire.Proofs.Relocation

/-!
# Reading objects in a larger buffer

The bodies of the schema go forward. So with more bytes ahead an object is read as before, unless
the bytes ran out, and with more bytes behind it is read as before from further on.
-/

namespace TaggedWire.Chat

open Decoder

/-! ## Bodies -/

theorem forward_constructors :
    ∀ constructor ∈ registry.constructors, constructor.body.Forward := by
  intro constructor mem
  obtain ⟨layout, -, rfl⟩ := List.mem_map.mp mem
  exact (inherited_of_closed closed_forward).body layout

/-! ## More bytes ahead -/

theorem read_continues (limits : Limits) {more : ByteArray} {p p' : Progress}
    (h : p.Extends more p') :
    Continues more
      ((Decoder.object : Decoder Object Object).exec (Reader.scope { registry, limits }) p)
      ((Decoder.object : Decoder Object Object).exec (Reader.scope { registry, limits }) p') :=
  forward_object.continues
    (fun _ _ h => Registry.object_continues forward_constructors _ h) h

/-- What a buffer decides stays decided when more bytes follow, and an object that was cut is
noticed as missing bytes. -/
theorem read_append (buffer more : ByteArray) (limits : Limits) :
    let short := Reader.run { registry, limits } .object (.start buffer)
    let long := Reader.run { registry, limits } .object (.start (buffer ++ more))
    ((∀ needed remaining, short.result ≠ .error (.underrun needed remaining)) →
      long.result = short.result ∧ long.cursor.position = short.cursor.position) ∧
    (∀ needed remaining, short.result = .error (.underrun needed remaining) →
      more.size < needed - remaining →
        long.result = .error (.underrun needed (remaining + more.size)) ∧
          long.cursor.position = short.cursor.position) ∧
    ∀ o, long.result = .ok o → buffer.size < long.cursor.position →
      ∃ needed remaining, short.result = .error (.underrun needed remaining) := by
  intro short long
  have start : Progress.Extends more ⟨.start buffer, 0⟩ ⟨.start (buffer ++ more), 0⟩ :=
    ⟨rfl, rfl, rfl⟩
  have both := read_continues limits start
  refine ⟨fun other => ?_, fun needed remaining ran small => ?_, fun o read cut => ?_⟩
  · obtain ⟨same, behind⟩ := both.settled other
    exact ⟨same, behind.position⟩
  · obtain ⟨same, behind⟩ := both.underrun ran small
    exact ⟨same, behind.position⟩
  · by_contra none
    have other : ∀ needed remaining, short.result ≠ .error (.underrun needed remaining) :=
      fun needed remaining ran => none ⟨needed, remaining, ran⟩
    obtain ⟨same, behind⟩ := both.settled other
    have read : short.result = .ok o := same.symm.trans read
    -- The short run read the object too, so it cannot have come past its own end.
    obtain ⟨q, run, position⟩ := Reader.run_ok_iff.mp ⟨read, rfl⟩
    obtain ⟨-, pieces, -, passed⟩ := exec_object_ok_iff.mp run
    have fits := q.cursor.position_le
    rw [passed.buffer, position] at fits
    have reached : long.cursor.position = short.cursor.position := behind.position
    have fits : short.cursor.position ≤ buffer.size := fits
    omega

/-! ## More bytes behind -/

/-- What a read gives does not depend on the bytes behind it. -/
theorem read_relocated (limits : Limits) (depth : Nat) (read : Read Object)
    (behind ahead : ByteArray) :
    let reader : Reader Object := { registry, limits, depth }
    let here := reader.run read.decoder (.start ahead)
    let there := reader.run read.decoder (.between behind ahead)
    there.result = here.result ∧
      there.cursor.position = behind.size + here.cursor.position ∧
      there.cursor.buffer = behind ++ here.cursor.buffer ∧
      there.reader = here.reader := by
  intro reader here there
  have moved : there = ⟨here.result, here.cursor.shift behind, here.reader⟩ :=
    Reader.run_shift behind forward_constructors (closed_forward.read read) (.start ahead)
  rw [moved]
  exact ⟨rfl, rfl, rfl, rfl⟩

end TaggedWire.Chat
