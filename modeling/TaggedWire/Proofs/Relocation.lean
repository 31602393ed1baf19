import TaggedWire.Proofs.Forward
import TaggedWire.Proofs.Lookup

/-!
# Reading further on

Bytes may be put in front of a buffer. A read that starts behind them does what it did before, and
ends as much further on.
-/

namespace TaggedWire

variable {V α β : Type} (front : ByteArray)

/-! ## Places further on -/

/-- The same place, with more bytes in front of the buffer. -/
def Cursor.shift (c : Cursor) : Cursor :=
  ⟨front ++ c.buffer, front.size + c.position, by
    have := c.position_le
    rw [ByteArray.size_append]
    omega⟩

theorem Cursor.remaining_shift (c : Cursor) : (c.shift front).remaining = c.remaining := by
  simp only [remaining, shift, ByteArray.size_append]
  omega

theorem Cursor.rest_shift (c : Cursor) : (c.shift front).rest = c.rest := by
  have size : front.size = front.data.toList.length := by simp
  simp only [rest, shift, ByteArray.data_append, Array.toList_append, size,
    List.drop_length_add_append]

namespace Progress

def shift (p : Progress) : Progress :=
  { p with cursor := p.cursor.shift front }

theorem enter_shift (p : Progress) : (p.shift front).enter = p.enter.shift front :=
  rfl

end Progress

/-- The run with the same result, ending further on. -/
def shiftRun (run : Except Fault α × Progress) : Except Fault α × Progress :=
  (run.1, run.2.shift front)

theorem andThen_shiftRun {run : Except Fault α × Progress}
    {next next' : α → Progress → Except Fault β × Progress}
    (goes : ∀ a q, run = (.ok a, q) → next' a (q.shift front) = shiftRun front (next a q)) :
    andThen (shiftRun front run) next' = shiftRun front (andThen run next) := by
  obtain ⟨e | a, q⟩ := run
  · rfl
  · exact goes a q rfl

theorem Progress.take_shift (p : Progress) (count : Nat) :
    (p.shift front).take count = shiftRun front (p.take count) := by
  have remaining : (p.shift front).cursor.remaining = p.cursor.remaining :=
    p.cursor.remaining_shift front
  rcases Nat.lt_or_ge p.cursor.remaining count with short | fits
  · rw [take_of_lt short, take_of_lt (by omega), remaining]
    rfl
  · have same : (p.shift front).cursor.buffer.extract (p.shift front).cursor.position
          ((p.shift front).cursor.position + count) =
        p.cursor.buffer.extract p.cursor.position (p.cursor.position + count) := by
      apply ByteArray.ext
      apply Array.toList_inj.mp
      rw [Cursor.toList_extract, Cursor.toList_extract, shift, Cursor.rest_shift]
    have place : Progress.shift front { p with cursor := p.cursor.advance count fits } =
        { p.shift front with
          cursor := (p.shift front).cursor.advance count (by omega) } :=
      eq_of_position rfl (Nat.add_assoc _ _ _).symm rfl
    rw [take_of_le fits, take_of_le (by omega), same, ← place]
    rfl

/-! ## Forward decoders -/

theorem Decoder.Forward.exec_shift {scope : Scope V} {d : Decoder V α} (forward : d.Forward)
    (object : ∀ p : Progress, scope.object (p.shift front) = shiftRun front (scope.object p))
    (p : Progress) : d.exec scope (p.shift front) = shiftRun front (d.exec scope p) := by
  induction forward generalizing p with
  | value a => rfl
  | fault e other => rfl
  | take count next ends goes ih =>
    rw [exec_ask, exec_ask, andThen_answer ends, andThen_answer ends]
    simp only [Scope.answer]
    rw [Progress.take_shift]
    exact andThen_shiftRun front fun bytes q _ => ih bytes q
  | object next ends goes ih =>
    rw [exec_ask, exec_ask, andThen_answer ends, andThen_answer ends]
    simp only [Scope.answer]
    rw [object]
    exact andThen_shiftRun front fun labelled q _ => ih labelled q
  | look next body sees mono goes ih =>
    -- The cursor that is seen is another one, but only the limits are looked at.
    rw [exec_ask, exec_ask, sees, sees]
    exact ih _ p

/-! ## Objects -/

namespace Registry

variable {registry : Registry V} {limits : Limits}

theorem dispatch_shift (p : Progress) :
    registry.dispatch (p.shift front) = shiftRun front (registry.dispatch p) := by
  rw [dispatch_eq_andThen, dispatch_eq_andThen, Progress.take_shift]
  refine andThen_shiftRun front fun raw q _ => ?_
  cases registry.find? (LittleEndian.word32 raw) <;> rfl

theorem object_shift (forward : ∀ constructor ∈ registry.constructors, constructor.body.Forward)
    (room : Nat) (p : Progress) :
    registry.object limits room (p.shift front) =
      shiftRun front (registry.object limits room p) := by
  induction room generalizing p with
  | zero =>
    rw [object_zero_eq_andThen, object_zero_eq_andThen, dispatch_shift]
    exact andThen_shiftRun front fun _ _ _ => rfl
  | succ room ih =>
    rw [object_succ_eq_andThen, object_succ_eq_andThen, dispatch_shift]
    refine andThen_shiftRun front fun constructor q found => ?_
    have mem := (dispatch_ok_iff.mp found).1
    rw [Progress.enter_shift, (forward constructor mem).exec_shift front ih]
    rfl

end Registry

/-! ## Readers -/

theorem Reader.run_shift {reader : Reader V} {d : Decoder V α}
    (forward : ∀ constructor ∈ reader.registry.constructors, constructor.body.Forward)
    (goes : d.Forward) (c : Cursor) :
    reader.run d (c.shift front) =
      ⟨(reader.run d c).result, (reader.run d c).cursor.shift front, (reader.run d c).reader⟩ := by
  have object : ∀ p : Progress,
      reader.scope.object (p.shift front) = shiftRun front (reader.scope.object p) :=
    Registry.object_shift front forward reader.room
  exact run_eq_of_exec (goes.exec_shift front object ⟨c, reader.depth⟩)

-- The padding of this record is counted from the size byte, at whichever place that stands.
example : (Reader.run ({ registry := ∅ } : Reader Empty) .bytes
    (.between ⟨#[7]⟩ ⟨#[1, 0x41, 0, 0]⟩)).cursor.position = 5 := by rfl

end TaggedWire
