import TaggedWire.Proofs.Forward
import TaggedWire.Proofs.Lookup

/-!
# Reading a longer buffer

Two runs are compared, one on a buffer and one on the same buffer with more behind it. As long as
the first one does not run out of bytes they do the same. If it does, and the rest is too short as
well, the second one runs out at the same place.
-/

namespace TaggedWire

variable {V α β : Type}

/-- The same place in a buffer with more behind it. -/
structure Progress.Extends (more : ByteArray) (p p' : Progress) : Prop where
  buffer : p'.cursor.buffer = p.cursor.buffer ++ more
  position : p'.cursor.position = p.cursor.position
  depth : p'.depth = p.depth

/-- How a run goes on when the buffer does. -/
inductive Continues (more : ByteArray) :
    Except Fault α × Progress → Except Fault α × Progress → Prop where
  | value (a : α) {q q' : Progress} (h : q.Extends more q') : Continues more (.ok a, q) (.ok a, q')
  | fault {e : Fault} (other : ¬ e.IsUnderrun) {q q' : Progress} (h : q.Extends more q') :
      Continues more (.error e, q) (.error e, q')
  /-- What is added is not enough. -/
  | short {needed remaining : Nat} (small : more.size < needed - remaining) {q q' : Progress}
      (h : q.Extends more q') :
      Continues more (.error (.underrun needed remaining), q)
        (.error (.underrun needed (remaining + more.size)), q')
  /-- What is added is enough, and anything may come of it. -/
  | refilled {needed remaining : Nat} (large : needed - remaining ≤ more.size) (q : Progress)
      (run' : Except Fault α × Progress) :
      Continues more (.error (.underrun needed remaining), q) run'

variable {more : ByteArray} {p p' : Progress}

namespace Progress

theorem Extends.enter (h : Extends more p p') : Extends more p.enter p'.enter :=
  ⟨h.buffer, h.position, congrArg (· + 1) h.depth⟩

theorem Extends.leave (h : Extends more p p') : Extends more p.leave p'.leave :=
  ⟨h.buffer, h.position, congrArg (· - 1) h.depth⟩

theorem Extends.remaining (h : Extends more p p') :
    p'.cursor.remaining = p.cursor.remaining + more.size := by
  have fits := p.cursor.position_le
  rw [Cursor.remaining, Cursor.remaining, h.buffer, h.position, ByteArray.size_append]
  omega

theorem Extends.rest (h : Extends more p p') :
    p'.cursor.rest = p.cursor.rest ++ more.data.toList := by
  have fits := p.cursor.position_le
  rw [Cursor.rest, Cursor.rest, h.buffer, h.position, ByteArray.data_append, Array.toList_append]
  exact List.drop_append_of_le_length (by simpa using fits)

end Progress

namespace Continues

theorem andThen {run run' : Except Fault α × Progress} (h : Continues more run run')
    {next : α → Progress → Except Fault β × Progress}
    (goes : ∀ a q q', run = (.ok a, q) → q.Extends more q' →
      Continues more (next a q) (next a q')) :
    Continues more (TaggedWire.andThen run next) (TaggedWire.andThen run' next) := by
  cases h with
  | value a h => exact goes a _ _ rfl h
  | fault other h => exact .fault other h
  | short small h => exact .short small h
  | refilled large q run' => exact .refilled large q _

theorem leave {run run' : Except Fault α × Progress} (h : Continues more run run') (f : α → β) :
    Continues more (run.1.map f, run.2.leave) (run'.1.map f, run'.2.leave) := by
  cases h with
  | value a h => exact .value (f a) h.leave
  | fault other h => exact .fault other h.leave
  | short small h => exact .short small h.leave
  | refilled large q run' => exact .refilled large q.leave _

theorem settled {run run' : Except Fault α × Progress} (h : Continues more run run')
    (other : ∀ needed remaining, run.1 ≠ .error (.underrun needed remaining)) :
    run'.1 = run.1 ∧ run.2.Extends more run'.2 := by
  cases h with
  | value a h => exact ⟨rfl, h⟩
  | fault _ h => exact ⟨rfl, h⟩
  | short _ _ => exact absurd rfl (other _ _)
  | refilled _ _ _ => exact absurd rfl (other _ _)

theorem underrun {run run' : Except Fault α × Progress} (h : Continues more run run')
    {needed remaining : Nat} (ran : run.1 = .error (.underrun needed remaining))
    (small : more.size < needed - remaining) :
    run'.1 = .error (.underrun needed (remaining + more.size)) ∧ run.2.Extends more run'.2 := by
  cases h with
  | value a h => cases ran
  | fault other h =>
    cases ran
    exact absurd trivial other
  | short _ h =>
    cases ran
    exact ⟨rfl, h⟩
  | refilled large _ _ =>
    cases ran
    omega

end Continues

/-! ## Forward decoders -/

theorem Progress.take_continues (h : p.Extends more p') (count : Nat) :
    Continues more (p.take count) (p'.take count) := by
  have remaining := h.remaining
  rcases Nat.lt_or_ge p.cursor.remaining count with short | fits
  · rw [Progress.take_of_lt short]
    by_cases large : count - p.cursor.remaining ≤ more.size
    · exact .refilled large p _
    · rw [Progress.take_of_lt (by omega), remaining]
      exact .short (Nat.lt_of_not_le large) h
  · have same : p'.cursor.buffer.extract p'.cursor.position (p'.cursor.position + count) =
        p.cursor.buffer.extract p.cursor.position (p.cursor.position + count) := by
      apply ByteArray.ext
      apply Array.toList_inj.mp
      rw [Cursor.toList_extract, Cursor.toList_extract, h.rest]
      exact List.take_append_of_le_length (by rwa [Cursor.length_rest])
    rw [Progress.take_of_le fits, Progress.take_of_le (by omega), same]
    exact .value _ ⟨h.buffer, congrArg (· + count) h.position, h.depth⟩

theorem Decoder.Forward.continues {scope : Scope V} {d : Decoder V α} (forward : d.Forward)
    (object : ∀ p p', p.Extends more p' → Continues more (scope.object p) (scope.object p'))
    (h : p.Extends more p') : Continues more (d.exec scope p) (d.exec scope p') := by
  induction forward generalizing p p' with
  | value a => exact .value a h
  | fault e other => exact .fault other h
  | take count next ends goes ih =>
    rw [exec_ask, exec_ask, andThen_answer ends, andThen_answer ends]
    exact (Progress.take_continues h count).andThen fun bytes q q' _ h => ih bytes h
  | object next ends goes ih =>
    rw [exec_ask, exec_ask, andThen_answer ends, andThen_answer ends]
    exact (object p p' h).andThen fun labelled q q' _ h => ih labelled h
  | look next body sees mono goes ih =>
    -- The two readers have the same limits, and nothing else is seen.
    rw [exec_ask, exec_ask, sees, sees]
    exact ih _ h

/-! ## Objects -/

namespace Registry

variable {registry : Registry V} {limits : Limits}

theorem dispatch_continues (h : p.Extends more p') :
    Continues more (registry.dispatch p) (registry.dispatch p') := by
  rw [dispatch_eq_andThen, dispatch_eq_andThen]
  refine (Progress.take_continues h 4).andThen fun raw q q' _ h => ?_
  split
  · exact .value _ h
  · exact .fault id h

theorem object_continues (forward : ∀ constructor ∈ registry.constructors, constructor.body.Forward)
    (room : Nat) (h : p.Extends more p') :
    Continues more (registry.object limits room p) (registry.object limits room p') := by
  induction room generalizing p p' with
  | zero =>
    rw [object_zero_eq_andThen, object_zero_eq_andThen]
    exact (dispatch_continues h).andThen fun _ _ _ _ h => .fault id h
  | succ room ih =>
    rw [object_succ_eq_andThen, object_succ_eq_andThen]
    refine (dispatch_continues h).andThen fun constructor q q' found h => ?_
    have mem := (dispatch_ok_iff.mp found).1
    exact ((forward constructor mem).continues (fun _ _ h => ih h) h.enter).leave _

end Registry

end TaggedWire
