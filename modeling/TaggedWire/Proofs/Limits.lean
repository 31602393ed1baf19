import TaggedWire.Proofs.Forward
import TaggedWire.Proofs.Lookup

/-!
# Raising the limits

Two runs are compared from one place, the second one under higher limits. As long as the first one
meets no limit they do the same, so a limit decides nothing but its own fault.
-/

namespace TaggedWire

variable {V α β : Type}

/-- How a run changes when the limits rise. Where a limit stopped it, anything may come of it. -/
inductive Outlasts : Except Fault α × Progress → Except Fault α × Progress → Prop where
  | same (run : Except Fault α × Progress) : Outlasts run run
  | tooDeep (limit : Nat) (q : Progress) (run' : Except Fault α × Progress) :
      Outlasts (.error (.tooDeep limit), q) run'
  | vectorTooLong (count limit : Nat) (q : Progress) (run' : Except Fault α × Progress) :
      Outlasts (.error (.vectorTooLong count limit), q) run'

namespace Outlasts

theorem andThen {run run' : Except Fault α × Progress} (h : Outlasts run run')
    {next next' : α → Progress → Except Fault β × Progress}
    (goes : ∀ a q, run = (.ok a, q) → Outlasts (next a q) (next' a q)) :
    Outlasts (TaggedWire.andThen run next) (TaggedWire.andThen run' next') := by
  cases h with
  | same =>
    obtain ⟨e | a, q⟩ := run
    · exact .same _
    · exact goes a q rfl
  | tooDeep limit q run' => exact .tooDeep limit q _
  | vectorTooLong count limit q run' => exact .vectorTooLong count limit q _

theorem leave {run run' : Except Fault α × Progress} (h : Outlasts run run') (f : α → β) :
    Outlasts (run.1.map f, run.2.leave) (run'.1.map f, run'.2.leave) := by
  cases h with
  | same => exact .same _
  | tooDeep limit q run' => exact .tooDeep limit q.leave _
  | vectorTooLong count limit q run' => exact .vectorTooLong count limit q.leave _

theorem eq_of_no_limit {run run' : Except Fault α × Progress} (h : Outlasts run run')
    (shallow : ∀ limit, run.1 ≠ .error (.tooDeep limit))
    (short : ∀ count limit, run.1 ≠ .error (.vectorTooLong count limit)) : run' = run := by
  cases h with
  | same => rfl
  | tooDeep => exact absurd rfl (shallow _)
  | vectorTooLong => exact absurd rfl (short _ _)

end Outlasts

/-- A forward decoder sees no limit but that of vectors, and that one only to stop at it. -/
theorem Decoder.Forward.outlasts {low high : Scope V} {d : Decoder V α} (forward : d.Forward)
    (longer : low.limits.maxVectorSize ≤ high.limits.maxVectorSize)
    (object : ∀ p, Outlasts (low.object p) (high.object p)) (p : Progress) :
    Outlasts (d.exec low p) (d.exec high p) := by
  induction forward generalizing p with
  | value a => exact .same _
  | fault e other => exact .same _
  | take count next ends goes ih =>
    rw [exec_ask, exec_ask, andThen_answer ends, andThen_answer ends]
    exact (Outlasts.same (p.take count)).andThen fun bytes q _ => ih bytes q
  | object next ends goes ih =>
    rw [exec_ask, exec_ask, andThen_answer ends, andThen_answer ends]
    exact (object p).andThen fun labelled q _ => ih labelled q
  | look next body sees mono goes ih =>
    rw [exec_ask, exec_ask, sees, sees]
    change Outlasts ((body low.limits.maxVectorSize).exec low p)
      ((body high.limits.maxVectorSize).exec high p)
    -- The lower limit leads on like the higher one, or it is the fault.
    obtain same | ⟨size, stops⟩ := mono _ _ longer
    · rw [same]
      exact ih _ p
    · rw [stops]
      exact .vectorTooLong size _ p _

theorem Registry.object_outlasts {registry : Registry V} {limits higher : Limits}
    (forward : ∀ constructor ∈ registry.constructors, constructor.body.Forward)
    (longer : limits.maxVectorSize ≤ higher.maxVectorSize) {room room' : Nat}
    (roomier : room ≤ room') (p : Progress) :
    Outlasts (registry.object limits room p) (registry.object higher room' p) := by
  induction room generalizing room' p with
  | zero =>
    -- The looked up identifier is the same, and then there is no room.
    rw [object_zero_eq_andThen]
    cases room' with
    | zero =>
      rw [object_zero_eq_andThen]
      exact (Outlasts.same (registry.dispatch p)).andThen fun _ q _ => .tooDeep _ q _
    | succ room' =>
      rw [object_succ_eq_andThen]
      exact (Outlasts.same (registry.dispatch p)).andThen fun _ q _ => .tooDeep _ q _
  | succ room ih =>
    obtain ⟨room', rfl⟩ : ∃ more, room' = more + 1 := ⟨room' - 1, by omega⟩
    rw [object_succ_eq_andThen, object_succ_eq_andThen]
    refine (Outlasts.same (registry.dispatch p)).andThen fun constructor q found => ?_
    have mem := (dispatch_ok_iff.mp found).1
    let low : Scope V := ⟨limits, registry.labels, registry.object limits room⟩
    let high : Scope V := ⟨higher, registry.labels, registry.object higher room'⟩
    have inside : Outlasts (constructor.body.exec low q.enter)
        (constructor.body.exec high q.enter) :=
      (forward constructor mem).outlasts longer (fun p => ih (by omega) p) q.enter
    exact inside.leave _

end TaggedWire
