import TaggedWire.Proofs.Cause
import TaggedWire.Proofs.Forward

/-!
# Registering more constructors

Two runs are compared from one place, the second one with more constructors. Until the first one
comes to an identifier that it does not know they do the same. Such an identifier is a fault at
once, so nothing that was read before it can tell the two apart.
-/

namespace TaggedWire

variable {V α β : Type}

/-- The registry leads every identifier of the smaller one to the same constructor. -/
def Registry.Covers (larger smaller : Registry V) : Prop :=
  ∀ id constructor, smaller.find? id = some constructor → larger.find? id = some constructor

/-- How a run changes when constructors are added. Where it stopped at an identifier that has become
known, anything may come of it. -/
inductive Learns (larger : Registry V) :
    Except Fault α × Progress → Except Fault α × Progress → Prop where
  | same (run : Except Fault α × Progress) : Learns larger run run
  | known {id : UInt32} (added : id ∈ larger.ids) (q : Progress)
      (run' : Except Fault α × Progress) :
      Learns larger (.error (.unknownConstructor id), q) run'

variable {larger smaller : Registry V}

namespace Learns

theorem andThen {run run' : Except Fault α × Progress} (h : Learns larger run run')
    {next next' : α → Progress → Except Fault β × Progress}
    (goes : ∀ a q, run = (.ok a, q) → Learns larger (next a q) (next' a q)) :
    Learns larger (TaggedWire.andThen run next) (TaggedWire.andThen run' next') := by
  cases h with
  | same =>
    obtain ⟨e | a, q⟩ := run
    · exact .same _
    · exact goes a q rfl
  | known added q run' => exact .known added q _

theorem leave {run run' : Except Fault α × Progress} (h : Learns larger run run') (f : α → β) :
    Learns larger (run.1.map f, run.2.leave) (run'.1.map f, run'.2.leave) := by
  cases h with
  | same => exact .same _
  | known added q run' => exact .known added q.leave _

theorem eq_of_unknown {run run' : Except Fault α × Progress} (h : Learns larger run run')
    (unknown : ∀ id, run.1 = .error (.unknownConstructor id) → id ∉ larger.ids) : run' = run := by
  cases h with
  | same => rfl
  | known added => exact absurd added (unknown _ rfl)

end Learns

/-! ## Forward decoders -/

/-- A forward decoder does not see which constructors there are. It meets them in the objects. -/
theorem Decoder.Forward.learns {few many : Scope V} {d : Decoder V α} (forward : d.Forward)
    (limit : few.limits.maxVectorSize = many.limits.maxVectorSize)
    (object : ∀ p, Learns larger (few.object p) (many.object p)) (p : Progress) :
    Learns larger (d.exec few p) (d.exec many p) := by
  induction forward generalizing p with
  | value a => exact .same _
  | fault e other => exact .same _
  | take count next ends goes ih =>
    rw [exec_ask, exec_ask, andThen_answer ends, andThen_answer ends]
    exact (Learns.same (p.take count)).andThen fun bytes q _ => ih bytes q
  | object next ends goes ih =>
    rw [exec_ask, exec_ask, andThen_answer ends, andThen_answer ends]
    exact (object p).andThen fun labelled q _ => ih labelled q
  | look next body sees mono goes ih =>
    rw [exec_ask, exec_ask, sees, sees]
    change Learns larger ((body few.limits.maxVectorSize).exec few p)
      ((body many.limits.maxVectorSize).exec many p)
    rw [limit]
    exact ih _ p

/-! ## Objects -/

namespace Registry

theorem dispatch_learns (covers : larger.Covers smaller) (p : Progress) :
    Learns larger (smaller.dispatch p) (larger.dispatch p) := by
  rw [dispatch_eq_andThen, dispatch_eq_andThen]
  refine (Learns.same (p.take 4)).andThen fun raw q _ => ?_
  cases found : smaller.find? (LittleEndian.word32 raw) with
  | some constructor =>
    rw [covers _ _ found]
    exact .same _
  | none =>
    cases added : larger.find? (LittleEndian.word32 raw) with
    | none => exact .same _
    | some constructor =>
      obtain ⟨mem, same⟩ := find?_eq_some_iff.mp added
      exact .known (same ▸ List.mem_map_of_mem mem) q _

theorem object_learns (covers : larger.Covers smaller)
    (forward : ∀ constructor ∈ smaller.constructors, constructor.body.Forward) (limits : Limits)
    (room : Nat) (p : Progress) :
    Learns larger (smaller.object limits room p) (larger.object limits room p) := by
  induction room generalizing p with
  | zero =>
    rw [object_zero_eq_andThen, object_zero_eq_andThen]
    exact (dispatch_learns covers p).andThen fun _ _ _ => .same _
  | succ room ih =>
    rw [object_succ_eq_andThen, object_succ_eq_andThen]
    refine (dispatch_learns covers p).andThen fun constructor q found => ?_
    let few : Scope V := ⟨limits, smaller.labels, smaller.object limits room⟩
    let many : Scope V := ⟨limits, larger.labels, larger.object limits room⟩
    have inside : Learns larger (constructor.body.exec few q.enter)
        (constructor.body.exec many q.enter) := by
      apply (forward constructor (dispatch_ok_iff.mp found).1).learns
      · rfl
      · exact ih
    exact inside.leave _

end Registry

end TaggedWire
