import Mathlib.Data.List.Nodup
import TaggedWire.Proofs.Acceptance

/-!
# Looking constructors up

An identifier leads to the one constructor that is registered under it, and an object is that
identifier and what the body of the constructor reads, one level deeper.
-/

namespace TaggedWire

variable {V : Type}

namespace Registry

theorem find?_eq_some_iff {registry : Registry V} {id : UInt32} {constructor : Constructor V} :
    registry.find? id = some constructor ↔
      constructor ∈ registry.constructors ∧ constructor.id = id := by
  constructor
  · intro h
    exact ⟨List.mem_of_find?_eq_some h, id_of_find? h⟩
  · rintro ⟨mem, rfl⟩
    cases found : registry.find? constructor.id with
    | none =>
      rw [find?, List.find?_eq_none] at found
      exact absurd (beq_self_eq_true _) (found constructor mem)
    | some other =>
      have sameId := id_of_find? found
      rw [List.inj_on_of_nodup_map registry.nodup (List.mem_of_find?_eq_some found) mem sameId]

/-! ## The steps of a read -/

theorem dispatch_eq_andThen (registry : Registry V) (p : Progress) :
    registry.dispatch p = andThen (p.take 4) fun raw q =>
      match registry.find? (LittleEndian.word32 raw) with
      | some constructor => (.ok constructor, q)
      | none => (.error (.unknownConstructor (LittleEndian.word32 raw)), q) := by
  unfold dispatch
  obtain ⟨_ | raw, q⟩ := p.take 4 <;> rfl

theorem object_zero_eq_andThen (registry : Registry V) (limits : Limits) (p : Progress) :
    registry.object limits 0 p =
      andThen (registry.dispatch p) fun _ q => (.error (.tooDeep limits.maxDepth), q) := by
  unfold object
  obtain ⟨_ | constructor, q⟩ := registry.dispatch p <;> rfl

theorem object_succ_eq_andThen (registry : Registry V) (limits : Limits) (room : Nat)
    (p : Progress) :
    registry.object limits (room + 1) p =
      andThen (registry.dispatch p) fun constructor q =>
        let inside := constructor.body.exec
          ⟨limits, registry.labels, registry.object limits room⟩ q.enter
        (inside.1.map (constructor.id, ·), inside.2.leave) := by
  unfold object
  obtain ⟨_ | constructor, q⟩ := registry.dispatch p <;> rfl

/-! ## Reads that succeed -/

variable {registry : Registry V} {p q : Progress}

theorem dispatch_ok_iff {constructor : Constructor V} :
    registry.dispatch p = (.ok constructor, q) ↔
      constructor ∈ registry.constructors ∧ p.Reads {[.word32 constructor.id]} q := by
  rw [dispatch_eq_andThen, andThen_ok_iff, ← Decoder.take_word32_iff]
  constructor
  · rintro ⟨raw, m, taken, found⟩
    split at found
    next some =>
      cases found
      obtain ⟨mem, same⟩ := find?_eq_some_iff.mp some
      exact ⟨mem, raw, taken, same.symm⟩
    next => cases found
  · rintro ⟨mem, raw, taken, same⟩
    refine ⟨raw, q, taken, ?_⟩
    rw [find?_eq_some_iff.mpr ⟨mem, same.symm⟩]

theorem object_zero_ne_ok {limits : Limits} {labelled : UInt32 × V} :
    registry.object limits 0 p ≠ (.ok labelled, q) := by
  intro h
  rw [object_zero_eq_andThen, andThen_ok_iff] at h
  obtain ⟨_, _, _, deep⟩ := h
  cases deep

theorem object_succ_ok_iff {limits : Limits} {room : Nat} {id : UInt32} {value : V} :
    registry.object limits (room + 1) p = (.ok (id, value), q) ↔
      ∃ constructor ∈ registry.constructors, constructor.id = id ∧
        ∃ m, p.Reads {[.word32 id]} m ∧
          ∃ inside, constructor.body.exec ⟨limits, registry.labels, registry.object limits room⟩
            m.enter = (.ok value, inside) ∧ inside.leave = q := by
  rw [object_succ_eq_andThen, andThen_ok_iff]
  constructor
  · rintro ⟨constructor, m, found, h⟩
    obtain ⟨mem, reads⟩ := dispatch_ok_iff.mp found
    dsimp only at h
    generalize run : constructor.body.exec _ m.enter = inside at h
    obtain ⟨e | value', inside⟩ := inside
    · cases h
    · cases h
      exact ⟨constructor, mem, rfl, m, reads, inside, run, rfl⟩
  · rintro ⟨constructor, mem, rfl, m, reads, inside, run, rfl⟩
    refine ⟨constructor, m, dispatch_ok_iff.mpr ⟨mem, reads⟩, ?_⟩
    rw [run]
    rfl

end Registry

end TaggedWire
