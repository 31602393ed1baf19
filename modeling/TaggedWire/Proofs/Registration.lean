import Mathlib.Data.Finset.Dedup
import TaggedWire.Proofs.Cause

/-!
# One registration after the other

A registry is a finite map, and each identifier keeps the constructor that it was first given. What
a row of registrations leaves behind is told by the row alone. If it names no identifier twice, not
even its order matters.
-/

namespace TaggedWire.Registry

variable {V : Type}

/-- Registers a constructor. If it is refused, the registry stays. -/
def attempt (registry : Registry V) (constructor : Constructor V) :
    Except Fault Unit × Registry V :=
  match registry.register constructor with
  | .ok more => (.ok (), more)
  | .error e => (.error e, registry)

/-- The registry after some registrations, whether they succeeded or not. -/
def after (registry : Registry V) (calls : List (Constructor V)) : Registry V :=
  calls.foldl (fun registry constructor => (registry.attempt constructor).2) registry

variable {registry : Registry V} {constructor : Constructor V}

/-! ## One registration -/

theorem attempt_of_taken (taken : constructor.id ∈ registry.ids) :
    registry.attempt constructor = (.error (.duplicateConstructor constructor.id), registry) := by
  rw [← contains_iff] at taken
  unfold attempt register
  rw [dif_pos taken]

theorem attempt_of_free (free : constructor.id ∉ registry.ids) :
    ∃ more, registry.register constructor = .ok more ∧
      registry.attempt constructor = (.ok (), more) := by
  rw [← contains_iff] at free
  unfold attempt register
  rw [dif_neg free]
  exact ⟨_, rfl, rfl⟩

theorem find?_attempt (registry : Registry V) (constructor : Constructor V) (id : UInt32) :
    (registry.attempt constructor).2.find? id =
      (registry.find? id).or (if constructor.id = id then some constructor else none) := by
  by_cases taken : constructor.id ∈ registry.ids
  · rw [attempt_of_taken taken]
    cases found : registry.find? id with
    | some first => rfl
    | none =>
      have other : constructor.id ≠ id := by
        rintro rfl
        exact find?_eq_none_iff.mp found taken
      rw [Option.none_or, if_neg other]
  · obtain ⟨more, registered, made⟩ := attempt_of_free taken
    rw [made, find?_register registered]
    split
    next same =>
      subst same
      rw [find?_eq_none_iff.mpr taken, Option.none_or]
    next => rw [Option.or_none]

/-! ## Many registrations -/

theorem find?_after (registry : Registry V) (calls : List (Constructor V)) (id : UInt32) :
    (registry.after calls).find? id = (registry.find? id).or (calls.find? (·.id == id)) := by
  induction calls generalizing registry with
  | nil => rw [List.find?_nil, Option.or_none]; rfl
  | cons call calls ih =>
    have next : registry.after (call :: calls) = (registry.attempt call).2.after calls := rfl
    rw [next, ih, find?_attempt, Option.or_assoc, List.find?_cons]
    by_cases same : call.id = id
    · rw [if_pos same, Option.some_or, same, beq_self_eq_true]
    · rw [if_neg same, Option.none_or, beq_false_of_ne same]

theorem find?_after_empty (calls : List (Constructor V)) (id : UInt32) :
    (after ∅ calls).find? id = calls.find? (·.id == id) :=
  (find?_after ∅ calls id).trans (Option.none_or)

theorem mem_ids_after_empty (calls : List (Constructor V)) (id : UInt32) :
    id ∈ (after ∅ calls).ids ↔ id ∈ calls.map (·.id) := by
  rw [← not_iff_not, ← find?_eq_none_iff, find?_after_empty, List.find?_eq_none]
  simp

theorem mem_of_mem_after_empty {calls : List (Constructor V)}
    (mem : constructor ∈ (after ∅ calls).constructors) : constructor ∈ calls := by
  have found := find?_eq_some_iff.mpr ⟨mem, rfl⟩
  rw [find?_after_empty] at found
  exact List.mem_of_find?_eq_some found

theorem constructors_register {more : Registry V} (h : registry.register constructor = .ok more) :
    more.constructors = registry.constructors ++ [constructor] := by
  unfold register at h
  split at h
  · cases h
  · cases h
    rfl

theorem constructors_after (registry : Registry V) (calls : List (Constructor V))
    (distinct : (registry.ids ++ calls.map (·.id)).Nodup) :
    (registry.after calls).constructors = registry.constructors ++ calls := by
  induction calls generalizing registry with
  | nil => exact (List.append_nil _).symm
  | cons call calls ih =>
    rw [List.map_cons] at distinct
    have free : call.id ∉ registry.ids := fun taken =>
      (List.nodup_append.mp distinct).2.2 _ taken _ List.mem_cons_self rfl
    obtain ⟨more, registered, made⟩ := attempt_of_free free
    have longer := constructors_register registered
    have next : registry.after (call :: calls) = more.after calls := by
      rw [after, List.foldl_cons, made]
      rfl
    have ids : more.ids = registry.ids ++ [call.id] := by
      rw [ids, longer, List.map_append]
      rfl
    rw [next, ih, longer, List.append_assoc, List.singleton_append]
    rwa [ids, List.append_assoc, List.singleton_append]

theorem find?_after_of_perm {calls others : List (Constructor V)}
    (distinct : (calls.map (·.id)).Nodup) (perm : calls.Perm others) (id : UInt32) :
    (after ∅ others).find? id = (after ∅ calls).find? id := by
  let first : Registry V := ⟨calls, distinct⟩
  let second : Registry V := ⟨others, (perm.map _).nodup_iff.mp distinct⟩
  rw [find?_after_empty, find?_after_empty]
  change second.find? id = first.find? id
  apply Option.ext
  intro constructor
  rw [find?_eq_some_iff, find?_eq_some_iff]
  exact and_congr perm.mem_iff.symm Iff.rfl

/-- What a registry holds after some registrations from the start. -/
structure FirstWins (registry : Registry V) (calls : List (Constructor V)) : Prop where
  find? : ∀ id, registry.find? id = calls.find? (·.id == id)
  id_eq : ∀ id constructor, registry.find? id = some constructor → constructor.id = id
  contains : ∀ id, registry.contains id = (registry.find? id).isSome
  mem_ids : ∀ id, id ∈ registry.ids ↔ id ∈ calls.map (·.id)
  /-- Every identifier is listed once. -/
  nodup_ids : registry.ids.Nodup
  size : registry.size = (calls.map (·.id)).toFinset.card
  isEmpty : registry.isEmpty ↔ registry.size = 0

theorem contains_eq_isSome (registry : Registry V) (id : UInt32) :
    registry.contains id = (registry.find? id).isSome := by
  rw [Bool.eq_iff_iff, contains_iff, Option.isSome_iff_ne_none, ne_eq, find?_eq_none_iff, not_not]

theorem firstWins_after_empty (calls : List (Constructor V)) :
    FirstWins (after ∅ calls) calls where
  find? := find?_after_empty calls
  id_eq _ _ := id_of_find?
  contains := contains_eq_isSome _
  mem_ids := mem_ids_after_empty calls
  nodup_ids := (after ∅ calls).nodup
  size := by
    have length : (after ∅ calls).ids.length = (after ∅ calls).size := List.length_map _
    have distinct : (after ∅ calls).ids.Nodup := (after ∅ calls).nodup
    rw [← length, ← List.toFinset_card_of_nodup distinct]
    congr 1
    ext id
    rw [List.mem_toFinset, List.mem_toFinset]
    exact mem_ids_after_empty calls id
  isEmpty := by
    unfold isEmpty size
    rw [List.isEmpty_iff_length_eq_zero]

/-- In a row of registrations the first one under an identifier wins, and the others are refused. -/
theorem registrations_first_win (calls : List (Constructor V)) :
    (∀ before call later, calls = before ++ call :: later →
      let registry := after ∅ before
      if call.id ∈ before.map (·.id) then
        registry.attempt call = (.error (.duplicateConstructor call.id), registry)
      else
        (registry.attempt call).1 = .ok ()) ∧
    FirstWins (after ∅ calls) calls ∧
    (∀ others, (calls.map (·.id)).Nodup → calls.Perm others → ∀ id,
      (after ∅ others).find? id = (after ∅ calls).find? id) ∧
    (default : Registry V) = ∅ := by
  refine ⟨fun before call later _ => ?_, firstWins_after_empty calls,
    fun others => find?_after_of_perm, rfl⟩
  dsimp only
  split
  next taken => exact attempt_of_taken ((mem_ids_after_empty before call.id).mpr taken)
  next free =>
    obtain ⟨more, -, made⟩ := attempt_of_free (mt (mem_ids_after_empty before call.id).mp free)
    rw [made]

end TaggedWire.Registry
