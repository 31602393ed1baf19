import TaggedWire.Decoder.Composite

/-!
# Decoders that only go forward

They take bytes and read objects, one after the other, and end with the first fault. They know
nothing of where they are or how much is left, and of the limits they only see how long a vector
may be.
-/

namespace TaggedWire

/-- The fault says that the bytes ran out. -/
def Fault.IsUnderrun : Fault → Prop
  | .underrun _ _ => True
  | _ => False

namespace Decoder

variable {V α β : Type}

/-- The decoder goes forward and ends with the first fault. -/
inductive Forward : Decoder V α → Prop where
  | value (a : α) : Forward (pure a)
  /-- Only a take says that the bytes ran out. -/
  | fault (e : Fault) (other : ¬ e.IsUnderrun) : Forward (throw e)
  | take (count : Nat) (next : Except Fault ByteArray → Decoder V α)
      (ends : ∀ e, next (.error e) = throw e) (goes : ∀ bytes, Forward (next (.ok bytes))) :
      Forward (.ask (.take count) next)
  | object (next : Except Fault (UInt32 × V) → Decoder V α)
      (ends : ∀ e, next (.error e) = throw e) (goes : ∀ labelled, Forward (next (.ok labelled))) :
      Forward (.ask .object next)
  /-- A higher limit changes nothing, unless the lower one was the fault. -/
  | look (next : Surroundings → Decoder V α) (body : Nat → Decoder V α)
      (sees : ∀ seen, next seen = body seen.limits.maxVectorSize)
      (mono : ∀ low high, low ≤ high →
        body low = body high ∨ ∃ size, body low = throw (.vectorTooLong size low))
      (goes : ∀ limit, Forward (body limit)) :
      Forward (.ask .look next)

/-! ## Sequences -/

theorem Forward.bind {d : Decoder V α} {f : α → Decoder V β} (h : d.Forward)
    (hf : ∀ a, (f a).Forward) : (d >>= f).Forward := by
  induction h with
  | value a => exact hf a
  | fault e other => exact .fault e other
  | take count next ends goes ih =>
    rw [ask_bind]
    refine .take count _ (fun e => ?_) ih
    rw [ends, throw_bind]
  | object next ends goes ih =>
    rw [ask_bind]
    refine .object _ (fun e => ?_) ih
    rw [ends, throw_bind]
  | look next body sees mono goes ih =>
    rw [ask_bind]
    refine .look _ (fun limit => body limit >>= f) (fun seen => ?_) (fun low high le => ?_) ih
    · rw [sees]
    · obtain same | ⟨size, stops⟩ := mono low high le
      · exact .inl (by rw [same])
      · exact .inr ⟨size, by rw [stops, throw_bind]⟩

theorem Forward.map {d : Decoder V α} (h : d.Forward) (f : α → β) : (f <$> d).Forward := by
  rw [map_eq_pure_bind]
  exact h.bind fun a => .value (f a)

theorem Forward.guard {c : Prop} [Decidable c] {e : Fault} {d : PUnit → Decoder V α}
    (other : ¬ e.IsUnderrun) (h : (d ⟨⟩).Forward) :
    (if c then throw e >>= d else d ⟨⟩).Forward := by
  split
  · exact .fault e other
  · exact h

/-! ## Single steps -/

theorem forward_take (count : Nat) : (take count : Decoder V ByteArray).Forward :=
  .take count .done (fun _ => rfl) .value

theorem forward_labelled : (labelled : Decoder V (UInt32 × V)).Forward :=
  .object .done (fun _ => rfl) .value

theorem forward_object : (object : Decoder V V).Forward :=
  forward_labelled.map Prod.snd

theorem forward_uint32 : (uint32 : Decoder V UInt32).Forward :=
  (forward_take 4).bind fun _ => .value _

theorem forward_int32 : (int32 : Decoder V Int32).Forward :=
  forward_uint32.bind fun _ => .value _

theorem forward_vectorCount : (vectorCount : Decoder V Nat).Forward := by
  refine forward_uint32.bind fun id => .guard not_false ?_
  refine forward_int32.bind fun count => .guard not_false ?_
  refine .look _ (fun limit => if limit < count.toNatClampNeg then
    throw (.vectorTooLong count.toNatClampNeg limit) else pure count.toNatClampNeg) ?_ ?_ ?_
  · intro seen
    rfl
  · intro low high le
    split
    · exact .inr ⟨_, rfl⟩
    · rw [if_neg (by omega)]
      exact .inl rfl
  · intro limit
    split
    · exact .fault _ not_false
    · exact .value _

end Decoder

end TaggedWire
