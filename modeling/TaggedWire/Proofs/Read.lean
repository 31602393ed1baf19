import TaggedWire.Proofs.Forward

/-!
# All reads

What can be read with one call, as data. So a row of calls is a list, and a property of all of them
is proved once for what reads are made of.
-/

namespace TaggedWire

variable {V α β : Type}

/-- The values that are neither objects nor made of others. -/
inductive Primitive where
  | byte
  | int32
  | uint32
  | int64
  | uint64
  | binary32
  | binary64
  | raw128
  | raw256
  | wideInt (bits : Nat) (signed : Bool)
  | bool
  | bytes
  | text
  deriving DecidableEq, Repr

abbrev Primitive.Value : Primitive → Type
  | .byte => UInt8
  | .int32 => Int32
  | .uint32 => UInt32
  | .int64 => Int64
  | .uint64 => UInt64
  | .binary32 => Binary32
  | .binary64 => Binary64
  | .raw128 => ByteArray
  | .raw256 => ByteArray
  | .wideInt _ _ => WideInt
  | .bool => Bool
  | .bytes => ByteArray
  | .text => String

def Primitive.decoder : (primitive : Primitive) → Decoder V primitive.Value
  | .byte => .byte
  | .int32 => .int32
  | .uint32 => .uint32
  | .int64 => .int64
  | .uint64 => .uint64
  | .binary32 => .binary32
  | .binary64 => .binary64
  | .raw128 => .raw128
  | .raw256 => .raw256
  | .wideInt bits signed => .wideInt bits signed
  | .bool => .bool
  | .bytes => .bytes
  | .text => .text

inductive Read (V : Type) : Type 1 where
  | take (count : Nat)
  | single (primitive : Primitive)
  | object
  | typed {T : Type} (kind : Kind V T)
  | vector (element : Read V)

namespace Read

abbrev Value : Read V → Type
  | .take _ => ByteArray
  | .single primitive => primitive.Value
  | .object => V
  | @typed _ T _ => T
  | .vector element => Array element.Value

def decoder : (read : Read V) → Decoder V read.Value
  | .take count => .take count
  | .single primitive => primitive.decoder
  | .object => .object
  | .typed kind => .typed kind
  | .vector element => .vector element.decoder

end Read

/-! ## What reads are made of -/

/-- The fault says that a move would lead out of the buffer. -/
def Fault.IsOutOfBounds : Fault → Prop
  | .outOfBounds _ _ => True
  | _ => False

/-- The property holds of the single steps of a read, and of a sequence if it holds of its parts. -/
structure Closed (P : ∀ {α : Type}, Decoder V α → Prop) : Prop where
  value {α : Type} (a : α) : P (pure a)
  /-- Of these two faults, the first one comes from a take, and the second one from a move. -/
  fault {α : Type} (e : Fault) (other : ¬ e.IsUnderrun) (unmoved : ¬ e.IsOutOfBounds) :
    P (throw e : Decoder V α)
  bind {α β : Type} {d : Decoder V α} {f : α → Decoder V β} :
    P d → (∀ a, P (f a)) → P (d >>= f)
  take (count : Nat) : P (.take count)
  labelled : P .labelled
  vectorCount : P .vectorCount
  /-- It does not matter what is reserved for a vector. -/
  unseen {α : Type} {d : Decoder V α} : P d → P (.look >>= fun _ => d)

namespace Closed

variable {P : ∀ {α : Type}, Decoder V α → Prop}

theorem object (h : Closed P) : P (Decoder.object : Decoder V V) := by
  unfold Decoder.object
  rw [map_eq_pure_bind]
  exact h.bind h.labelled fun _ => h.value _

theorem uint32 (h : Closed P) : P Decoder.uint32 :=
  h.bind (h.take 4) fun _ => h.value _

theorem uint64 (h : Closed P) : P Decoder.uint64 :=
  h.bind (h.take 8) fun _ => h.value _

theorem recordHeader (h : Closed P) : P Decoder.recordHeader := by
  refine h.bind (h.bind (h.take 1) fun _ => h.value _) fun first => ?_
  split
  · exact h.bind (h.take 3) fun _ => h.value _
  · exact h.value _

theorem bytes (h : Closed P) : P Decoder.bytes := by
  refine h.bind h.recordHeader fun ⟨size, padding⟩ => h.bind (h.take size) fun payload => ?_
  dsimp only
  split
  · exact h.bind (h.take padding) fun _ => h.value _
  · exact h.value _

theorem text (h : Closed P) : P Decoder.text := by
  refine h.bind h.bytes fun payload => ?_
  split
  · exact h.value _
  · exact h.fault _ not_false not_false

theorem bool (h : Closed P) : P Decoder.bool := by
  refine h.bind h.uint32 fun id => ?_
  split
  · exact h.value _
  split
  · exact h.value _
  · exact h.fault _ not_false not_false

theorem wideInt (h : Closed P) (bits : Nat) (signed : Bool) : P (Decoder.wideInt bits signed) := by
  unfold Decoder.wideInt
  split
  · exact h.fault _ not_false not_false
  · exact h.bind (h.take _) fun _ => h.value _

theorem primitive (h : Closed P) (primitive : Primitive) : P (primitive.decoder : Decoder V _) := by
  cases primitive with
  | byte => exact h.bind (h.take 1) fun _ => h.value _
  | uint32 => exact h.uint32
  | int32 | binary32 => exact h.bind h.uint32 fun _ => h.value _
  | uint64 => exact h.uint64
  | int64 | binary64 => exact h.bind h.uint64 fun _ => h.value _
  | raw128 => exact h.take 16
  | raw256 => exact h.take 32
  | wideInt bits signed => exact h.wideInt bits signed
  | bool => exact h.bool
  | bytes => exact h.bytes
  | text => exact h.text

theorem typed {T : Type} (h : Closed P) (kind : Kind V T) : P (Decoder.typed kind) := by
  refine h.bind h.labelled fun ⟨id, value⟩ => ?_
  dsimp only
  split
  · exact h.value _
  · exact h.fault _ not_false not_false

theorem elements (h : Closed P) {element : Decoder V α} (each : P element) (count : Nat)
    (items : Array α) : P (Decoder.elements element count items) := by
  induction count generalizing items with
  | zero => exact h.value items
  | succ count ih =>
    rw [Decoder.elements_succ]
    exact h.bind each fun item => ih (items.push item)

theorem vector (h : Closed P) {element : Decoder V α} (each : P element) :
    P (Decoder.vector element) :=
  h.bind h.vectorCount fun count => h.unseen (h.elements each count #[])

theorem read (h : Closed P) (read : Read V) : P read.decoder := by
  induction read with
  | take count => exact h.take count
  | single primitive => exact h.primitive primitive
  | object => exact h.object
  | typed kind => exact h.typed kind
  | vector element ih => exact h.vector ih

end Closed

theorem closed_forward : Closed (V := V) Decoder.Forward where
  value := .value
  fault e other _ := .fault e other
  bind := .bind
  take := Decoder.forward_take
  labelled := Decoder.forward_labelled
  vectorCount := Decoder.forward_vectorCount
  unseen h := .look _ (fun _ => _) (fun _ => rfl) (fun _ _ _ => .inl rfl) fun _ => h

end TaggedWire
