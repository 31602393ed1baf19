import TaggedWire.Chat.Decoder
import TaggedWire.Proofs.Read

/-!
# What the bodies are made of

The bodies of the schema put a handful of reads one after the other. A property that sequences have
from their parts is a property of every body once it is one of these reads.
-/

namespace TaggedWire.Chat

open Decoder

/-- The property holds of the reads of the schema, and of a sequence if it holds of its parts. -/
structure Inherited (P : ∀ {α : Type}, Decoder Object α → Prop) : Prop where
  value {α : Type} (a : α) : P (pure a)
  bind {α β : Type} {d : Decoder Object α} {f : α → Decoder Object β} :
    P d → (∀ a, P (f a)) → P (d >>= f)
  uint32 : P uint32
  uint64 : P uint64
  text : P text
  peer : P (typed Peer.kind)
  entities : P (typedVector Entity.kind)
  messages : P (typedVector AnyMessage.kind)

theorem inherited_of_closed {P : ∀ {α : Type}, Decoder Object α → Prop} (h : Closed P) :
    Inherited P where
  value := h.value
  bind := h.bind
  uint32 := h.uint32
  uint64 := h.uint64
  text := h.text
  peer := h.typed _
  entities := h.vector (h.typed _)
  messages := h.vector (h.typed _)

namespace Inherited

variable {P : ∀ {α : Type}, Decoder Object α → Prop}

theorem int32 (h : Inherited P) : P int32 :=
  h.bind h.uint32 fun _ => h.value _

theorem int64 (h : Inherited P) : P int64 :=
  h.bind h.uint64 fun _ => h.value _

theorem field (h : Inherited P) {α : Type} {decoder : Decoder Object α} (part : P decoder)
    (flag : Flag) (word : UInt32) : P (flag.field word decoder) := by
  unfold Flag.field
  split
  · rw [map_eq_pure_bind]
    exact h.bind part fun a => h.value (some a)
  · exact h.value none

theorem entity (h : Inherited P) {format : Decoder Object Format} (part : P format) :
    P (Entity.decoder format) :=
  h.bind h.int32 fun _ => h.bind h.int32 fun _ => h.bind part fun _ => h.value _

theorem message (h : Inherited P) : P Message.decoder := by
  refine h.bind h.uint32 fun flags => h.bind h.int32 fun id => ?_
  refine h.bind (h.field h.peer _ _) fun sender => ?_
  refine h.bind h.peer fun peer => h.bind h.int32 fun date => ?_
  refine h.bind h.text fun text => ?_
  refine h.bind (h.field h.entities _ _) fun entities => ?_
  exact h.bind (h.field h.int32 _ _) fun views => h.value _

theorem emptyMessage (h : Inherited P) : P EmptyMessage.decoder := by
  refine h.bind h.uint32 fun flags => h.bind h.int32 fun id => ?_
  exact h.bind (h.field h.peer _ _) fun peer => h.value _

theorem body (h : Inherited P) (layout : Layout) : P layout.body := by
  cases layout with
  | user | group | channel => exact h.bind h.int64 fun _ => h.value _
  | plain style => exact h.bind (h.entity (h.value _)) fun _ => h.value _
  | pre | link =>
    exact h.bind (h.entity (h.bind h.text fun _ => h.value _)) fun _ => h.value _
  | mention => exact h.bind (h.entity (h.bind h.int64 fun _ => h.value _)) fun _ => h.value _
  | message => exact h.bind h.message fun _ => h.value _
  | emptyMessage => exact h.bind h.emptyMessage fun _ => h.value _
  | page => exact h.bind h.messages fun _ => h.value _

end Inherited

end TaggedWire.Chat
