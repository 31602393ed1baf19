import TaggedWire.Proofs.Cause
import TaggedWire.Proofs.Chat.Acceptance
import TaggedWire.Proofs.Chat.Bodies

/-!
# Why reading an object stopped

Every fault of the schema decoder, from whatever level it comes, has exactly one cause, and tells
the truth about the bytes where the cursor stopped.
-/

namespace TaggedWire.Chat

open Decoder

/-- The type of an object, by the name that fields have for it. No field holds a page. -/
def Object.typeName : Object → Option String
  | .peer _ => some "Peer"
  | .entity _ => some "MessageEntity"
  | .message _ => some "AnyMessage"
  | .page _ => none

/-- The form is an object under the identifier `found`, and a field of type `expected` refuses it. -/
def Refused (expected : String) (found : UInt32) (form : List UInt8) : Prop :=
  expected ∈ ["Peer", "MessageEntity", "AnyMessage"] ∧
    ∃ o : Object, o.layout.id = found ∧ o.WireForm form ∧ o.typeName ≠ some expected

theorem not_refused_vector (found : UInt32) (form : List UInt8) :
    ¬ Refused "Vector" found form := by
  rintro ⟨named, -⟩
  revert named
  decide

variable {scope : Scope Object} {level : Nat}

def ExplainsObjects (scope : Scope Object) : Prop :=
  ∀ p e q, scope.object p = (.error e, q) →
    ∃ cause : Cause, cause.Explains registry scope.limits Refused q.cursor e

theorem explained_kind {T : Type} {kind : Kind Object T} (faults : ExplainsObjects scope)
    (objects : AcceptsObjects scope level)
    (named : kind.name ∈ ["Peer", "MessageEntity", "AnyMessage"])
    (narrows : ∀ o, kind.narrow? o = none → o.typeName ≠ some kind.name) :
    (typed kind).Explained registry Refused scope := by
  refine explained_typed faults fun p id o q run other => ?_
  obtain ⟨rfl, -, reads⟩ := (objects p id o q).mp run
  obtain ⟨pieces, mem, behind⟩ := reads.behind
  exact ⟨wire pieces, behind, named, o, rfl, ⟨pieces, mem, rfl⟩, narrows o other⟩

theorem explained_parts (faults : ExplainsObjects scope) (objects : AcceptsObjects scope level) :
    Inherited (Explained registry Refused scope) where
  value := explained_pure
  bind := Explained.bind
  uint32 := explained_uint32
  uint64 := explained_uint64
  text := explained_text
  peer := explained_kind faults objects (by decide)
    (by intro o; cases o <;> simp [Peer.kind, Object.typeName])
  entities := (explained_kind faults objects (by decide)
    (by intro o; cases o <;> simp [Entity.kind, Object.typeName])).vector
  messages := (explained_kind faults objects (by decide)
    (by intro o; cases o <;> simp [AnyMessage.kind, Object.typeName])).vector

theorem object_explained {limits : Limits} {room : Nat} (sum : level + room = limits.maxDepth + 1)
    {p q : Progress} {e : Fault} (run : registry.object limits room p = (.error e, q)) :
    ∃ cause : Cause, cause.Explains registry limits Refused q.cursor e := by
  induction room generalizing level p q e with
  | zero => exact Registry.object_zero_error run
  | succ room ih =>
    have deeper : level + 1 + room = limits.maxDepth + 1 := by omega
    let scope : Scope Object := ⟨limits, registry.labels, registry.object limits room⟩
    -- The faults of the objects inside are explained by induction. Those that are read and then
    -- refused are no faults yet, so that also takes what the grammar says of them.
    have faults : ExplainsObjects scope := fun _ _ _ run => ih deeper run
    have objects : AcceptsObjects scope (level + 1) := fun _ _ _ _ => object_ok_iff deeper
    refine Registry.object_succ_error (fun constructor mem => ?_) run
    obtain ⟨layout, -, rfl⟩ := List.mem_map.mp mem
    exact (explained_parts faults objects).body layout

/-- A fault has just one cause in the bytes before the place where the read stopped. -/
theorem fault_cause (buffer : ByteArray) (limits : Limits) (e : Fault)
    (h : (Reader.run { registry, limits } .object (.start buffer)).result = .error e) :
    let stop := (Reader.run { registry, limits } .object (.start buffer)).cursor
    stop.buffer = buffer ∧ stop.position ≤ buffer.size ∧
      ∃! cause : Cause, cause.Explains registry limits Refused stop e := by
  intro stop
  let reader : Reader Object := { registry, limits }
  have same : stop.buffer = buffer := (reader.exec_stays .object ⟨.start buffer, 0⟩).buffer
  refine ⟨same, same ▸ stop.position_le, ?_⟩
  have sum : 0 + reader.room = limits.maxDepth + 1 := Nat.zero_add _
  have labelled : (labelled : Decoder Object (UInt32 × Object)).Explained registry Refused
      reader.scope := fun _ _ _ run => object_explained sum run
  have object : (object : Decoder Object Object).Explained registry Refused reader.scope := by
    unfold Decoder.object
    rw [map_eq_pure_bind]
    exact labelled.bind fun _ => explained_pure _
  obtain ⟨cause, explains⟩ := object ⟨.start buffer, 0⟩ e _ (Prod.ext h rfl)
  exact ⟨cause, explains, fun other h => h.unique not_refused_vector explains⟩

/-- A page whose only element is a peer. -/
def peerOnPage : ByteArray :=
  ⟨#[0x87, 0x8e, 0x71, 0x8c, 0x15, 0xc4, 0xb5, 0x1c, 1, 0, 0, 0,
    0x22, 0x17, 0x51, 0x59, 7, 0, 0, 0, 0, 0, 0, 0]⟩

theorem fault_cause_peerOnPage :
    let stop := (Reader.run { registry } .object (.start peerOnPage)).cursor
    decode peerOnPage = .error (.unexpectedConstructor "AnyMessage" 0x59511722) ∧
      stop.position = 24 ∧
      Cause.otherType.Explains registry {} Refused stop
        (.unexpectedConstructor "AnyMessage" 0x59511722) := by
  intro stop
  have fault : decode peerOnPage = .error (.unexpectedConstructor "AnyMessage" 0x59511722) := by rfl
  obtain ⟨-, -, cause, explains, -⟩ := fault_cause peerOnPage {} _ fault
  refine ⟨fault, by rfl, ?_⟩
  generalize named : "AnyMessage" = expected at explains ⊢
  cases explains with
  | otherType behind refused => exact .otherType behind refused
  | noVector => exact absurd named (by decide)

end TaggedWire.Chat
