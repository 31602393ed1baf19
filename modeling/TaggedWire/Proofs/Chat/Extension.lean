import TaggedWire.Chat.Schema
import TaggedWire.Proofs.Chat.Bodies
import TaggedWire.Proofs.Extension
import TaggedWire.Proofs.Registration

/-!
# Reading with a part of the schema

A reader may know only some of the layouts. What it makes of a buffer without meeting an unknown one
is what every reader makes of it that knows those layouts and more.
-/

namespace TaggedWire.Chat

open Decoder

/-- The registry after registering the layouts one by one. -/
def registryOf (layouts : List Layout) : Registry Object :=
  Registry.after ∅ (layouts.map Layout.constructor)

/-- The registry of the schema is what registering every layout makes. -/
theorem registryOf_all : registryOf Layout.all = registry := by
  have same : (registryOf Layout.all).constructors = registry.constructors :=
    Registry.constructors_after ∅ _ registry.nodup
  generalize registryOf Layout.all = other at same ⊢
  obtain ⟨constructors, nodup⟩ := other
  subst same
  rfl

theorem mem_registryOf_iff {layouts : List Layout} {constructor : Constructor Object} :
    constructor ∈ (registryOf layouts).constructors ↔
      ∃ layout ∈ layouts, layout.constructor = constructor := by
  constructor
  · intro mem
    exact List.mem_map.mp (Registry.mem_of_mem_after_empty mem)
  · rintro ⟨layout, mem, rfl⟩
    have taken : layout.id ∈ (registryOf layouts).ids := by
      apply (Registry.mem_ids_after_empty _ _).mpr
      exact List.mem_map_of_mem (List.mem_map_of_mem mem)
    obtain ⟨constructor, registered, same⟩ := List.mem_map.mp taken
    obtain ⟨other, -, rfl⟩ := List.mem_map.mp (Registry.mem_of_mem_after_empty registered)
    rwa [← Layout.id_injective same]

theorem covers_registryOf {layouts more : List Layout} (larger : layouts ⊆ more) :
    (registryOf more).Covers (registryOf layouts) := by
  intro id constructor found
  rw [Registry.find?_eq_some_iff, mem_registryOf_iff] at found ⊢
  obtain ⟨⟨layout, mem, made⟩, same⟩ := found
  exact ⟨⟨layout, larger mem, made⟩, same⟩

theorem forward_registryOf (layouts : List Layout) :
    ∀ constructor ∈ (registryOf layouts).constructors, constructor.body.Forward := by
  intro constructor mem
  obtain ⟨layout, -, rfl⟩ := mem_registryOf_iff.mp mem
  exact (inherited_of_closed closed_forward).body layout

theorem read_learns {layouts more : List Layout} (larger : layouts ⊆ more) (limits : Limits)
    (depth : Nat) (p : Progress) :
    Learns (registryOf more)
      ((Decoder.object : Decoder Object Object).exec
        (Reader.scope ⟨registryOf layouts, limits, depth⟩) p)
      ((Decoder.object : Decoder Object Object).exec
        (Reader.scope ⟨registryOf more, limits, depth⟩) p) := by
  apply forward_object.learns
  · rfl
  · exact Registry.object_learns (covers_registryOf larger) (forward_registryOf layouts) limits _

/-! ## Unknown identifiers -/

theorem explained_reads {registry : Registry Object} {scope : Scope Object}
    (faults : ∀ p e q, scope.object p = (.error e, q) → ∃ cause : Cause,
      cause.Explains registry scope.limits (fun _ _ _ => True) q.cursor e) :
    Inherited (Explained registry (fun _ _ _ => True) scope) := by
  -- Which objects a type refuses says nothing about unknown identifiers, so any do.
  have typed {T : Type} (kind : Kind Object T) :
      (typed kind).Explained registry (fun _ _ _ => True) scope :=
    explained_typed faults fun _ _ _ _ _ _ => ⟨[], List.nil_suffix, trivial⟩
  exact {
    value := explained_pure
    bind := Explained.bind
    uint32 := explained_uint32
    uint64 := explained_uint64
    text := explained_text
    peer := typed _
    entities := (typed _).vector
    messages := (typed _).vector }

theorem object_explained_of_layouts {layouts : List Layout} {limits : Limits} {room : Nat}
    {p q : Progress} {e : Fault}
    (run : (registryOf layouts).object limits room p = (.error e, q)) :
    ∃ cause : Cause,
      cause.Explains (registryOf layouts) limits (fun _ _ _ => True) q.cursor e := by
  induction room generalizing p q e with
  | zero => exact Registry.object_zero_error run
  | succ room ih =>
    refine Registry.object_succ_error (fun constructor mem => ?_) run
    obtain ⟨layout, -, rfl⟩ := mem_registryOf_iff.mp mem
    exact (explained_reads fun _ _ _ => ih).body layout

theorem not_mem_ids_of_unknown {layouts : List Layout} {limits : Limits} {depth : Nat}
    {p q : Progress} {id : UInt32}
    (run : (Decoder.object : Decoder Object Object).exec
      (Reader.scope ⟨registryOf layouts, limits, depth⟩) p = (.error (.unknownConstructor id), q)) :
    id ∉ (registryOf layouts).ids := by
  unfold Decoder.object at run
  rw [map_eq_pure_bind, exec_bind_error_iff] at run
  obtain first | ⟨_, _, -, second⟩ := run
  · obtain ⟨cause, explains⟩ := object_explained_of_layouts first
    cases explains with
    | unknown behind free => exact free
  · cases second

/-- More layouts change nothing about a read, unless it stopped at an identifier that they make
known. -/
theorem read_extend (layouts more : List Layout) (larger : layouts ⊆ more) (limits : Limits)
    (depth : Nat) (c : Cursor) :
    let few := Reader.run ⟨registryOf layouts, limits, depth⟩ .object c
    let many := Reader.run ⟨registryOf more, limits, depth⟩ .object c
    ((∀ id, few.result ≠ .error (.unknownConstructor id)) →
      many.result = few.result ∧ many.cursor = few.cursor) ∧
    ∀ id, few.result = .error (.unknownConstructor id) →
      id ∉ (registryOf layouts).ids ∧
      (id ∉ (registryOf more).ids →
        many.result = .error (.unknownConstructor id) ∧ many.cursor = few.cursor) := by
  intro few many
  have both := read_learns larger limits depth ⟨c, depth⟩
  have same (unknown : ∀ id, few.result = .error (.unknownConstructor id) →
      id ∉ (registryOf more).ids) : many.result = few.result ∧ many.cursor = few.cursor := by
    have eq := both.eq_of_unknown unknown
    exact ⟨congrArg Prod.fst eq, congrArg (fun run => run.2.cursor) eq⟩
  refine ⟨fun other => same fun id stopped => absurd stopped (other id), fun id stopped => ?_⟩
  refine ⟨not_mem_ids_of_unknown (Prod.ext stopped rfl), fun free => ?_⟩
  obtain ⟨result, cursor⟩ := same fun id' stopped' => by
    rw [stopped] at stopped'
    cases stopped'
    exact free
  exact ⟨result.trans stopped, cursor⟩

/-- A page of two messages. The first one is empty, and the second one has an unknown identifier. -/
def pageWithStranger : ByteArray :=
  ⟨#[0x87, 0x8e, 0x71, 0x8c, 0x15, 0xc4, 0xb5, 0x1c, 2, 0, 0, 0,
    0x84, 0xca, 0xa6, 0x90, 0, 0, 0, 0, 5, 0, 0, 0, 7, 0, 0, 0]⟩

def readStranger (layouts : List Layout) : Outcome Object Object :=
  Reader.run ⟨registryOf layouts, {}, 0⟩ .object (.start pageWithStranger)

theorem read_extend_pageWithStranger :
    (readStranger [.page, .emptyMessage]).result = .error (.unknownConstructor 7) ∧
      (readStranger Layout.all).result = .error (.unknownConstructor 7) ∧
      (readStranger Layout.all).cursor.position = 28 := by
  have stopped : (readStranger [.page, .emptyMessage]).result = .error (.unknownConstructor 7) := by
    decide +kernel
  have position : (readStranger [.page, .emptyMessage]).cursor.position = 28 := by decide +kernel
  obtain ⟨-, unknown⟩ := read_extend [.page, .emptyMessage] Layout.all
    (fun layout _ => layout.mem_all) {} 0 (.start pageWithStranger)
  obtain ⟨result, cursor⟩ := (unknown 7 stopped).2 (by decide +kernel)
  have same : (readStranger Layout.all).cursor = (readStranger [.page, .emptyMessage]).cursor :=
    cursor
  refine ⟨stopped, result, ?_⟩
  rw [same, position]

end TaggedWire.Chat
