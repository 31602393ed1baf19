import TaggedWire.Proofs.Breach
import TaggedWire.Proofs.Chat.RoundTrip

/-!
# Which limit stops the reading of an object

An object that breaks a limit is refused with the fault of the first mark of its outline that does.
Both limits are judged on one walk, so which of them trips depends on the fields that are there.
-/

namespace TaggedWire.Chat

open Decoder

variable {scope : Scope Object} {level : Nat} {p q : Progress}

/-- The scope meets the marks of the objects that lie at a level. -/
def MeetsObjects (scope : Scope Object) (level : Nat) : Prop :=
  ∀ o p q, p.Reads o.spellings q →
    Meets scope.limits (o.outline level) (o.layout.id, o) q (scope.object p)

/-! ## Fields -/

theorem peer_meets (h : MeetsObjects scope level) (peer : Peer) (p q : Progress)
    (reads : p.Reads peer.spellings q) :
    Meets scope.limits (peer.outline level) peer q ((typed Peer.kind).exec scope p) :=
  (h (.peer peer) p q reads).typed rfl

theorem entity_meets (h : MeetsObjects scope level) (entity : Entity) (p q : Progress)
    (reads : p.Reads entity.spellings q) :
    Meets scope.limits (entity.outline level) entity q ((typed Entity.kind).exec scope p) :=
  (h (.entity entity) p q reads).typed rfl

theorem anyMessage_meets (h : MeetsObjects scope level) (message : AnyMessage) (p q : Progress)
    (reads : p.Reads message.spellings q) :
    Meets scope.limits (message.outline level) message q
      ((typed AnyMessage.kind).exec scope p) :=
  (h (.message message) p q reads).typed rfl

theorem text_meets {text : String} (reads : p.Reads (textSpellings text) q) :
    Meets scope.limits (textOutline text) text q (Decoder.text.exec scope p) := by
  apply Meets.of_within
  · simp [textOutline, Mark.Within]
  · exact exec_text_ok_iff.mpr reads

theorem field_meets {α : Type} {decoder : Decoder Object α} {outline : α → List Mark}
    {spellings : α → Language Piece}
    (h : ∀ a p q, p.Reads (spellings a) q → Meets scope.limits (outline a) a q (decoder.exec scope p))
    {flag : Flag} {word : UInt32} {field : Option α}
    (set : word.toNat.testBit flag.bit.toNat = field.isSome)
    (reads : p.Reads (optionalSpellings field spellings) q) :
    Meets scope.limits (optionalOutline field outline) field q
      ((flag.field word decoder).exec scope p) := by
  unfold Flag.field
  rw [Flag.isSet_eq_testBit, set]
  cases field with
  | none =>
    obtain rfl := Progress.reads_one_iff.mp reads
    exact Meets.of_ok rfl
  | some a =>
    rw [Option.isSome_some, if_pos rfl, map_eq_pure_bind]
    exact (h a p q reads).bind_pure

/-! ## Bodies -/

theorem message_meets (h : MeetsObjects scope (level + 1)) {message : Message}
    (reads : p.Reads message.fields q) :
    Meets scope.limits (message.inner level) message q (Message.decoder.exec scope p) := by
  simp only [Message.fields, Message.flagSpellings, Progress.reads_mul_iff,
    Progress.reads_flags_iff] at reads
  obtain ⟨m₇, ⟨m₆, ⟨m₅, ⟨m₄, ⟨m₃, ⟨m₂, ⟨m₁, ⟨word, flagged, flags⟩, id⟩, sender⟩, peer⟩, date⟩,
    text⟩, entities⟩, views⟩ := reads
  have inOrder : message.inner level =
      [] ++ ([] ++ (optionalOutline message.sender (Peer.outline (level + 1)) ++
        (message.peer.outline (level + 1) ++ ([] ++ (textOutline message.text ++
          (optionalOutline message.entities (vectorOutline · (Entity.outline (level + 1))) ++
            (optionalOutline message.views (fun _ => []) ++ []))))))) := by
    cases message.views <;> simp [Message.inner, optionalOutline]
  rw [inOrder]
  unfold Message.decoder
  refine (Meets.of_ok (exec_uint32_ok_iff.mpr flags)).bind ?_
  refine (Meets.of_ok (exec_int32_ok_iff.mpr id)).bind ?_
  refine (field_meets (peer_meets h) flagged.sender sender).bind ?_
  refine (peer_meets h _ _ _ peer).bind ?_
  refine (Meets.of_ok (exec_int32_ok_iff.mpr date)).bind ?_
  refine (text_meets text).bind ?_
  refine (field_meets (fun _ _ _ => Meets.vector (entity_meets h)) flagged.entities entities).bind ?_
  refine (field_meets (fun _ _ _ reads => Meets.of_ok (exec_int32_ok_iff.mpr reads)) flagged.views
    views).bind (Meets.of_ok ?_)
  have out : Flag.out.isSet word = message.out := by
    rw [Flag.isSet_eq_testBit]
    exact flagged.out
  have silent : Flag.silent.isSet word = message.silent := by
    rw [Flag.isSet_eq_testBit]
    exact flagged.silent
  rw [out, silent]
  rfl

theorem emptyMessage_meets (h : MeetsObjects scope (level + 1)) {message : EmptyMessage}
    (reads : p.Reads message.fields q) :
    Meets scope.limits (message.inner level) message q (EmptyMessage.decoder.exec scope p) := by
  simp only [EmptyMessage.fields, EmptyMessage.flagSpellings, Progress.reads_mul_iff,
    Progress.reads_flags_iff] at reads
  obtain ⟨m₂, ⟨m₁, ⟨word, hasPeer, flags⟩, id⟩, peer⟩ := reads
  have inOrder : message.inner level =
      [] ++ ([] ++ (optionalOutline message.peer (Peer.outline (level + 1)) ++ [])) := by
    simp [EmptyMessage.inner]
  rw [inOrder]
  unfold EmptyMessage.decoder
  refine (Meets.of_ok (exec_uint32_ok_iff.mpr flags)).bind ?_
  refine (Meets.of_ok (exec_int32_ok_iff.mpr id)).bind ?_
  exact (field_meets (peer_meets h) hasPeer peer).bind (Meets.of_ok rfl)

theorem body_meets (accepts : AcceptsObjects scope (level + 1))
    (h : MeetsObjects scope (level + 1)) {o : Object} (reads : p.Reads o.fields q) :
    Meets scope.limits (o.inner level) o q (o.layout.body.exec scope p) := by
  cases o with
  | peer peer =>
    have within : ∀ mark ∈ (Object.peer peer).inner level, mark.Within scope.limits := by
      simp [Object.inner]
    exact Meets.of_within within (body_complete accepts within reads)
  | entity entity =>
    have within : ∀ mark ∈ (Object.entity entity).inner level, mark.Within scope.limits :=
      within_format _ _
    exact Meets.of_within within (body_complete accepts within reads)
  | message message =>
    cases message with
    | full message => exact (message_meets h reads).bind_pure
    | empty message => exact (emptyMessage_meets h reads).bind_pure
  | page messages => exact (Meets.vector (anyMessage_meets h) reads).bind_pure

/-! ## Whole objects -/

theorem Layout.constructor_mem (layout : Layout) : layout.constructor ∈ registry.constructors :=
  List.mem_map_of_mem (mem_all layout)

theorem object_meets {limits : Limits} {room : Nat} (sum : level + room = limits.maxDepth + 1)
    {o : Object} (reads : p.Reads o.spellings q) :
    Meets limits (o.outline level) (o.layout.id, o) q (registry.object limits room p) := by
  induction room generalizing level o p q with
  | zero =>
    obtain ⟨m, tag, -⟩ := Progress.reads_mul_iff.mp reads
    have first : (o.outline level).findSome? (Mark.breach limits) =
        some (.tooDeep limits.maxDepth) := by
      have deep : ¬ level ≤ limits.maxDepth := by omega
      simp [Object.outline, Mark.breach, deep]
    -- The level is judged before anything in the object is.
    unfold Meets
    rw [first]
    exact Registry.object_zero_meets o.layout.constructor_mem tag
  | succ room ih =>
    have deeper : level + 1 + room = limits.maxDepth + 1 := by omega
    let scope : Scope Object := ⟨limits, registry.labels, registry.object limits room⟩
    have accepts : AcceptsObjects scope (level + 1) := fun _ _ _ _ => object_ok_iff deeper
    have meets : MeetsObjects scope (level + 1) := fun _ _ _ reads => ih deeper reads
    obtain ⟨m, tag, fields⟩ := Progress.reads_mul_iff.mp reads
    obtain ⟨inside, inner, rfl⟩ := Progress.reads_leave_iff.mpr fields
    have body := Registry.object_succ_meets o.layout.constructor_mem tag
      (body_meets accepts meets inner)
    have first : Mark.breach limits (.object level) = none :=
      Mark.breach_eq_none_iff.mpr (show level ≤ limits.maxDepth by omega)
    unfold Meets at body ⊢
    rwa [Object.outline, List.findSome?_cons, first]

/-- An encoded object that breaks a limit is refused with the fault of the first mark that breaks
one. -/
theorem decode_first_breach (limits : Limits) (o : Object) (bytes : ByteArray)
    (h : encode o = .ok bytes) (broken : ¬ o.Within limits) :
    ∃ before mark after fault, o.outline 0 = before ++ mark :: after ∧
      (∀ earlier ∈ before, earlier.Within limits) ∧ mark.breach limits = some fault ∧
        decode bytes limits = .error fault := by
  cases found : (o.outline 0).findSome? (Mark.breach limits) with
  | none => exact absurd (findSome?_breach_eq_none_iff.mp found) broken
  | some fault =>
    obtain ⟨before, mark, after, walk, breach, earlier⟩ := List.findSome?_eq_some_iff.mp found
    refine ⟨before, mark, after, fault, walk, ?_, breach, ?_⟩
    · intro mark mem
      exact Mark.breach_eq_none_iff.mp (earlier mark mem)
    have reads := reads_encoding h .empty .empty 0
    rw [ByteArray.append_empty, ← Cursor.start_eq_between] at reads
    have top : 0 + Reader.room ({ registry, limits } : Reader Object) = limits.maxDepth + 1 :=
      Nat.zero_add _
    have labelled : Meets limits (o.outline 0) (o.layout.id, o) _
        ((labelled : Decoder Object (UInt32 × Object)).exec (Reader.scope { registry, limits }) _) :=
      object_meets top reads
    rw [decode, Reader.decode, Reader.run, Decoder.object, map_eq_pure_bind]
    exact labelled.bind_pure.error_of_breach found

/-- A page of one message. Its sender lies two levels down, and two entities come later. -/
def crowdedPage : Object :=
  .page #[.full {
    out := false
    silent := false
    id := 1
    sender := some (.user 5)
    peer := .group 7
    date := 0
    text := "hi"
    entities := some #[⟨0, 1, .plain .bold⟩, ⟨1, 1, .plain .code⟩]
    views := none }]

theorem decode_crowdedPage :
    ∃ bytes, encode crowdedPage = .ok bytes ∧
      decode bytes ⟨1, 1⟩ = .error (.tooDeep 1) ∧
      decode bytes ⟨2, 1⟩ = .error (.vectorTooLong 2 1) := by
  obtain ⟨pieces, -, -, written⟩ := encode_of_writable (o := crowdedPage) (by decide)
  have stops (limits : Limits) (fault : Fault) (broken : ¬ crowdedPage.Within limits)
      (first : (crowdedPage.outline 0).findSome? (Mark.breach limits) = some fault) :
      decode (wire pieces).toByteArray limits = .error fault := by
    obtain ⟨before, mark, after, fault', walk, earlier, breach, stops⟩ :=
      decode_first_breach limits crowdedPage _ written broken
    have first' : (crowdedPage.outline 0).findSome? (Mark.breach limits) = some fault' :=
      List.findSome?_eq_some_iff.mpr ⟨before, mark, after, walk, breach,
        fun mark mem => Mark.breach_eq_none_iff.mpr (earlier mark mem)⟩
    rwa [Option.some.inj (first.symm.trans first')]
  refine ⟨_, written, stops ⟨1, 1⟩ _ (by decide) ?_, stops ⟨2, 1⟩ _ (by decide) ?_⟩
  · decide
  · decide

end TaggedWire.Chat
