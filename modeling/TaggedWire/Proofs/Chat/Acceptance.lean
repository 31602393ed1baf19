import Mathlib.Data.Nat.Bitwise
import TaggedWire.Chat.Schema
import TaggedWire.Proofs.Chat.Grammar
import TaggedWire.Proofs.Lookup

/-!
# The schema decoder accepts exactly its grammar

A body reads the fields that the grammar gives to its layout, provided that the scope reads nested
objects right. From one level to the next this carries over to whole objects.
-/

namespace TaggedWire.Chat

open Decoder

/-! ## Flags -/

theorem Flag.isSet_eq_testBit (flag : Flag) (word : UInt32) :
    flag.isSet word = word.toNat.testBit flag.bit.toNat := by
  have zero : (word &&& flag.mask != 0) = (word.toNat &&& 2 ^ flag.bit.toNat != 0) := by
    rw [← toNat_mask, ← UInt32.toNat_and, bne, bne, Bool.not_inj_iff, Bool.eq_iff_iff,
      beq_iff_eq, beq_iff_eq, ← UInt32.toNat_inj]
    rfl
  rw [isSet, zero, Nat.and_two_pow]
  cases word.toNat.testBit flag.bit.toNat <;> simp

variable {scope : Scope Object} {level : Nat} {p q : Progress}

theorem exec_field_ok_iff {α : Type} {decoder : Decoder Object α} {allowed : α → Prop}
    {spellings : α → Language Piece} (h : decoder.Accepts scope allowed spellings)
    {flag : Flag} {word : UInt32} {field : Option α} :
    (flag.field word decoder).exec scope p = (.ok field, q) ↔
      word.toNat.testBit flag.bit.toNat = field.isSome ∧ (∀ a ∈ field, allowed a) ∧
        p.Reads (optionalSpellings field spellings) q := by
  unfold Flag.field
  rw [← Flag.isSet_eq_testBit]
  split
  next set =>
    rw [set, exec_map_ok_iff]
    cases field with
    | none => simp
    | some a => simp [h p a q, optionalSpellings]
  next unset =>
    rw [Bool.not_eq_true] at unset
    rw [unset, exec_pure_ok_iff]
    cases field with
    | none => simp [optionalSpellings, Progress.reads_one_iff]
    | some a => simp

/-! ## Declared objects -/

/-- The scope reads objects at a level as the grammar says. -/
def AcceptsObjects (scope : Scope Object) (level : Nat) : Prop :=
  ∀ p id o q, scope.object p = (.ok (id, o), q) ↔
    id = o.layout.id ∧ (∀ mark ∈ o.outline level, mark.Within scope.limits) ∧
      p.Reads o.spellings q

theorem accepts_typed {T : Type} {kind : Kind Object T} (h : AcceptsObjects scope level)
    (object : T → Object) (narrows : ∀ o value, kind.narrow? o = some value ↔ o = object value) :
    (typed kind).Accepts scope
      (fun value => ∀ mark ∈ (object value).outline level, mark.Within scope.limits)
      (fun value => (object value).spellings) := by
  intro p value q
  rw [exec_typed_ok_iff]
  constructor
  · rintro ⟨id, o, first, narrow⟩
    obtain rfl := (narrows o value).mp narrow
    exact ((h p id _ q).mp first).2
  · intro reads
    exact ⟨_, object value, (h p _ _ q).mpr ⟨rfl, reads⟩, (narrows _ value).mpr rfl⟩

theorem accepts_peer (h : AcceptsObjects scope level) :
    (typed Peer.kind).Accepts scope
      (fun peer => ∀ mark ∈ peer.outline level, mark.Within scope.limits) Peer.spellings :=
  accepts_typed h Object.peer (by intro o value; cases o <;> simp [Peer.kind])

theorem accepts_entity (h : AcceptsObjects scope level) :
    (typed Entity.kind).Accepts scope
      (fun entity => ∀ mark ∈ entity.outline level, mark.Within scope.limits) Entity.spellings :=
  accepts_typed h Object.entity (by intro o value; cases o <;> simp [Entity.kind])

theorem accepts_anyMessage (h : AcceptsObjects scope level) :
    (typed AnyMessage.kind).Accepts scope
      (fun message => ∀ mark ∈ message.outline level, mark.Within scope.limits)
      AnyMessage.spellings :=
  accepts_typed h Object.message (by intro o value; cases o <;> simp [AnyMessage.kind])

/-! ## Bodies -/

theorem accepts_format {layout : Layout} {format : Decoder Object Format}
    (h : format.Accepts scope (·.layout = layout) Format.fields) :
    (Entity.decoder format).Accepts scope (·.format.layout = layout) Entity.fields := by
  intro p entity q
  simp only [Entity.decoder, exec_bind_ok_iff, exec_int32_ok_iff, exec_pure_ok_iff,
    h _ _ _, Entity.fields, Progress.reads_mul_iff]
  constructor
  · rintro ⟨offset, m₁, hoffset, length, m₂, hlength, format, m₃, ⟨same, hformat⟩, rfl, rfl⟩
    exact ⟨same, m₂, ⟨m₁, hoffset, hlength⟩, hformat⟩
  · rintro ⟨same, m₂, ⟨m₁, hoffset, hlength⟩, hformat⟩
    exact ⟨entity.offset, m₁, hoffset, entity.length, m₂, hlength, entity.format, q,
      ⟨same, hformat⟩, rfl, rfl⟩

theorem accepts_plain {style : Style} :
    (pure (.plain style) : Decoder Object Format).Accepts scope (·.layout = .plain style)
      Format.fields := by
  intro p format q
  rw [exec_pure_ok_iff]
  cases format <;> simp [Format.layout, Format.fields, Progress.reads_one_iff, eq_comm]

theorem accepts_pre :
    (do return .pre (← .text) : Decoder Object Format).Accepts scope (·.layout = .pre)
      Format.fields := by
  intro p format q
  rw [accepts_text.exec_return_ok_iff]
  cases format <;> simp [Format.layout, Format.fields]

theorem accepts_link :
    (do return .link (← .text) : Decoder Object Format).Accepts scope (·.layout = .link)
      Format.fields := by
  intro p format q
  rw [accepts_text.exec_return_ok_iff]
  cases format <;> simp [Format.layout, Format.fields]

theorem accepts_mention :
    (do return .mention (← .int64) : Decoder Object Format).Accepts scope (·.layout = .mention)
      Format.fields := by
  intro p format q
  rw [accepts_int64.exec_return_ok_iff]
  cases format <;> simp [Format.layout, Format.fields]

theorem accepts_message (h : AcceptsObjects scope (level + 1)) :
    Message.decoder.Accepts scope
      (fun message => ∀ mark ∈ message.inner level, mark.Within scope.limits) Message.fields := by
  intro p message q
  have hpeer := accepts_peer h
  have hentities : (typedVector Entity.kind).Accepts _ _ _ := (accepts_entity h).vector
  simp only [Message.decoder, exec_bind_ok_iff, exec_uint32_ok_iff, exec_int32_ok_iff,
    exec_text_ok_iff, exec_pure_ok_iff, hpeer _ _ _, exec_field_ok_iff hpeer,
    exec_field_ok_iff hentities, exec_field_ok_iff accepts_int32, Flag.isSet_eq_testBit,
    Message.fields, Message.flagSpellings, Progress.reads_mul_iff, Progress.reads_flags_iff,
    Message.forall_mem_inner]
  constructor
  · rintro ⟨word, m₁, flags, id, m₂, hid, sender, m₃, ⟨hasSender, senderIn, hsender⟩, peer, m₄,
      ⟨peerIn, hpeer⟩, date, m₅, hdate, text, m₆, htext, entities, m₇,
      ⟨hasEntities, entitiesIn, hentities⟩, views, m₈, ⟨hasViews, -, hviews⟩, rfl, rfl⟩
    exact ⟨⟨senderIn, peerIn, trivial, entitiesIn⟩, m₇, ⟨m₆, ⟨m₅, ⟨m₄, ⟨m₃, ⟨m₂, ⟨m₁,
      ⟨word, ⟨rfl, rfl, hasSender, hasEntities, hasViews⟩, flags⟩, hid⟩, hsender⟩, hpeer⟩, hdate⟩,
      htext⟩, hentities⟩, hviews⟩
  · rintro ⟨⟨senderIn, peerIn, -, entitiesIn⟩, m₇, ⟨m₆, ⟨m₅, ⟨m₄, ⟨m₃, ⟨m₂, ⟨m₁,
      ⟨word, flagged, flags⟩, hid⟩, hsender⟩, hpeer⟩, hdate⟩, htext⟩, hentities⟩, hviews⟩
    refine ⟨word, m₁, flags, message.id, m₂, hid, message.sender, m₃,
      ⟨flagged.sender, senderIn, hsender⟩, message.peer, m₄, ⟨peerIn, hpeer⟩, message.date, m₅,
      hdate, message.text, m₆, htext, message.entities, m₇,
      ⟨flagged.entities, entitiesIn, hentities⟩, message.views, q,
      ⟨flagged.views, fun _ _ => trivial, hviews⟩, ?_, rfl⟩
    have out : word.toNat.testBit Flag.out.bit.toNat = message.out := flagged.out
    have silent : word.toNat.testBit Flag.silent.bit.toNat = message.silent := flagged.silent
    rw [out, silent]

theorem accepts_emptyMessage (h : AcceptsObjects scope (level + 1)) :
    EmptyMessage.decoder.Accepts scope
      (fun message => ∀ mark ∈ message.inner level, mark.Within scope.limits)
      EmptyMessage.fields := by
  intro p message q
  simp only [EmptyMessage.decoder, exec_bind_ok_iff, exec_uint32_ok_iff, exec_int32_ok_iff,
    exec_pure_ok_iff, exec_field_ok_iff (accepts_peer h), EmptyMessage.fields,
    EmptyMessage.flagSpellings, Progress.reads_mul_iff, Progress.reads_flags_iff,
    EmptyMessage.inner, forall_mem_optionalOutline]
  constructor
  · rintro ⟨word, m₁, flags, id, m₂, hid, peer, m₃, ⟨hasPeer, peerIn, hpeer⟩, rfl, rfl⟩
    exact ⟨peerIn, m₂, ⟨m₁, ⟨word, hasPeer, flags⟩, hid⟩, hpeer⟩
  · rintro ⟨peerIn, m₂, ⟨m₁, ⟨word, hasPeer, flags⟩, hid⟩, hpeer⟩
    exact ⟨word, m₁, flags, message.id, m₂, hid, message.peer, q, ⟨hasPeer, peerIn, hpeer⟩, rfl,
      rfl⟩

theorem within_format (limits : Limits) (format : Format) :
    ∀ mark ∈ format.outline, mark.Within limits := by
  cases format <;> simp [Format.outline, textOutline, Mark.Within]

theorem body_sound (h : AcceptsObjects scope (level + 1)) {layout : Layout} {o : Object}
    (run : layout.body.exec scope p = (.ok o, q)) :
    o.layout = layout ∧ (∀ mark ∈ o.inner level, mark.Within scope.limits) ∧
      p.Reads o.fields q := by
  cases layout with
  | user | group | channel =>
    obtain ⟨id, rfl, -, reads⟩ := accepts_int64.exec_return_ok_iff.mp run
    exact ⟨rfl, by simp [Object.inner], reads⟩
  | plain style =>
    obtain ⟨entity, rfl, same, reads⟩ := (accepts_format accepts_plain).exec_return_ok_iff.mp run
    exact ⟨same, within_format _ _, reads⟩
  | pre =>
    obtain ⟨entity, rfl, same, reads⟩ := (accepts_format accepts_pre).exec_return_ok_iff.mp run
    exact ⟨same, within_format _ _, reads⟩
  | link =>
    obtain ⟨entity, rfl, same, reads⟩ := (accepts_format accepts_link).exec_return_ok_iff.mp run
    exact ⟨same, within_format _ _, reads⟩
  | mention =>
    obtain ⟨entity, rfl, same, reads⟩ := (accepts_format accepts_mention).exec_return_ok_iff.mp run
    exact ⟨same, within_format _ _, reads⟩
  | message =>
    obtain ⟨message, rfl, within, reads⟩ := (accepts_message h).exec_return_ok_iff.mp run
    exact ⟨rfl, within, reads⟩
  | emptyMessage =>
    obtain ⟨message, rfl, within, reads⟩ := (accepts_emptyMessage h).exec_return_ok_iff.mp run
    exact ⟨rfl, within, reads⟩
  | page =>
    obtain ⟨messages, rfl, within, reads⟩ := (accepts_anyMessage h).vector.exec_return_ok_iff.mp run
    exact ⟨rfl, forall_mem_vectorOutline.mpr within, reads⟩

theorem body_complete (h : AcceptsObjects scope (level + 1)) {o : Object}
    (within : ∀ mark ∈ o.inner level, mark.Within scope.limits) (reads : p.Reads o.fields q) :
    o.layout.body.exec scope p = (.ok o, q) := by
  cases o with
  | peer peer =>
    cases peer with
    | user id | group id | channel id =>
      exact accepts_int64.exec_return_ok_iff.mpr ⟨id, rfl, trivial, reads⟩
  | entity entity =>
    obtain ⟨offset, length, format⟩ := entity
    cases format with
    | plain style =>
      exact (accepts_format accepts_plain).exec_return_ok_iff.mpr ⟨_, rfl, rfl, reads⟩
    | pre language =>
      exact (accepts_format accepts_pre).exec_return_ok_iff.mpr ⟨_, rfl, rfl, reads⟩
    | link url =>
      exact (accepts_format accepts_link).exec_return_ok_iff.mpr ⟨_, rfl, rfl, reads⟩
    | mention user =>
      exact (accepts_format accepts_mention).exec_return_ok_iff.mpr ⟨_, rfl, rfl, reads⟩
  | message message =>
    cases message with
    | full message =>
      exact (accepts_message h).exec_return_ok_iff.mpr ⟨message, rfl, within, reads⟩
    | empty message =>
      exact (accepts_emptyMessage h).exec_return_ok_iff.mpr ⟨message, rfl, within, reads⟩
  | page messages =>
    exact (accepts_anyMessage h).vector.exec_return_ok_iff.mpr
      ⟨messages, rfl, forall_mem_vectorOutline.mp within, reads⟩

/-! ## Whole objects -/

/-- What is left of the levels and how deep the object lies add up to the limit. -/
theorem object_ok_iff {limits : Limits} {room : Nat} (h : level + room = limits.maxDepth + 1)
    {id : UInt32} {o : Object} :
    registry.object limits room p = (.ok (id, o), q) ↔
      id = o.layout.id ∧ (∀ mark ∈ o.outline level, mark.Within limits) ∧
        p.Reads o.spellings q := by
  induction room generalizing level p q id o with
  | zero =>
    constructor
    · intro run
      rw [Registry.object] at run
      split at run <;> cases run
    · rintro ⟨-, within, -⟩
      have level_le : level ≤ limits.maxDepth := within _ List.mem_cons_self
      omega
  | succ room ih =>
    -- The bodies run with one level less to open, and their objects lie one level deeper.
    have inner : AcceptsObjects ⟨limits, registry.labels, registry.object limits room⟩
        (level + 1) := fun p id o q => ih (by omega)
    have level_le : level ≤ limits.maxDepth := by omega
    simp only [Registry.object_succ_ok_iff, Object.outline, List.forall_mem_cons, Object.spellings,
      Layout.spellings, Progress.reads_mul_iff]
    constructor
    · rintro ⟨_, mem, rfl, m, tag, inside, run, rfl⟩
      obtain ⟨layout, -, rfl⟩ := List.mem_map.mp mem
      obtain ⟨rfl, within, reads⟩ := body_sound inner run
      exact ⟨rfl, ⟨level_le, within⟩, m, tag, Progress.reads_leave_iff.mp ⟨inside, reads, rfl⟩⟩
    · rintro ⟨rfl, ⟨-, within⟩, m, tag, reads⟩
      obtain ⟨inside, reads, left⟩ := Progress.reads_leave_iff.mpr reads
      exact ⟨o.layout.constructor, List.mem_map_of_mem (Layout.mem_all _), rfl, m, tag, inside,
        body_complete inner within reads, left⟩

/-! ## Readers -/

variable {limits : Limits}

theorem exec_object_ok_iff {o : Object} :
    (Decoder.object : Decoder Object Object).exec (Reader.scope { registry, limits }) p =
        (.ok o, q) ↔
      o.Within limits ∧ p.Reads o.spellings q := by
  have top : 0 + Reader.room ({ registry, limits } : Reader Object) = limits.maxDepth + 1 :=
    Nat.zero_add _
  unfold Decoder.object
  rw [exec_map_ok_iff]
  constructor
  · rintro ⟨⟨id, _⟩, run, rfl⟩
    exact ((object_ok_iff top).mp run).2
  · intro reads
    exact ⟨(_, o), (object_ok_iff top).mpr ⟨rfl, reads⟩, rfl⟩

/-- Reading an object gives `o` and stops after `k` bytes just if the limits admit `o` and these
bytes are a wire form of it. -/
theorem read_iff_wireForm (buffer : ByteArray) (limits : Limits) (k : Nat) (o : Object) :
    let outcome := Reader.run { registry, limits } .object (.start buffer)
    outcome.result = .ok o ∧ outcome.cursor.position = k ↔
      o.Within limits ∧ k ≤ buffer.size ∧ o.WireForm (buffer.data.toList.take k) := by
  intro outcome
  let start : Progress := ⟨.start buffer, 0⟩
  have rest : start.cursor.rest = buffer.data.toList := List.drop_zero
  rw [Reader.run_ok_iff]
  constructor
  · rintro ⟨q, run, rfl⟩
    obtain ⟨within, pieces, mem, passed⟩ := exec_object_ok_iff.mp run
    have position := passed.position
    have front := passed.rest
    refine ⟨within, ?_, pieces, mem, ?_⟩
    · have := q.cursor.position_le
      rwa [passed.buffer] at this
    · rw [← rest, front, position]
      simp [Cursor.start]
  · rintro ⟨within, fits, pieces, mem, form⟩
    have ahead : start.cursor.rest = wire pieces ++ buffer.data.toList.drop k := by
      rw [form, rest, List.take_append_drop]
    obtain ⟨q, passed, -⟩ := Progress.exists_passes ahead
    refine ⟨q, exec_object_ok_iff.mpr ⟨within, pieces, mem, passed⟩, ?_⟩
    rw [passed.position, form]
    simp [start, Cursor.start, fits]

end TaggedWire.Chat
