import TaggedWire.Proofs.Nesting

/-!
# Why a read stopped

A fault names facts: how many bytes were missing, which identifier stood there, which limit was
passed. They are true of the place where the cursor stopped. As they speak of what lies behind this
place or is left from it on, a fault that travels outwards stays true.
-/

namespace TaggedWire

variable {V T α β : Type}

/-- What can stop a read. -/
inductive Cause where
  | shortage
  | unknown
  /-- A registered object lies too deep. -/
  | depth
  | sign
  | length
  /-- There is no vector where one has to be. -/
  | noVector
  /-- An object is none of the type that its field has. -/
  | otherType
  | noText
  deriving DecidableEq, Repr

/--
The fault at this cursor has this cause, and what it says is so. Which forms are objects that a type
refuses, with the identifier that they begin with, is told by `Refused`.
-/
inductive Cause.Explains (registry : Registry V) (limits : Limits)
    (Refused : String → UInt32 → List UInt8 → Prop) (c : Cursor) : Cause → Fault → Prop where
  | shortage {needed : Nat} (short : c.remaining < needed) :
      Explains registry limits Refused c .shortage (.underrun needed c.remaining)
  | unknown {id : UInt32} (behind : wire [.word32 id] <:+ c.passed) (free : id ∉ registry.ids) :
      Explains registry limits Refused c .unknown (.unknownConstructor id)
  | depth {id : UInt32} (behind : wire [.word32 id] <:+ c.passed) (taken : id ∈ registry.ids) :
      Explains registry limits Refused c .depth (.tooDeep limits.maxDepth)
  | sign {count : Int32}
      (behind : wire [.word32 Tag.vector, .word32 count.toUInt32] <:+ c.passed)
      (negative : count < 0) :
      Explains registry limits Refused c .sign (.negativeCount count)
  | length {size : Nat}
      (behind : wire [.word32 Tag.vector, .word32 (UInt32.ofNat size)] <:+ c.passed)
      (long : limits.maxVectorSize < size) (fits : size ≤ 0x7fffffff) :
      Explains registry limits Refused c .length (.vectorTooLong size limits.maxVectorSize)
  | noVector {found : UInt32} (behind : wire [.word32 found] <:+ c.passed)
      (other : found ≠ Tag.vector) :
      Explains registry limits Refused c .noVector (.unexpectedConstructor "Vector" found)
  | otherType {expected : String} {found : UInt32} {form : List UInt8} (behind : form <:+ c.passed)
      (refused : Refused expected found form) :
      Explains registry limits Refused c .otherType (.unexpectedConstructor expected found)
  | noText {record : Record} {flaw : Utf8.Flaw} (behind : record.bytes <:+ c.passed)
      (invalid : String.fromUTF8? record.payload.toByteArray = none)
      (first : flaw = Utf8.firstFlaw record.payload) :
      Explains registry limits Refused c .noText (.malformedText flaw)

variable {registry : Registry V} {limits : Limits} {Refused : String → UInt32 → List UInt8 → Prop}

/-- A fault has one cause at most, if no type is called like the vectors. -/
theorem Cause.Explains.unique (distinct : ∀ found form, ¬ Refused "Vector" found form) {c : Cursor}
    {cause cause' : Cause} {e : Fault} (h : cause.Explains registry limits Refused c e)
    (h' : cause'.Explains registry limits Refused c e) : cause = cause' := by
  cases h <;> cases h'
  case noVector.otherType refused => exact absurd refused (distinct _ _)
  case otherType.noVector refused _ _ => exact absurd refused (distinct _ _)
  all_goals rfl

/-! ## What lies behind -/

theorem Progress.Passes.behind {p q : Progress} {form : List UInt8} (h : p.Passes form q) :
    form <:+ q.cursor.passed :=
  ⟨p.cursor.passed, h.passed.symm⟩

theorem Progress.Reads.behind {p q : Progress} {spellings : Language Piece}
    (h : p.Reads spellings q) : ∃ pieces ∈ spellings, wire pieces <:+ q.cursor.passed := by
  obtain ⟨pieces, mem, passed⟩ := h
  exact ⟨pieces, mem, passed.behind⟩

theorem Progress.take_error {p q : Progress} {count : Nat} {e : Fault}
    (run : p.take count = (.error e, q)) :
    ∃ cause : Cause, cause.Explains registry limits Refused q.cursor e := by
  obtain ⟨short, rfl, rfl⟩ := take_error_iff.mp run
  exact ⟨.shortage, .shortage short⟩

theorem andThen_error_iff {run : Except Fault α × Progress}
    {next : α → Progress → Except Fault β × Progress} {e : Fault} {q : Progress} :
    andThen run next = (.error e, q) ↔
      run = (.error e, q) ∨ ∃ a m, run = (.ok a, m) ∧ next a m = (.error e, q) := by
  obtain ⟨e' | a, m⟩ := run <;> simp [andThen]

theorem Decoder.exec_bind_error_iff {scope : Scope V} {d : Decoder V α} {f : α → Decoder V β}
    {p q : Progress} {e : Fault} :
    (d >>= f).exec scope p = (.error e, q) ↔
      d.exec scope p = (.error e, q) ∨
        ∃ a m, d.exec scope p = (.ok a, m) ∧ (f a).exec scope m = (.error e, q) := by
  rw [exec_bind_eq_andThen, andThen_error_iff]

namespace Decoder

variable {scope : Scope V}

/-- Every fault of the decoder is explained where it stops. -/
def Explained (registry : Registry V) (Refused : String → UInt32 → List UInt8 → Prop)
    (scope : Scope V) (d : Decoder V α) : Prop :=
  ∀ p e q, d.exec scope p = (.error e, q) →
    ∃ cause : Cause, cause.Explains registry scope.limits Refused q.cursor e

/-! ## Sequences -/

theorem explained_pure (a : α) : (pure a : Decoder V α).Explained registry Refused scope := by
  intro p e q run
  cases run

theorem Explained.bind {d : Decoder V α} {f : α → Decoder V β}
    (h : d.Explained registry Refused scope) (hf : ∀ a, (f a).Explained registry Refused scope) :
    (d >>= f).Explained registry Refused scope := by
  intro p e q run
  rw [exec_bind_error_iff] at run
  obtain first | ⟨a, m, -, second⟩ := run
  · exact h p e q first
  · exact hf a m e q second

/-! ## Single values -/

theorem explained_take (count : Nat) :
    (take count : Decoder V ByteArray).Explained registry Refused scope :=
  fun _ _ _ => Progress.take_error

theorem explained_uint32 : (uint32 : Decoder V UInt32).Explained registry Refused scope :=
  (explained_take 4).bind fun _ => explained_pure _

theorem explained_uint64 : (uint64 : Decoder V UInt64).Explained registry Refused scope :=
  (explained_take 8).bind fun _ => explained_pure _

theorem explained_recordHeader :
    (recordHeader : Decoder V (Nat × Nat)).Explained registry Refused scope := by
  refine ((explained_take 1).bind fun _ => explained_pure _).bind fun first => ?_
  split
  · exact (explained_take 3).bind fun _ => explained_pure _
  · exact explained_pure _

theorem explained_bytes : (bytes : Decoder V ByteArray).Explained registry Refused scope := by
  refine explained_recordHeader.bind fun ⟨size, padding⟩ => ?_
  refine (explained_take size).bind fun payload => ?_
  dsimp only
  split
  · exact (explained_take padding).bind fun _ => explained_pure _
  · exact explained_pure _

theorem explained_text : (text : Decoder V String).Explained registry Refused scope := by
  intro p e q run
  unfold text at run
  rw [exec_bind_error_iff] at run
  obtain first | ⟨payload, m, first, second⟩ := run
  · exact explained_bytes p e q first
  -- The whole record is behind when its payload is judged.
  · obtain ⟨record, same, passed⟩ := Progress.reads_record_iff.mp (exec_bytes_ok_iff.mp first)
    have whole : record.payload.toByteArray = payload := toByteArray_eq_iff.mpr same
    split at second
    next => cases second
    next invalid =>
      cases second
      exact ⟨.noText, .noText passed.behind (by rw [whole, invalid]) (by rw [same])⟩

/-! ## Declared objects and vectors -/

theorem explained_typed {kind : Kind V T}
    (object : ∀ p e q, scope.object p = (.error e, q) →
      ∃ cause : Cause, cause.Explains registry scope.limits Refused q.cursor e)
    (refused : ∀ p id value q, scope.object p = (.ok (id, value), q) → kind.narrow? value = none →
      ∃ form, form <:+ q.cursor.passed ∧ Refused kind.name id form) :
    (typed kind).Explained registry Refused scope := by
  intro p e q run
  unfold typed at run
  rw [exec_bind_error_iff] at run
  obtain first | ⟨⟨id, value⟩, m, first, second⟩ := run
  · exact object p e q first
  · dsimp only at second
    split at second
    next => cases second
    next other =>
      cases second
      obtain ⟨form, behind, refused⟩ := refused p id value _ first other
      exact ⟨.otherType, .otherType behind refused⟩

theorem explained_vectorCount :
    (vectorCount : Decoder V Nat).Explained registry Refused scope := by
  intro p e q run
  unfold vectorCount at run
  rw [exec_bind_error_iff] at run
  obtain first | ⟨id, m, first, run⟩ := run
  · exact explained_uint32 p e q first
  rw [exec_uint32_ok_iff] at first
  by_cases other : id ≠ Tag.vector
  · rw [if_pos other] at run
    cases run
    exact ⟨.noVector, .noVector (Progress.reads_singleton_iff.mp first).behind other⟩
  rw [if_neg other] at run
  obtain rfl := not_not.mp other
  rw [exec_bind_error_iff] at run
  obtain second | ⟨count, m', second, run⟩ := run
  · exact (explained_uint32.bind fun _ => explained_pure _) m e q second
  rw [exec_int32_ok_iff] at second
  have behind : wire [.word32 Tag.vector, .word32 count.toUInt32] <:+ m'.cursor.passed :=
    (Progress.reads_singleton_iff.mp (Progress.reads_cons_iff.mpr ⟨m, first, second⟩)).behind
  by_cases negative : count < 0
  · rw [if_pos negative] at run
    cases run
    exact ⟨.sign, .sign behind negative⟩
  rw [if_neg negative] at run
  dsimp only at run
  rw [exec_look_bind] at run
  dsimp only at run
  obtain ⟨fits, word⟩ := count_iff.mp ⟨negative, rfl⟩
  by_cases long : scope.limits.maxVectorSize < count.toNatClampNeg
  · rw [if_pos long] at run
    cases run
    rw [word] at behind
    exact ⟨.length, .length behind long (Nat.le_of_lt_succ fits)⟩
  · rw [if_neg long] at run
    cases run

theorem Explained.vector {element : Decoder V α} (h : element.Explained registry Refused scope) :
    (vector element).Explained registry Refused scope := by
  have elements (count : Nat) (items : Array α) :
      (elements element count items).Explained registry Refused scope := by
    induction count generalizing items with
    | zero => exact explained_pure items
    | succ count ih =>
      rw [elements_succ]
      exact h.bind fun item => ih (items.push item)
  refine explained_vectorCount.bind fun count => ?_
  intro p e q run
  rw [exec_look_bind] at run
  exact elements _ _ p e q run

end Decoder

/-! ## Objects -/

namespace Registry

variable {p q : Progress} {e : Fault}

theorem find?_eq_none_iff {id : UInt32} : registry.find? id = none ↔ id ∉ registry.ids := by
  simp [find?, ids]

theorem dispatch_error (run : registry.dispatch p = (.error e, q)) :
    ∃ cause : Cause, cause.Explains registry limits Refused q.cursor e := by
  rw [dispatch_eq_andThen, andThen_error_iff] at run
  obtain short | ⟨raw, m, taken, found⟩ := run
  · exact Progress.take_error short
  · split at found
    next => cases found
    next none =>
      cases found
      have reads := Decoder.take_word32_iff.mp ⟨raw, taken, rfl⟩
      exact ⟨.unknown, .unknown (Progress.reads_singleton_iff.mp reads).behind
        (find?_eq_none_iff.mp none)⟩

theorem object_zero_error (run : registry.object limits 0 p = (.error e, q)) :
    ∃ cause : Cause, cause.Explains registry limits Refused q.cursor e := by
  rw [object_zero_eq_andThen, andThen_error_iff] at run
  obtain unknown | ⟨constructor, m, found, deep⟩ := run
  · exact dispatch_error unknown
  -- The identifier was looked up before the room was looked at, so it is known.
  · cases deep
    obtain ⟨mem, reads⟩ := dispatch_ok_iff.mp found
    exact ⟨.depth, .depth (Progress.reads_singleton_iff.mp reads).behind (List.mem_map_of_mem mem)⟩

/-- A fault of a body stays true one level up, as only the depth changes on the way. -/
theorem object_succ_error {room : Nat}
    (bodies : ∀ constructor ∈ registry.constructors,
      constructor.body.Explained registry Refused
        ⟨limits, registry.labels, registry.object limits room⟩)
    (run : registry.object limits (room + 1) p = (.error e, q)) :
    ∃ cause : Cause, cause.Explains registry limits Refused q.cursor e := by
  rw [object_succ_eq_andThen, andThen_error_iff] at run
  obtain unknown | ⟨constructor, m, found, inside⟩ := run
  · exact dispatch_error unknown
  · have body := bodies constructor (dispatch_ok_iff.mp found).1 m.enter
    dsimp only at inside
    generalize constructor.body.exec _ m.enter = run at inside body
    obtain ⟨_ | value, inner⟩ := run
    · cases inside
      exact body _ inner rfl
    · cases inside

end Registry

end TaggedWire
