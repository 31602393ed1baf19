import TaggedWire.Reader

/-!
# Past which bytes a read goes

A read that succeeds leaves some bytes behind and nothing else changes. `Passes` names these bytes,
and what a sequence passes is what its parts pass, one after the other.
-/

namespace TaggedWire

variable {V α β : Type}

def Cursor.passed (c : Cursor) : List UInt8 :=
  c.buffer.data.toList.take c.position

theorem toByteArray_eq_iff {form : List UInt8} {bytes : ByteArray} :
    form.toByteArray = bytes ↔ form = bytes.data.toList := by
  rw [ByteArray.ext_iff, ← Array.toList_inj, List.data_toByteArray]

theorem Cursor.passed_append_rest (c : Cursor) : c.passed ++ c.rest = c.buffer.data.toList :=
  List.take_append_drop _ _

namespace Progress

/-- `q` lies right behind the bytes of `form`. -/
structure Passes (p : Progress) (form : List UInt8) (q : Progress) : Prop where
  rest : p.cursor.rest = form ++ q.cursor.rest
  buffer : q.cursor.buffer = p.cursor.buffer
  depth : q.depth = p.depth

theorem Passes.position {p q : Progress} {form : List UInt8} (h : p.Passes form q) :
    q.cursor.position = p.cursor.position + form.length := by
  have lengths := congrArg List.length h.rest
  have hp := p.cursor.position_add_remaining
  have hq := q.cursor.position_add_remaining
  rw [List.length_append, Cursor.length_rest, Cursor.length_rest] at lengths
  rw [h.buffer] at hq
  omega

theorem Passes.passed {p q : Progress} {form : List UInt8} (h : p.Passes form q) :
    q.cursor.passed = p.cursor.passed ++ form := by
  have whole : q.cursor.passed ++ q.cursor.rest = p.cursor.passed ++ p.cursor.rest := by
    rw [Cursor.passed_append_rest, Cursor.passed_append_rest, h.buffer]
  rw [h.rest, ← List.append_assoc] at whole
  exact List.append_cancel_right whole

theorem Passes.eq_front {buffer : ByteArray} {depth : Nat} {form : List UInt8} {q : Progress}
    (h : Passes ⟨.start buffer, depth⟩ form q) :
    form = (buffer.extract 0 q.cursor.position).data.toList := by
  have behind : q.cursor.passed = form := h.passed
  have whole : q.cursor.buffer = buffer := h.buffer
  rw [ByteArray.data_extract, Array.toList_extract, List.extract_eq_take_drop, Nat.sub_zero,
    List.drop_zero, ← behind, Cursor.passed, whole]

theorem eq_of_position {p q : Progress} (buffer : p.cursor.buffer = q.cursor.buffer)
    (position : p.cursor.position = q.cursor.position) (depth : p.depth = q.depth) : p = q := by
  obtain ⟨⟨_, _, _⟩, _⟩ := p
  obtain ⟨⟨_, _, _⟩, _⟩ := q
  simp only at buffer position depth
  subst buffer position depth
  rfl

theorem Passes.unique {p q r : Progress} {form : List UInt8} (hq : p.Passes form q)
    (hr : p.Passes form r) : q = r :=
  eq_of_position (hq.buffer.trans hr.buffer.symm) (hq.position.trans hr.position.symm)
    (hq.depth.trans hr.depth.symm)

theorem passes_nil_iff {p q : Progress} : p.Passes [] q ↔ p = q := by
  constructor
  · intro h
    exact eq_of_position h.buffer.symm h.position.symm h.depth.symm
  · rintro rfl
    exact ⟨rfl, rfl, rfl⟩

theorem exists_passes {p : Progress} {form more : List UInt8} (h : p.cursor.rest = form ++ more) :
    ∃ q, p.Passes form q ∧ q.cursor.rest = more := by
  have fits : form.length ≤ p.cursor.remaining := by
    rw [← Cursor.length_rest, h, List.length_append]
    omega
  have behind : (p.cursor.advance form.length fits).rest = more := by
    rw [Cursor.rest_advance, h, List.drop_left]
  exact ⟨{ p with cursor := p.cursor.advance form.length fits }, ⟨by rw [h, behind], rfl, rfl⟩,
    behind⟩

theorem passes_append_iff {p q : Progress} {first second : List UInt8} :
    p.Passes (first ++ second) q ↔ ∃ m, p.Passes first m ∧ m.Passes second q := by
  constructor
  · intro h
    obtain ⟨m, hm, rest⟩ := exists_passes (h.rest.trans (List.append_assoc _ _ _))
    exact ⟨m, hm, rest, h.buffer.trans hm.buffer.symm, h.depth.trans hm.depth.symm⟩
  · rintro ⟨m, hm, hq⟩
    exact ⟨by rw [hm.rest, hq.rest, List.append_assoc], hq.buffer.trans hm.buffer,
      hq.depth.trans hm.depth⟩

theorem passes_cons_iff {p q : Progress} {b : UInt8} {form : List UInt8} :
    p.Passes (b :: form) q ↔ ∃ m, p.Passes [b] m ∧ m.Passes form q := by
  rw [← List.singleton_append, passes_append_iff]

theorem passes_leave_iff {p q : Progress} {form : List UInt8} :
    (∃ inside, p.enter.Passes form inside ∧ inside.leave = q) ↔ p.Passes form q := by
  constructor
  · rintro ⟨inside, h, rfl⟩
    refine ⟨h.rest, h.buffer, ?_⟩
    simp [leave, h.depth, enter]
  · intro h
    refine ⟨q.enter, ⟨h.rest, h.buffer, ?_⟩, ?_⟩
    · simp [enter, h.depth]
    · simp [leave, enter]

theorem take_of_le {p : Progress} {count : Nat} (fits : count ≤ p.cursor.remaining) :
    p.take count =
      (.ok (p.cursor.buffer.extract p.cursor.position (p.cursor.position + count)),
        { p with cursor := p.cursor.advance count fits }) := by
  rw [take, Cursor.take, dif_pos fits]

theorem take_of_lt {p : Progress} {count : Nat} (short : p.cursor.remaining < count) :
    p.take count = (.error (.underrun count p.cursor.remaining), p) := by
  rw [take, Cursor.take, dif_neg (Nat.not_le_of_lt short)]

theorem take_error_iff {p q : Progress} {count : Nat} {e : Fault} :
    p.take count = (.error e, q) ↔
      p.cursor.remaining < count ∧ e = .underrun count p.cursor.remaining ∧ q = p := by
  rcases Nat.lt_or_ge p.cursor.remaining count with short | fits
  · rw [take_of_lt short]
    simp [short, eq_comm]
  · rw [take_of_le fits]
    simp [Nat.not_lt_of_le fits]

theorem take_ok_iff {p q : Progress} {count : Nat} {bytes : ByteArray} :
    p.take count = (.ok bytes, q) ↔ bytes.size = count ∧ p.Passes bytes.data.toList q := by
  rcases Nat.lt_or_ge p.cursor.remaining count with short | fits
  · rw [take_of_lt short]
    constructor
    · intro h
      cases h
    · rintro ⟨size, h⟩
      have lengths := congrArg List.length h.rest
      rw [List.length_append, Cursor.length_rest, Array.length_toList, ByteArray.size_data,
        size] at lengths
      omega
  · have passed : p.Passes (p.cursor.rest.take count)
        { p with cursor := p.cursor.advance count fits } :=
      ⟨by rw [Cursor.rest_advance, List.take_append_drop], rfl, rfl⟩
    rw [take_of_le fits, Prod.mk.injEq, Except.ok.injEq]
    constructor
    · rintro ⟨rfl, rfl⟩
      rw [Cursor.toList_extract]
      refine ⟨?_, passed⟩
      have := p.cursor.position_add_remaining
      rw [ByteArray.size_extract]
      omega
    · rintro ⟨size, h⟩
      have front : p.cursor.rest.take count = bytes.data.toList := by
        rw [h.rest, List.take_left' (by simpa using size)]
      refine ⟨?_, ?_⟩
      · apply ByteArray.ext
        apply Array.toList_inj.mp
        rw [Cursor.toList_extract, front]
      · rw [front] at passed
        exact passed.unique h

end Progress

/-! ## Between two buffers -/

/-- The cursor with one buffer behind it and the other one ahead. -/
def Cursor.between (behind ahead : ByteArray) : Cursor :=
  ⟨behind ++ ahead, behind.size, by rw [ByteArray.size_append]; omega⟩

theorem Cursor.rest_between (behind ahead : ByteArray) :
    (between behind ahead).rest = ahead.data.toList := by
  have front : behind.size = behind.data.toList.length := by simp
  simp only [between, rest, ByteArray.data_append, Array.toList_append]
  rw [front, List.drop_left]

theorem Cursor.start_eq_between (buffer : ByteArray) : start buffer = between .empty buffer := by
  simp only [start, between, ByteArray.empty_append, ByteArray.size_empty]

theorem Progress.passes_between (behind passed ahead : ByteArray) (depth : Nat) :
    Progress.Passes ⟨.between behind (passed ++ ahead), depth⟩ passed.data.toList
      ⟨.between (behind ++ passed) ahead, depth⟩ where
  rest := by simp [Cursor.rest_between]
  buffer := ByteArray.append_assoc
  depth := rfl

/-! ## One run after the other -/

/-- Goes on with the value of a run from where it stopped. A fault ends the whole. -/
def andThen (run : Except Fault α × Progress)
    (next : α → Progress → Except Fault β × Progress) : Except Fault β × Progress :=
  match run with
  | (.ok a, q) => next a q
  | (.error e, q) => (.error e, q)

theorem andThen_ok_iff {run : Except Fault α × Progress}
    {next : α → Progress → Except Fault β × Progress} {b : β} {q : Progress} :
    andThen run next = (.ok b, q) ↔ ∃ a m, run = (.ok a, m) ∧ next a m = (.ok b, q) := by
  obtain ⟨e | a, m⟩ := run
  · constructor
    · intro h
      cases h
    · rintro ⟨_, _, first, _⟩
      cases first
  · constructor
    · intro h
      exact ⟨a, m, rfl, h⟩
    · rintro ⟨_, _, first, second⟩
      cases first
      exact second

theorem andThen_congr {run : Except Fault α × Progress}
    {next next' : α → Progress → Except Fault β × Progress}
    (same : ∀ a q, run = (.ok a, q) → next a q = next' a q) :
    andThen run next = andThen run next' := by
  obtain ⟨e | a, q⟩ := run
  · rfl
  · exact same a q rfl

theorem andThen_answer {scope : Scope V} {run : Except Fault α × Progress}
    {next : Except Fault α → Decoder V β} (ends : ∀ e, next (.error e) = throw e) :
    (next run.1).exec scope run.2 = andThen run fun a q => (next (.ok a)).exec scope q := by
  obtain ⟨e | a, q⟩ := run
  · rw [ends, Decoder.exec_throw]
    rfl
  · rfl

/-! ## Decoders that succeed -/

namespace Decoder

variable {scope : Scope V} {p q : Progress}

@[simp] theorem exec_pure_ok_iff {a b : α} :
    (pure a : Decoder V α).exec scope p = (.ok b, q) ↔ a = b ∧ p = q := by
  simp

@[simp] theorem exec_throw_ne_ok {e : Fault} {a : α} :
    (throw e : Decoder V α).exec scope p ≠ (.ok a, q) := by
  simp

theorem exec_bind_eq_andThen (d : Decoder V α) (f : α → Decoder V β) :
    (d >>= f).exec scope p = andThen (d.exec scope p) fun a q => (f a).exec scope q :=
  exec_bind scope d f p

theorem exec_bind_ok_iff {d : Decoder V α} {f : α → Decoder V β} {b : β} :
    (d >>= f).exec scope p = (.ok b, q) ↔
      ∃ a m, d.exec scope p = (.ok a, m) ∧ (f a).exec scope m = (.ok b, q) := by
  rw [exec_bind_eq_andThen, andThen_ok_iff]

theorem exec_map_ok_iff {d : Decoder V α} {f : α → β} {b : β} :
    (f <$> d).exec scope p = (.ok b, q) ↔ ∃ a, d.exec scope p = (.ok a, q) ∧ f a = b := by
  rw [map_eq_pure_bind, exec_bind_ok_iff]
  constructor
  · rintro ⟨a, m, first, second⟩
    obtain ⟨rfl, rfl⟩ := exec_pure_ok_iff.mp second
    exact ⟨a, first, rfl⟩
  · rintro ⟨a, first, rfl⟩
    exact ⟨a, q, first, rfl⟩

theorem exec_take_ok_iff {count : Nat} {bytes : ByteArray} :
    (take count).exec scope p = (.ok bytes, q) ↔
      bytes.size = count ∧ p.Passes bytes.data.toList q :=
  Progress.take_ok_iff

theorem exec_guard_ok_iff {c : Prop} [Decidable c] {e : Fault} {d : PUnit → Decoder V α} {a : α} :
    (if c then throw e >>= d else d ⟨⟩).exec scope p = (.ok a, q) ↔
      ¬ c ∧ (d ⟨⟩).exec scope p = (.ok a, q) := by
  split
  next refused => simp [refused]
  next passed => simp [passed]

theorem exec_look_bind {f : Surroundings → Decoder V α} :
    (look >>= f).exec scope p =
      (f ⟨p.cursor, p.depth, scope.limits, scope.labels⟩).exec scope p :=
  rfl

end Decoder

/-! ## Readers that succeed -/

theorem Reader.run_eq_of_exec {reader : Reader V} {d : Decoder V α} {c : Cursor} {q : Progress}
    {result : Except Fault α} (h : d.exec reader.scope ⟨c, reader.depth⟩ = (result, q)) :
    reader.run d c = ⟨result, q.cursor, { reader with depth := q.depth }⟩ := by
  rw [run, h]

theorem Reader.run_ok_iff {reader : Reader V} {d : Decoder V α} {c : Cursor} {a : α} {k : Nat} :
    (reader.run d c).result = .ok a ∧ (reader.run d c).cursor.position = k ↔
      ∃ q, d.exec reader.scope ⟨c, reader.depth⟩ = (.ok a, q) ∧ q.cursor.position = k := by
  constructor
  · rintro ⟨result, position⟩
    exact ⟨_, Prod.ext result rfl, position⟩
  · rintro ⟨q, h, position⟩
    rw [run_eq_of_exec h]
    exact ⟨rfl, position⟩

end TaggedWire
