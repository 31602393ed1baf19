import TaggedWire.Proofs.Nesting
import TaggedWire.Proofs.Tree

/-!
# Declared types

An object of a declared type is read like any other, and judged once it was read. In a vector each
object is judged before the next one is read, so a wrong object comes before every later fault.
-/

namespace TaggedWire

variable {V T α β : Type}

/-- The word that comes next. -/
def Cursor.word (c : Cursor) : UInt32 :=
  LittleEndian.word32 (c.buffer.extract c.position (c.position + 4))

theorem Progress.Reads.word_eq {p q : Progress} {word : UInt32}
    (h : p.Reads {[.word32 word]} q) : p.cursor.word = word := by
  obtain ⟨bytes, taken, rfl⟩ := Decoder.take_word32_iff.mpr h
  rcases Nat.lt_or_ge p.cursor.remaining 4 with short | fits
  · rw [Progress.take_of_lt short] at taken
    simp at taken
  · rw [Progress.take_of_le fits] at taken
    simp only [Prod.mk.injEq, Except.ok.injEq] at taken
    rw [Cursor.word, taken.1]

namespace Kind

def refuses (kind : Kind V T) (value : V) : Bool :=
  (kind.narrow? value).isNone

/-- What becomes of a value that was read under an identifier. -/
def judge (kind : Kind V T) (id : UInt32) (value : V) : Except Fault T :=
  match kind.narrow? value with
  | some narrow => .ok narrow
  | none => .error (.unexpectedConstructor kind.name id)

theorem judge_of_refuses {kind : Kind V T} {value : V} (h : kind.refuses value) (id : UInt32) :
    kind.judge id value = .error (.unexpectedConstructor kind.name id) := by
  rw [refuses, Option.isNone_iff_eq_none] at h
  rw [judge, h]

theorem exists_of_not_refuses {kind : Kind V T} {value : V} (h : ¬ kind.refuses value) :
    ∃ narrow, kind.narrow? value = some narrow ∧ ∀ id, kind.judge id value = .ok narrow := by
  rw [refuses, Option.isNone_iff_eq_none] at h
  obtain ⟨narrow, narrows⟩ := Option.ne_none_iff_exists'.mp h
  refine ⟨narrow, narrows, fun id => ?_⟩
  rw [judge, narrows]

theorem map_some_filterMap {kind : Kind V T} {values : List V}
    (h : ∀ value ∈ values, ¬ kind.refuses value) :
    (values.filterMap kind.narrow?).map some = values.map kind.narrow? := by
  induction values with
  | nil => rfl
  | cons value values ih =>
    rw [List.forall_mem_cons] at h
    obtain ⟨narrow, narrows, -⟩ := exists_of_not_refuses h.1
    simp [narrows, ih h.2]

end Kind

/-! ## One object -/

theorem Registry.word_of_object_ok {registry : Registry V} {limits : Limits} {room : Nat}
    {p q : Progress} {id : UInt32} {value : V}
    (h : registry.object limits room p = (.ok (id, value), q)) : id = p.cursor.word := by
  cases room with
  | zero => exact absurd h object_zero_ne_ok
  | succ room =>
    obtain ⟨_, -, -, m, tag, -⟩ := object_succ_ok_iff.mp h
    exact tag.word_eq.symm

namespace Decoder

theorem exec_object (scope : Scope V) (p : Progress) :
    object.exec scope p = ((scope.object p).1.map Prod.snd, (scope.object p).2) := by
  have asked : labelled.exec scope p = scope.object p := rfl
  unfold object
  rw [map_eq_pure_bind, exec_bind, asked]
  obtain ⟨_ | found, q⟩ := scope.object p <;> rfl

theorem exec_typed (kind : Kind V T) (scope : Scope V) (p : Progress) :
    (typed kind).exec scope p =
      ((scope.object p).1.bind fun found => kind.judge found.1 found.2, (scope.object p).2) := by
  have asked : labelled.exec scope p = scope.object p := rfl
  unfold typed
  rw [exec_bind, asked]
  obtain ⟨_ | ⟨id, value⟩, q⟩ := scope.object p
  · rfl
  · cases narrows : kind.narrow? value <;> simp [Except.bind, Kind.judge, narrows]

end Decoder

namespace Reader

theorem run_typed (reader : Reader V) (kind : Kind V T) (c : Cursor) :
    reader.run (.typed kind) c =
      ⟨(reader.run .object c).result.bind (kind.judge c.word), (reader.run .object c).cursor,
        reader⟩ := by
  have depth := reader.reader_run (.typed kind) c
  have object := Decoder.exec_object reader.scope ⟨c, reader.depth⟩
  have typed := Decoder.exec_typed kind reader.scope ⟨c, reader.depth⟩
  rw [run_eq_of_exec typed] at depth ⊢
  rw [run_eq_of_exec object]
  dsimp only at depth ⊢
  rw [depth]
  cases read : (reader.scope.object ⟨c, reader.depth⟩).1 with
  | error e => rfl
  | ok found =>
    have id := Registry.word_of_object_ok (Prod.ext read rfl)
    simp [Except.bind, Except.map, id]

end Reader

/-! ## Objects in a row -/

/-- An object in a buffer, from the cursor at its identifier to the one behind it. -/
structure Found (V : Type) where
  start : Cursor
  value : V
  stop : Cursor

/-- Of `count` objects from a cursor on, these were read to their end. Then either there are no more
to read, or the next one has a fault. The last cursor is where that leaves off. -/
inductive Reader.Row (reader : Reader V) :
    (count : Nat) → Cursor → List (Found V) → (ends : Except Fault Unit) → Cursor → Prop where
  | nil (c : Cursor) : Row reader 0 c [] (.ok ()) c
  | fault {count : Nat} {c last : Cursor} {e : Fault}
      (read : reader.run .object c = ⟨.error e, last, reader⟩) :
      Row reader (count + 1) c [] (.error e) last
  | cons {count : Nat} {c stop last : Cursor} {value : V} {row : List (Found V)}
      {ends : Except Fault Unit} (read : reader.run .object c = ⟨.ok value, stop, reader⟩)
      (more : Row reader count stop row ends last) :
      Row reader (count + 1) c (⟨c, value, stop⟩ :: row) ends last

namespace Reader

variable {reader : Reader V} {count : Nat} {c last : Cursor} {row : List (Found V)}
  {ends : Except Fault Unit}

theorem exists_row (reader : Reader V) (count : Nat) (c : Cursor) :
    ∃ row ends last, reader.Row count c row ends last := by
  induction count generalizing c with
  | zero => exact ⟨[], .ok (), c, .nil c⟩
  | succ count ih =>
    cases result : (reader.run .object c).result with
    | error e => exact ⟨[], .error e, _, .fault (run_eq_of_exec (exec_of_result result))⟩
    | ok value =>
      obtain ⟨row, ends, last, more⟩ := ih (reader.run .object c).cursor
      exact ⟨_ :: row, ends, last, .cons (run_eq_of_exec (exec_of_result result)) more⟩

theorem Row.run_elements_object (h : reader.Row count c row ends last) (items : Array V) :
    reader.run (.elements .object count items) c =
      ⟨ends.map fun _ => items ++ (row.map (·.value)).toArray, last, reader⟩ := by
  induction h generalizing items with
  | nil c => simp [Decoder.elements, Reader.run, Decoder.exec, Except.map]
  | fault read => rw [Decoder.elements_succ, run_bind, read]; rfl
  | cons read more ih =>
    rw [Decoder.elements_succ, run_bind, read]
    simp [ih]

theorem Row.run_elements_typed (h : reader.Row count c row ends last) (kind : Kind V T)
    (items : Array T) :
    reader.run (.elements (.typed kind) count items) c =
      match row.find? (kind.refuses ·.value) with
      | some bad => ⟨.error (.unexpectedConstructor kind.name bad.start.word), bad.stop, reader⟩
      | none =>
        ⟨ends.map fun _ => items ++ ((row.map (·.value)).filterMap kind.narrow?).toArray, last,
          reader⟩ := by
  induction h generalizing items with
  | nil c => simp [Decoder.elements, Reader.run, Decoder.exec, Except.map]
  | fault read =>
    rw [Decoder.elements_succ, run_bind, run_typed, read]
    rfl
  | @cons count c stop last value row ends read more ih =>
    rw [Decoder.elements_succ, run_bind, run_typed, read, List.find?_cons]
    by_cases wrong : kind.refuses value
    · simp [wrong, Except.bind, Kind.judge_of_refuses wrong]
    · obtain ⟨narrow, narrows, judged⟩ := Kind.exists_of_not_refuses wrong
      simp [wrong, Except.bind, judged, narrows, ih]

/-! ## Vectors -/

theorem run_vector (reader : Reader V) (element : Decoder V α) (c : Cursor) :
    reader.run (.vector element) c =
      match (reader.run .vectorCount c).result with
      | .ok count => reader.run (.elements element count #[]) (reader.run .vectorCount c).cursor
      | .error e => ⟨.error e, (reader.run .vectorCount c).cursor, reader⟩ := by
  unfold Decoder.vector
  rw [run_bind]
  cases (reader.run .vectorCount c).result <;> rfl

/-- An object of a declared type is read as any object is, and then judged by its type. -/
theorem declared_type_narrows (reader : Reader V) (kind : Kind V T) (c : Cursor) :
    (let plain := reader.run .object c
     let narrow := reader.run (.typed kind) c
     narrow = ⟨plain.result.bind (kind.judge c.word), plain.cursor, plain.reader⟩) ∧
    (let head := reader.run .vectorCount c
     let plain := reader.run .objectVector c
     let narrow := reader.run (.typedVector kind) c
     narrow.reader = plain.reader ∧
      match head.result with
      | .error e =>
        plain.result = .error e ∧ narrow.result = .error e ∧ narrow.cursor = plain.cursor
      | .ok count =>
        ∃ row ends, reader.Row count head.cursor row ends plain.cursor ∧
          plain.result = ends.map (fun _ => (row.map (·.value)).toArray) ∧
          match row.find? (kind.refuses ·.value) with
          | some bad =>
            narrow.result = .error (.unexpectedConstructor kind.name bad.start.word) ∧
              narrow.cursor = bad.stop
          | none =>
            narrow.result.map (·.map some) = plain.result.map (·.map kind.narrow?) ∧
              narrow.cursor = plain.cursor) := by
  refine ⟨by simp only [reader_run, run_typed], by rw [reader_run, reader_run], ?_⟩
  simp only [Decoder.objectVector, Decoder.typedVector, run_vector]
  cases (reader.run .vectorCount c).result with
  | error e => exact ⟨rfl, rfl, rfl⟩
  | ok count =>
    obtain ⟨row, ends, last, h⟩ := reader.exists_row count (reader.run .vectorCount c).cursor
    simp only [h.run_elements_object, h.run_elements_typed]
    refine ⟨row, ends, h, by simp, ?_⟩
    cases first : row.find? (kind.refuses ·.value) with
    | some bad => exact ⟨rfl, rfl⟩
    | none =>
      have right : ∀ value ∈ row.map (·.value), ¬ kind.refuses value := by simpa using first
      have narrowed := Kind.map_some_filterMap right
      refine ⟨?_, rfl⟩
      cases ends with
      | error e => rfl
      | ok _ => simpa [Except.map, Function.comp_def] using narrowed

-- Two leaves are announced. There is an empty row, and then nothing more.
example :
    let buffer : ByteArray := ⟨#[0x15, 0xc4, 0xb5, 0x1c, 2, 0, 0, 0, 3, 0, 0, 0,
      0x15, 0xc4, 0xb5, 0x1c, 0, 0, 0, 0]⟩
    let reader : Reader Node := { registry := Node.registry }
    (reader.run .objectVector (.start buffer)).result = .error (.underrun 4 0) ∧
      (reader.run (.typedVector Node.leafKind) (.start buffer)).result =
        .error (.unexpectedConstructor "Leaf" 3) := by
  exact ⟨rfl, rfl⟩

end Reader

end TaggedWire
