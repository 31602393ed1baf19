import TaggedWire.Proofs.ReadBack

/-!
# Writes only append

Whatever was written before, a write ends in the same way and adds the same bytes. So a row of
writes adds what each of them adds, one after the other, also when some of them fail.
-/

namespace TaggedWire

variable {α β : Type}

namespace Encoder

/-- How the encoder ends. -/
def result (encoder : Encoder α) : Except Fault α :=
  (encoder.run .empty).1

/-- What the encoder adds. -/
def delta (encoder : Encoder α) : ByteArray :=
  (encoder.run .empty).2

/-- The encoder ends like this and adds these bytes, whatever was written before. -/
def Yields (encoder : Encoder α) (result : Except Fault α) (delta : ByteArray) : Prop :=
  ∀ written, encoder.run written = (result, written ++ delta)

/-- The encoder never looks at what was written before. -/
def Uniform (encoder : Encoder α) : Prop :=
  encoder.Yields encoder.result encoder.delta

variable {encoder : Encoder α} {result : Except Fault α} {delta : ByteArray}

theorem Yields.result_eq (h : encoder.Yields result delta) : encoder.result = result := by
  rw [Encoder.result, h]

theorem Yields.delta_eq (h : encoder.Yields result delta) : encoder.delta = delta := by
  rw [Encoder.delta, h, ByteArray.empty_append]

theorem Yields.uniform (h : encoder.Yields result delta) : encoder.Uniform := by
  unfold Uniform
  rwa [h.result_eq, h.delta_eq]

theorem Appends.yields {encoder : Encoder Unit} {form : List UInt8} (h : encoder.Appends form) :
    encoder.Yields (.ok ()) form.toByteArray :=
  h

/-! ## Sequences -/

theorem yields_pure (a : α) : (pure a : Encoder α).Yields (.ok a) .empty := by
  intro written
  rw [run_pure, ByteArray.append_empty]

theorem yields_throw (e : Fault) : (throw e : Encoder α).Yields (.error e) .empty := by
  intro written
  rw [run_throw, ByteArray.append_empty]

theorem Yields.bind {f : α → Encoder β} {a : α} {last : Except Fault β} {more : ByteArray}
    (h : encoder.Yields (.ok a) delta) (h' : (f a).Yields last more) :
    (encoder >>= f).Yields last (delta ++ more) := by
  intro written
  rw [run_bind, h]
  dsimp only
  rw [h', ByteArray.append_assoc]

theorem Yields.bind_error {f : α → Encoder β} {e : Fault} (h : encoder.Yields (.error e) delta) :
    (encoder >>= f).Yields (.error e) delta := by
  intro written
  rw [run_bind, h]

theorem Uniform.bind {f : α → Encoder β} (h : encoder.Uniform) (hf : ∀ a, (f a).Uniform) :
    (encoder >>= f).Uniform := by
  cases ends : encoder.result with
  | ok a =>
    unfold Uniform at h
    rw [ends] at h
    exact (h.bind (hf a)).uniform
  | error e =>
    unfold Uniform at h
    rw [ends] at h
    exact h.bind_error.uniform

/-- How the encoder ends, as a value to go on with. -/
def caught (encoder : Encoder α) : Encoder (Except Fault α) :=
  ExceptT.lift (ExceptT.run encoder)

theorem run_caught (encoder : Encoder α) (written : ByteArray) :
    encoder.caught.run written = (.ok (encoder.run written).1, (encoder.run written).2) :=
  rfl

theorem Yields.caught (h : encoder.Yields result delta) :
    encoder.caught.Yields (.ok result) delta := by
  intro written
  rw [run_caught, h]

/-! ## Single values -/

theorem raw_yields (bytes : ByteArray) : (raw bytes).Yields (.ok ()) bytes :=
  fun _ => rfl

theorem bytes_yields_of_large {payload : ByteArray} (large : ByteString.maxSize < payload.size) :
    (bytes payload).Yields (.error (.payloadTooLarge payload.size ByteString.maxSize)) .empty := by
  have long : ¬ payload.size < ByteString.longMarker.toNat := by
    intro short
    exact absurd (Nat.lt_trans large short) (by decide)
  unfold bytes
  dsimp only
  rw [if_neg long, if_neg (Nat.not_le_of_lt large)]
  exact yields_throw _

theorem bytes_uniform (payload : ByteArray) : (bytes payload).Uniform := by
  rcases Nat.lt_or_ge ByteString.maxSize payload.size with large | fits
  · exact (bytes_yields_of_large large).uniform
  · exact (bytes_appends payload (by simpa using fits)).yields.uniform

theorem primitive_uniform (primitive : Primitive) (value : primitive.Value) :
    (primitive.encoder value).Uniform := by
  cases primitive with
  | byte => exact (byte_appends value).yields.uniform
  | bytes => exact bytes_uniform value
  | text => exact bytes_uniform value.toByteArray
  | _ => exact (raw_yields _).uniform

/-! ## Vectors -/

/-- The identifier of a vector and its count. -/
def vectorHead (count : Nat) : ByteArray :=
  LittleEndian.ofWord32 Tag.vector ++ LittleEndian.ofWord32 (UInt32.ofNat count)

/-- One piece after the other. -/
def joined (pieces : List ByteArray) : ByteArray :=
  pieces.foldr (· ++ ·) .empty

theorem vectorHeader_yields {count : Nat} (fits : count < 0x80000000) :
    (vectorHeader count).Yields (.ok ()) (vectorHead count) := by
  unfold vectorHeader
  rw [if_pos fits]
  exact (raw_yields _).bind (raw_yields _)

theorem vectorHeader_yields_of_large {count : Nat} (large : 0x80000000 ≤ count) :
    (vectorHeader count).Yields (.error (.countOverflow count)) .empty := by
  unfold vectorHeader
  rw [if_neg (Nat.not_lt_of_le large)]
  exact yields_throw _

theorem forM_uniform {element : α → Encoder Unit} (h : ∀ a, (element a).Uniform) (items : List α) :
    (items.forM element).Uniform := by
  induction items with
  | nil => exact (yields_pure ()).uniform
  | cons a items ih => exact (h a).bind fun _ => ih

theorem vector_uniform {element : α → Encoder Unit} (h : ∀ a, (element a).Uniform)
    (items : Array α) : (vector items element).Uniform := by
  have head : (vectorHeader items.size).Uniform := by
    rcases Nat.lt_or_ge items.size 0x80000000 with fits | large
    · exact (vectorHeader_yields fits).uniform
    · exact (vectorHeader_yields_of_large large).uniform
  exact head.bind fun _ => forM_uniform h items.toList

theorem forM_append_yields {element : α → Encoder Unit} {deltas : α → ByteArray} {items : List α}
    (goes : ∀ a ∈ items, (element a).Yields (.ok ()) (deltas a)) {later : List α}
    {result : Except Fault Unit} {delta : ByteArray}
    (h : (later.forM element).Yields result delta) :
    ((items ++ later).forM element).Yields result (joined (items.map deltas) ++ delta) := by
  induction items with
  | nil =>
    have same : joined [] ++ delta = delta := ByteArray.empty_append
    rwa [List.nil_append, List.map_nil, same]
  | cons a items ih =>
    rw [List.forall_mem_cons] at goes
    have same : joined ((a :: items).map deltas) ++ delta =
        deltas a ++ (joined (items.map deltas) ++ delta) := ByteArray.append_assoc
    rw [same]
    exact goes.1.bind (ih goes.2)

theorem vector_yields {element : α → Encoder Unit} {deltas : α → ByteArray} {items : Array α}
    (fits : items.size < 0x80000000) (goes : ∀ a ∈ items, (element a).Yields (.ok ()) (deltas a)) :
    (vector items element).Yields (.ok ())
      (vectorHead items.size ++ joined (items.toList.map deltas)) := by
  have rest : (([] : List α).forM element).Yields (.ok ()) .empty := yields_pure ()
  have all := forM_append_yields (fun a mem => goes a (Array.mem_toList_iff.mp mem)) rest
  rw [List.append_nil, ByteArray.append_empty] at all
  exact (vectorHeader_yields fits).bind all

theorem vector_yields_of_fault {element : α → Encoder Unit} {deltas : α → ByteArray}
    {items : Array α} {before later : List α} {failing : α} {e : Fault}
    (split : items.toList = before ++ failing :: later) (fits : items.size < 0x80000000)
    (goes : ∀ a ∈ before, (element a).Yields (.ok ()) (deltas a))
    (fails : (element failing).Yields (.error e) (deltas failing)) :
    (vector items element).Yields (.error e)
      (vectorHead items.size ++ joined (before.map deltas) ++ deltas failing) := by
  have rest : ((failing :: later).forM element).Yields (.error e) (deltas failing) :=
    fails.bind_error
  have all := forM_append_yields goes rest
  rw [← split] at all
  rw [ByteArray.append_assoc]
  exact (vectorHeader_yields fits).bind all

theorem vector_yields_of_large {element : α → Encoder Unit} {items : Array α}
    (large : 0x80000000 ≤ items.size) :
    (vector items element).Yields (.error (.countOverflow items.size)) .empty :=
  (vectorHeader_yields_of_large large).bind_error

end Encoder

/-! ## All writes -/

/-- What can be written with one call, as data. -/
inductive Write : Type 1 where
  | raw (bytes : ByteArray)
  | single (primitive : Primitive) (value : primitive.Value)
  | vector {α : Type} (items : Array α) (element : α → Write)
  /-- The end of a routine that writes an object. -/
  | ends (result : Except Fault Unit)
  /-- A step of such a routine. What comes next may depend on how the step ended. -/
  | step (first : Write) (next : Except Fault Unit → Write)

namespace Write

def encoder : Write → Encoder Unit
  | .raw bytes => .raw bytes
  | .single primitive value => primitive.encoder value
  | .vector items element => .vector items fun item => (element item).encoder
  | .ends (.ok ()) => pure ()
  | .ends (.error e) => throw e
  | .step first next => do
    let result ← first.encoder.caught
    (next result).encoder

/-- The next step of a routine that ends with the first fault. -/
def seq (first second : Write) : Write :=
  first.step fun
    | .ok () => second
    | .error e => .ends (.error e)

def result (write : Write) : Except Fault Unit :=
  write.encoder.result

def delta (write : Write) : ByteArray :=
  write.encoder.delta

/-- Writes one after the other, also after faults. -/
def runAll : List Write → ByteArray → List (Except Fault Unit) × ByteArray
  | [], written => ([], written)
  | write :: writes, written =>
    let (result, more) := write.encoder.run written
    let (results, all) := runAll writes more
    (result :: results, all)

end Write

namespace Write

theorem uniform (write : Write) : write.encoder.Uniform := by
  induction write with
  | raw bytes => exact (Encoder.raw_yields bytes).uniform
  | single primitive value => exact Encoder.primitive_uniform primitive value
  | vector items element ih => exact Encoder.vector_uniform ih items
  | ends result =>
    cases result with
    | ok _ => exact (Encoder.yields_pure ()).uniform
    | error e => exact (Encoder.yields_throw e).uniform
  | step first next ihFirst ihNext =>
    exact (Encoder.Yields.caught ihFirst).uniform.bind ihNext

theorem run_step (first : Write) (next : Except Fault Unit → Write) (written : ByteArray) :
    (first.step next).encoder.run written =
      (next (first.encoder.run written).1).encoder.run (first.encoder.run written).2 :=
  rfl

theorem encoder_seq (first second : Write) :
    (first.seq second).encoder = (do first.encoder; second.encoder) := by
  funext written
  change (first.seq second).encoder.run written =
    Encoder.run (do first.encoder; second.encoder) written
  rw [seq, run_step, Encoder.run_bind]
  obtain ⟨e | _, more⟩ := first.encoder.run written
  · rfl
  · rfl

theorem runAll_eq (writes : List Write) (written : ByteArray) :
    runAll writes written =
      (writes.map result, written ++ Encoder.joined (writes.map delta)) := by
  induction writes generalizing written with
  | nil =>
    have same : written ++ Encoder.joined [] = written := ByteArray.append_empty
    rw [List.map_nil, List.map_nil, same]
    rfl
  | cons write writes ih =>
    have run : write.encoder.run written = (write.result, written ++ write.delta) :=
      write.uniform written
    unfold runAll
    rw [run]
    dsimp only
    rw [ih, ByteArray.append_assoc]
    rfl

end Write

/-! ## Writing with calls only -/

/-- The encoder does what some write does. -/
def Encoder.IsWrite (encoder : Encoder Unit) : Prop :=
  ∃ write : Write, write.encoder = encoder

namespace Encoder

theorem isWrite_nothing : (pure () : Encoder Unit).IsWrite :=
  ⟨.ends (.ok ()), rfl⟩

theorem isWrite_single (primitive : Primitive) (value : primitive.Value) :
    (primitive.encoder value).IsWrite :=
  ⟨.single primitive value, rfl⟩

theorem IsWrite.seq {first second : Encoder Unit} (h : first.IsWrite) (h' : second.IsWrite) :
    (do first; second : Encoder Unit).IsWrite := by
  obtain ⟨write, rfl⟩ := h
  obtain ⟨write', rfl⟩ := h'
  exact ⟨write.seq write', Write.encoder_seq write write'⟩

theorem isWrite_vector {element : α → Encoder Unit} (h : ∀ a, (element a).IsWrite)
    (items : Array α) : (vector items element).IsWrite := by
  choose write same using h
  refine ⟨.vector items write, ?_⟩
  rw [← funext same]
  rfl

end Encoder

end TaggedWire
