import TaggedWire.Proofs.Cause
import TaggedWire.Proofs.Read
import TaggedWire.Proofs.Work

/-!
# Sessions

One operation after the other on the same cursor, with reads and moves mixed and any of them failing
on the way. Whatever came before, the next one starts at a position in the buffer and leaves the
cursor at another one.
-/

namespace TaggedWire

variable {V α β : Type}

/-! ## Targets -/

namespace Cursor

variable {c : Cursor} {offset : Int64}

/-- In a buffer of less than 63 bits, no clamped target is taken for another one. -/
theorem clamp_within_iff {size : Nat} (small : size < 0x7fffffffffffffff) {target : Int}
    (low : -0x8000000000000000 ≤ target) :
    0 ≤ (Int64.ofIntClamp target).toInt ∧ (Int64.ofIntClamp target).toInt ≤ size ↔
      0 ≤ target ∧ target ≤ size := by
  have least : Int64.minValue.toInt = -0x8000000000000000 := Int64.toInt_minValue
  have greatest : Int64.maxValue.toInt = 0x7fffffffffffffff := Int64.toInt_maxValue
  by_cases high : 0x7fffffffffffffff < target
  · have clamped : Int64.ofIntClamp target = Int64.maxValue := by
      unfold Int64.ofIntClamp
      rw [dif_pos (by omega), dif_neg (by omega)]
    rw [clamped, greatest]
    omega
  · rw [Int64.toInt_ofIntClamp (by omega) (by omega)]

theorem seek_of_within (small : c.buffer.size < 0x7fffffffffffffff)
    (low : 0 ≤ c.position + offset.toInt) (high : c.position + offset.toInt ≤ c.buffer.size) :
    c.seek offset = .ok ⟨c.buffer, (c.position + offset.toInt).toNat, by omega⟩ := by
  have least : Int64.minValue.toInt = -0x8000000000000000 := Int64.toInt_minValue
  have greatest : Int64.maxValue.toInt = 0x7fffffffffffffff := Int64.toInt_maxValue
  have same := Int64.toInt_ofIntClamp (x := c.position + offset.toInt) (by omega) (by omega)
  unfold seek
  dsimp only
  rw [dif_pos (by omega)]
  congr

theorem seek_of_outside (small : c.buffer.size < 0x7fffffffffffffff)
    (outside : ¬ (0 ≤ c.position + offset.toInt ∧ c.position + offset.toInt ≤ c.buffer.size)) :
    c.seek offset =
      .error (.outOfBounds (Int64.ofIntClamp (c.position + offset.toInt)) c.buffer.size) := by
  have low := offset.le_toInt
  rw [← clamp_within_iff small (by omega)] at outside
  unfold seek
  exact dif_neg outside

end Cursor

/-! ## Reads that fail -/

theorem Progress.move_error {p q : Progress} {target : Except Fault Cursor} {e : Fault}
    (run : p.move target = (.error e, q)) : q = p := by
  cases target with
  | error e' =>
    cases run
    rfl
  | ok c => cases run

namespace Decoder

variable {scope : Scope V}

/-- No fault of the decoder comes from a move. -/
def Unmoved (scope : Scope V) (d : Decoder V α) : Prop :=
  ∀ p e q, d.exec scope p = (.error e, q) → ¬ e.IsOutOfBounds

theorem Unmoved.bind {d : Decoder V α} {f : α → Decoder V β} (h : d.Unmoved scope)
    (hf : ∀ a, (f a).Unmoved scope) : (d >>= f).Unmoved scope := by
  intro p e q run
  rw [exec_bind_error_iff] at run
  obtain first | ⟨a, m, -, second⟩ := run
  · exact h p e q first
  · exact hf a m e q second

theorem unmoved_value (a : α) : (pure a : Decoder V α).Unmoved scope := by
  intro p e q run
  cases run

theorem unmoved_fault {e : Fault} (unmoved : ¬ e.IsOutOfBounds) :
    (throw e : Decoder V α).Unmoved scope := by
  intro p e' q run
  cases run
  exact unmoved

theorem Unmoved.look {f : Surroundings → Decoder V α} (hf : ∀ seen, (f seen).Unmoved scope) :
    (look >>= f).Unmoved scope := by
  intro p e q run
  rw [exec_look_bind] at run
  exact hf _ p e q run

theorem Unmoved.guard {c : Prop} [Decidable c] {e : Fault} {d : PUnit → Decoder V α}
    (unmoved : ¬ e.IsOutOfBounds) (h : (d ⟨⟩).Unmoved scope) :
    (if c then throw e >>= d else d ⟨⟩).Unmoved scope := by
  split
  · exact unmoved_fault unmoved
  · exact h

theorem unmoved_take (count : Nat) : (take count : Decoder V ByteArray).Unmoved scope := by
  intro p e q run
  obtain ⟨-, rfl, -⟩ := Progress.take_error_iff.mp run
  exact not_false

theorem closed_unmoved (object : (labelled : Decoder V (UInt32 × V)).Unmoved scope) :
    Closed (V := V) (Unmoved scope) where
  value := unmoved_value
  fault e _ unmoved := unmoved_fault unmoved
  bind := .bind
  take := unmoved_take
  labelled := object
  vectorCount := by
    have word : (uint32 : Decoder V UInt32).Unmoved scope :=
      (unmoved_take 4).bind fun _ => unmoved_value _
    refine word.bind fun id => .guard not_false ?_
    refine (word.bind fun _ => unmoved_value _).bind fun count => .guard not_false ?_
    exact .look fun seen => .guard not_false (unmoved_value _)
  unseen h := .look fun _ => h

/-- The bytes are taken in one piece. So they are missing before anything has changed. -/
def InOnePiece (scope : Scope V) (d : Decoder V α) : Prop :=
  ∀ p e q, d.exec scope p = (.error e, q) → q = p

theorem inOnePiece_take (count : Nat) : (take count : Decoder V ByteArray).InOnePiece scope := by
  intro p e q run
  exact (Progress.take_error_iff.mp run).2.2

theorem inOnePiece_seek (offset : Int64) : (seek offset : Decoder V Unit).InOnePiece scope :=
  fun _ _ _ => Progress.move_error

theorem inOnePiece_moveTo (target : UInt64) : (moveTo target : Decoder V Unit).InOnePiece scope :=
  fun _ _ _ => Progress.move_error

theorem InOnePiece.made {d : Decoder V α} (h : d.InOnePiece scope) (make : α → β) :
    (do return make (← d) : Decoder V β).InOnePiece scope := by
  intro p e q run
  rw [exec_bind_error_iff] at run
  obtain first | ⟨a, m, -, second⟩ := run
  · exact h p e q first
  · cases second

end Decoder

/-- After this fault the cursor is where it was before the read. -/
def Primitive.StaysOn (e : Fault) : Primitive → Prop
  | .bool => e.IsUnderrun
  | .bytes => False
  | .text => False
  | _ => True

theorem Primitive.stays {scope : Scope V} {primitive : Primitive} {p q : Progress} {e : Fault}
    (stays : primitive.StaysOn e) (run : primitive.decoder.exec scope p = (.error e, q)) :
    q = p := by
  have word : (Decoder.uint32 : Decoder V UInt32).InOnePiece scope :=
    (Decoder.inOnePiece_take 4).made _
  have long : (Decoder.uint64 : Decoder V UInt64).InOnePiece scope :=
    (Decoder.inOnePiece_take 8).made _
  cases primitive with
  | byte => exact (Decoder.inOnePiece_take 1).made _ p e q run
  | uint32 => exact word p e q run
  | int32 | binary32 => exact word.made _ p e q run
  | uint64 => exact long p e q run
  | int64 | binary64 => exact long.made _ p e q run
  | raw128 => exact Decoder.inOnePiece_take 16 p e q run
  | raw256 => exact Decoder.inOnePiece_take 32 p e q run
  | wideInt bits signed =>
    change (Decoder.wideInt bits signed).exec scope p = (.error e, q) at run
    unfold Decoder.wideInt at run
    split at run
    · cases run
      rfl
    · exact (Decoder.inOnePiece_take _).made _ p e q run
  | bool =>
    change Decoder.bool.exec scope p = (.error e, q) at run
    unfold Decoder.bool at run
    rw [Decoder.exec_bind_error_iff] at run
    obtain first | ⟨id, m, -, second⟩ := run
    · exact word p e q first
    · -- The word is no truth value, which is no underrun.
      split at second
      · cases second
      split at second
      · cases second
      · cases second
        exact stays.elim
  | bytes | text => exact stays.elim

def Read.StaysOn (e : Fault) : Read V → Prop
  | .take _ => True
  | .single primitive => primitive.StaysOn e
  | _ => False

/-! ## Objects -/

namespace Registry

variable {registry : Registry V} {limits : Limits} {p q : Progress} {e : Fault}

theorem dispatch_unmoved (run : registry.dispatch p = (.error e, q)) : ¬ e.IsOutOfBounds := by
  rw [dispatch_eq_andThen, andThen_error_iff] at run
  obtain short | ⟨raw, m, -, found⟩ := run
  · obtain ⟨-, rfl, -⟩ := Progress.take_error_iff.mp short
    exact not_false
  · split at found
    · cases found
    · cases found
      exact not_false

theorem object_unmoved
    (bodies : ∀ constructor ∈ registry.constructors, ∀ scope : Scope V,
      (Decoder.labelled : Decoder V (UInt32 × V)).Unmoved scope → constructor.body.Unmoved scope)
    (room : Nat) (run : registry.object limits room p = (.error e, q)) : ¬ e.IsOutOfBounds := by
  induction room generalizing p q e with
  | zero =>
    rw [object_zero_eq_andThen, andThen_error_iff] at run
    obtain first | ⟨constructor, m, -, deep⟩ := run
    · exact dispatch_unmoved first
    · cases deep
      exact not_false
  | succ room ih =>
    rw [object_succ_eq_andThen, andThen_error_iff] at run
    obtain first | ⟨constructor, m, found, second⟩ := run
    · exact dispatch_unmoved first
    · have body := bodies constructor (dispatch_ok_iff.mp found).1
        ⟨limits, registry.labels, registry.object limits room⟩ (fun _ _ _ run => ih run) m.enter
      dsimp only at second
      generalize constructor.body.exec _ m.enter = run at second body
      obtain ⟨_ | value, inner⟩ := run
      · cases second
        exact body _ inner rfl
      · cases second

end Registry

/-! ## Operations -/

inductive Operation (V : Type) : Type 1 where
  | read (read : Read V)
  | seek (offset : Int64)
  | moveTo (target : UInt64)

namespace Operation

abbrev Value : Operation V → Type
  | .read r => r.Value
  | .seek _ => Unit
  | .moveTo _ => Unit

def decoder : (operation : Operation V) → Decoder V operation.Value
  | .read r => r.decoder
  | .seek offset => .seek offset
  | .moveTo target => .moveTo target

def StaysOn (e : Fault) : Operation V → Prop
  | .read r => r.StaysOn e
  | .seek _ => True
  | .moveTo _ => True

theorem stays {operation : Operation V} {scope : Scope V} {p q : Progress} {e : Fault}
    (stays : operation.StaysOn e) (run : operation.decoder.exec scope p = (.error e, q)) :
    q = p := by
  cases operation with
  | seek offset => exact Decoder.inOnePiece_seek offset p e q run
  | moveTo target => exact Decoder.inOnePiece_moveTo target p e q run
  | read r =>
    cases r with
    | take count => exact Decoder.inOnePiece_take count p e q run
    | single primitive => exact Primitive.stays stays run
    | object | typed _ | vector _ => exact stays.elim

end Operation

/-- A reader and the cursor that it works on. -/
structure Session (V : Type) where
  reader : Reader V
  cursor : Cursor

namespace Session

def outcome (s : Session V) (operation : Operation V) : Outcome V operation.Value :=
  s.reader.run operation.decoder s.cursor

def acts (s : Session V) (operation : Operation V) : List Act :=
  s.reader.acts operation.decoder s.cursor

/-- Goes on after the operation, also if it failed. -/
def step (s : Session V) (operation : Operation V) : Session V :=
  ⟨(s.outcome operation).reader, (s.outcome operation).cursor⟩

def after (s : Session V) (operations : List (Operation V)) : Session V :=
  operations.foldl step s

/-- A move succeeds just if its target lies in the buffer, and its fault shows that number. -/
def Moves (outcome : Outcome V Unit) (buffer : ByteArray) (target : Int) (shown : Int64) : Prop :=
  if 0 ≤ target ∧ target ≤ buffer.size then
    outcome.result = .ok () ∧ outcome.cursor.position = target
  else
    outcome.result = .error (.outOfBounds shown buffer.size)

/-- What holds of a session on the buffer, and what its next operation does. -/
structure Sound (s : Session V) (buffer : ByteArray) : Prop where
  same : s.cursor.buffer = buffer
  position_le : s.cursor.position ≤ buffer.size
  remaining : s.cursor.position + s.cursor.remaining = buffer.size
  slices : ∀ operation source count, Act.slice source count ∈ s.acts operation →
    source.buffer = buffer ∧ source.position + count ≤ buffer.size
  forward : ∀ read, s.cursor.position ≤ (s.step (.read read)).cursor.position
  stays : ∀ operation e, (s.outcome operation).result = .error e → operation.StaysOn e →
    (s.step operation).cursor = s.cursor
  seek : ∀ offset,
    let target : Int := s.cursor.position + offset.toInt
    Moves (s.outcome (.seek offset)) buffer target (Int64.ofIntClamp target)
  moveTo : ∀ target,
    Moves (s.outcome (.moveTo target)) buffer target.toNat target.toInt64
  outOfBounds : ∀ operation position size,
    (s.outcome operation).result = .error (.outOfBounds position size) → size = buffer.size

variable {s : Session V}

/-! ## One operation -/

theorem reader_step (s : Session V) (operation : Operation V) :
    (s.step operation).reader = s.reader :=
  s.reader.reader_run operation.decoder s.cursor

theorem buffer_step (s : Session V) (operation : Operation V) :
    (s.step operation).cursor.buffer = s.cursor.buffer :=
  (s.reader.exec_stays operation.decoder ⟨s.cursor, s.reader.depth⟩).buffer

theorem exec_eq (s : Session V) (operation : Operation V) :
    operation.decoder.exec s.reader.scope ⟨s.cursor, s.reader.depth⟩ =
      ((s.outcome operation).result, ⟨(s.step operation).cursor, s.reader.depth⟩) := by
  have depth := (s.reader.exec_stays operation.decoder ⟨s.cursor, s.reader.depth⟩).depth
  exact Prod.ext rfl (Progress.eq_of_position rfl rfl depth)

/-! ## Moves -/

theorem Moves.size_eq {outcome : Outcome V Unit} {buffer : ByteArray} {target : Int}
    {shown position : Int64} {size : Nat} (h : Moves outcome buffer target shown)
    (failed : outcome.result = .error (.outOfBounds position size)) : size = buffer.size := by
  unfold Moves at h
  split at h
  · cases failed.symm.trans h.1
  · cases failed.symm.trans h
    rfl

theorem moves_of_move {outcome : Outcome V Unit} {buffer : ByteArray} {target : Int}
    {shown : Int64} {p : Progress} {place : Except Fault Cursor}
    (run : outcome.result = (p.move place).1 ∧ outcome.cursor = (p.move place).2.cursor)
    (within : 0 ≤ target → target ≤ buffer.size → ∃ c, place = .ok c ∧ c.position = target)
    (outside : ¬ (0 ≤ target ∧ target ≤ buffer.size) →
      place = .error (.outOfBounds shown buffer.size)) :
    Moves outcome buffer target shown := by
  unfold Moves
  rw [run.1, run.2]
  split
  next h =>
    obtain ⟨c, rfl, position⟩ := within h.1 h.2
    exact ⟨rfl, position⟩
  next h =>
    rw [outside h]
    rfl

theorem moves_seek (small : s.cursor.buffer.size < 0x7fffffffffffffff) (offset : Int64) :
    let target : Int := s.cursor.position + offset.toInt
    Moves (s.outcome (.seek offset)) s.cursor.buffer target (Int64.ofIntClamp target) := by
  apply moves_of_move (p := ⟨s.cursor, s.reader.depth⟩) ⟨rfl, rfl⟩
  · intro low high
    exact ⟨_, Cursor.seek_of_within small low high, Int.toNat_of_nonneg low⟩
  · exact Cursor.seek_of_outside small

theorem moves_moveTo (s : Session V) (target : UInt64) :
    Moves (s.outcome (.moveTo target)) s.cursor.buffer target.toNat target.toInt64 := by
  apply moves_of_move (p := ⟨s.cursor, s.reader.depth⟩) ⟨rfl, rfl⟩
  · intro _ within
    exact ⟨_, dif_pos (Int.ofNat_le.mp within), rfl⟩
  · intro outside
    exact dif_neg fun within => outside ⟨Int.natCast_nonneg _, Int.ofNat_le.mpr within⟩

/-! ## Many operations -/

theorem after_same (s : Session V) (operations : List (Operation V)) :
    (s.after operations).reader = s.reader ∧
      (s.after operations).cursor.buffer = s.cursor.buffer := by
  induction operations generalizing s with
  | nil => exact ⟨rfl, rfl⟩
  | cons operation operations ih =>
    obtain ⟨reader, buffer⟩ := ih (s.step operation)
    exact ⟨reader.trans (s.reader_step operation), buffer.trans (s.buffer_step operation)⟩

section Bodies

variable (forward : ∀ constructor ∈ s.reader.registry.constructors, constructor.body.Forward)
  (unmoved : ∀ constructor ∈ s.reader.registry.constructors, ∀ scope : Scope V,
    (Decoder.labelled : Decoder V (UInt32 × V)).Unmoved scope → constructor.body.Unmoved scope)
  (small : s.cursor.buffer.size < 0x7fffffffffffffff)

include forward unmoved small

theorem sound : s.Sound s.cursor.buffer where
  same := rfl
  position_le := s.cursor.position_le
  remaining := s.cursor.position_add_remaining
  slices operation source count mem := by
    cases operation with
    | seek offset | moveTo target => cases mem
    | read r =>
      have advances := s.reader.acts_advance forward (closed_forward.read r) s.cursor
      -- A slice ends where the read does or before, and that is a place in the buffer.
      obtain ⟨same, -, fits⟩ := advances.slices source count mem
      have within := (r.decoder.exec s.reader.scope ⟨s.cursor, s.reader.depth⟩).2.cursor.position_le
      rw [advances.buffer] at within
      exact ⟨same, Nat.le_trans fits within⟩
  forward r := by
    have advances := (s.reader.acts_advance forward (closed_forward.read r) s.cursor).position
    exact Nat.le_trans (Nat.le_add_right _ _) advances
  stays operation e failed stays := by
    have run := s.exec_eq operation
    rw [failed] at run
    exact congrArg Progress.cursor (operation.stays stays run)
  seek := moves_seek small
  moveTo := s.moves_moveTo
  outOfBounds operation position size failed := by
    cases operation with
    | seek offset => exact (moves_seek small offset).size_eq failed
    | moveTo target => exact (s.moves_moveTo target).size_eq failed
    | read r =>
      have run := s.exec_eq (.read r)
      rw [failed] at run
      have objects : (Decoder.labelled : Decoder V (UInt32 × V)).Unmoved s.reader.scope :=
        fun _ _ _ run => Registry.object_unmoved unmoved s.reader.room run
      exact absurd trivial ((Decoder.closed_unmoved objects).read r _ _ _ run)

theorem sound_after (operations : List (Operation V)) :
    (s.after operations).Sound s.cursor.buffer := by
  obtain ⟨reader, buffer⟩ := s.after_same operations
  rw [← buffer]
  apply sound
  · rwa [reader]
  · rwa [reader]
  · rwa [buffer]

end Bodies

end Session

end TaggedWire
