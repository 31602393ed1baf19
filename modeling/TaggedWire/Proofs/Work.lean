import TaggedWire.Proofs.Forward
import TaggedWire.Proofs.Nesting

/-!
# What a run does to a buffer

A run takes slices of the buffer and looks identifiers up. Each lookup costs the four bytes of its
identifier, and a decoder that only goes forward never gets them back. So the bytes that are left
bound all the work, whatever the limits are.
-/

namespace TaggedWire

variable {V α : Type}

/-! ## Acts -/

inductive Act where
  | slice (source : Cursor) (count : Nat)
  | lookup (id : UInt32)

def Act.isLookup : Act → Bool
  | .slice _ _ => false
  | .lookup _ => true

def lookups (acts : List Act) : Nat :=
  acts.countP Act.isLookup

theorem lookups_append (first second : List Act) :
    lookups (first ++ second) = lookups first + lookups second :=
  List.countP_append

/-- A take is an act if it is answered with bytes. -/
def Progress.slices (p : Progress) (count : Nat) : List Act :=
  match p.take count with
  | (.ok _, _) => [.slice p.cursor count]
  | (.error _, _) => []

/-- The acts of a request, if reading an object has these. -/
def Request.acts (object : Progress → List Act) (p : Progress) : Request → List Act
  | .take count => p.slices count
  | .object => object p
  | .objectIn source => object { p with cursor := source }
  | _ => []

def Decoder.acts (scope : Scope V) (object : Progress → List Act) :
    Decoder V α → Progress → List Act
  | .done _, _ => []
  | .ask request next, p =>
    let (answer, after) := scope.answer request p
    request.acts object p ++ (next answer).acts scope object after

/-- An identifier is looked up as soon as it was taken, whether it is registered or not. -/
def Progress.dispatchActs (p : Progress) : List Act :=
  match p.take 4 with
  | (.ok raw, _) => [.slice p.cursor 4, .lookup (LittleEndian.word32 raw)]
  | (.error _, _) => []

def Registry.acts (registry : Registry V) (limits : Limits) :
    (room : Nat) → Progress → List Act
  | 0, p => p.dispatchActs
  | room + 1, p =>
    p.dispatchActs ++
      match registry.dispatch p with
      | (.error _, _) => []
      | (.ok constructor, after) =>
        let scope := ⟨limits, registry.labels, registry.object limits room⟩
        constructor.body.acts scope (registry.acts limits room) after.enter

def Reader.acts (reader : Reader V) (d : Decoder V α) (c : Cursor) : List Act :=
  d.acts reader.scope (reader.registry.acts reader.limits reader.room) ⟨c, reader.depth⟩

/-! ## Going forward -/

/-- The way from `p` to `q` pays for the lookups, and all slices lie on it. -/
structure Progress.Advances (p : Progress) (acts : List Act) (q : Progress) : Prop where
  buffer : q.cursor.buffer = p.cursor.buffer
  position : p.cursor.position + 4 * lookups acts ≤ q.cursor.position
  slices : ∀ source count, Act.slice source count ∈ acts →
    source.buffer = p.cursor.buffer ∧ p.cursor.position ≤ source.position ∧
      source.position + count ≤ q.cursor.position

namespace Progress

variable {p q m : Progress} {first second : List Act}

theorem Advances.refl (p : Progress) : p.Advances [] p where
  buffer := rfl
  position := by simp [lookups]
  slices := by simp

theorem Advances.append (h : p.Advances first m) (h' : m.Advances second q) :
    p.Advances (first ++ second) q where
  buffer := h'.buffer.trans h.buffer
  position := by
    have := h.position
    have := h'.position
    rw [lookups_append]
    omega
  slices source count mem := by
    have := h.position
    have := h'.position
    rcases List.mem_append.mp mem with mem | mem
    · obtain ⟨same, low, high⟩ := h.slices source count mem
      exact ⟨same, low, by omega⟩
    · obtain ⟨same, low, high⟩ := h'.slices source count mem
      exact ⟨same.trans h.buffer, by omega, high⟩

theorem Advances.leave (h : p.enter.Advances first q) : p.Advances first q.leave :=
  ⟨h.buffer, h.position, h.slices⟩

theorem Advances.remaining (h : p.Advances first q) :
    4 * lookups first + q.cursor.remaining ≤ p.cursor.remaining := by
  have hp := p.cursor.position_add_remaining
  have hq := q.cursor.position_add_remaining
  have := h.position
  rw [h.buffer] at hq
  omega

theorem advance_advances {count : Nat} (fits : count ≤ p.cursor.remaining) {acts : List Act}
    (paid : 4 * lookups acts ≤ count)
    (only : ∀ source size, Act.slice source size ∈ acts → source = p.cursor ∧ size = count) :
    p.Advances acts { p with cursor := p.cursor.advance count fits } where
  buffer := rfl
  position := Nat.add_le_add_left paid _
  slices source size mem := by
    obtain ⟨rfl, rfl⟩ := only source size mem
    exact ⟨rfl, Nat.le_refl _, Nat.le_refl _⟩

theorem take_advances (p : Progress) (count : Nat) :
    p.Advances (p.slices count) (p.take count).2 := by
  unfold slices
  rcases Nat.lt_or_ge p.cursor.remaining count with short | fits
  · rw [take_of_lt short]
    exact .refl p
  · rw [take_of_le fits]
    apply advance_advances fits
    · simp [lookups, Act.isLookup]
    · simp

theorem dispatch_advances (registry : Registry V) (p : Progress) :
    p.Advances p.dispatchActs (registry.dispatch p).2 := by
  rw [Registry.dispatch_eq_andThen]
  unfold dispatchActs
  rcases Nat.lt_or_ge p.cursor.remaining 4 with short | fits
  · rw [take_of_lt short]
    exact .refl p
  · rw [take_of_le fits]
    dsimp only [andThen]
    generalize LittleEndian.word32 _ = id
    have behind : p.Advances [.slice p.cursor 4, .lookup id]
        { p with cursor := p.cursor.advance 4 fits } := by
      apply advance_advances fits
      · simp [lookups, Act.isLookup]
      · simp
    split <;> exact behind

end Progress

theorem Decoder.Forward.advances {scope : Scope V} {object : Progress → List Act}
    {d : Decoder V α} (forward : d.Forward)
    (h : ∀ p : Progress, p.Advances (object p) (scope.object p).2) (p : Progress) :
    p.Advances (d.acts scope object p) (d.exec scope p).2 := by
  induction forward generalizing p with
  | value a => exact .refl p
  | fault e other => exact .refl p
  | take count next ends goes ih =>
    refine (p.take_advances count).append ?_
    change Progress.Advances _ ((next (p.take count).1).acts scope object (p.take count).2)
      ((next (p.take count).1).exec scope (p.take count).2).2
    obtain ⟨e | bytes, q⟩ := p.take count
    · rw [ends]
      exact .refl q
    · exact ih bytes q
  | object next ends goes ih =>
    refine (h p).append ?_
    change Progress.Advances _ ((next (scope.object p).1).acts scope object (scope.object p).2)
      ((next (scope.object p).1).exec scope (scope.object p).2).2
    obtain ⟨e | labelled, q⟩ := scope.object p
    · rw [ends]
      exact .refl q
    · exact ih labelled q
  | look next body sees mono goes ih =>
    change p.Advances ((next _).acts scope object p) ((next _).exec scope p).2
    rw [sees]
    exact ih _ p

namespace Registry

variable {registry : Registry V}

theorem object_advances (forward : ∀ constructor ∈ registry.constructors, constructor.body.Forward)
    (limits : Limits) (room : Nat) (p : Progress) :
    p.Advances (registry.acts limits room p) (registry.object limits room p).2 := by
  have found := p.dispatch_advances registry
  induction room generalizing p with
  | zero =>
    rw [object_zero_eq_andThen]
    unfold acts
    generalize registry.dispatch p = run at found
    obtain ⟨e | constructor, q⟩ := run <;> exact found
  | succ room ih =>
    rw [object_succ_eq_andThen]
    unfold acts
    refine found.append ?_
    cases run : registry.dispatch p with
    | mk result q =>
      cases result with
      | error e => exact .refl q
      | ok constructor =>
        have mem := (dispatch_ok_iff.mp run).1
        let scope : Scope V := ⟨limits, registry.labels, registry.object limits room⟩
        have inside : q.enter.Advances
            (constructor.body.acts scope (registry.acts limits room) q.enter)
            (constructor.body.exec scope q.enter).2 :=
          (forward constructor mem).advances (fun p => ih p (p.dispatch_advances registry)) q.enter
        exact inside.leave

end Registry

/-! ## Bodies that run -/

def Event.isStart : Event → Bool
  | .start _ => true
  | _ => false

def starts (events : List Event) : Nat :=
  events.countP Event.isStart

theorem starts_enclosed (depth : Nat) (events : List Event) :
    starts (.start depth :: events ++ [.stop]) = starts events + 1 := by
  simp [starts, List.countP_cons, Event.isStart]

theorem running_le_starts (events : List Event) : running events ≤ starts events := by
  induction events with
  | nil => simp [running, starts]
  | cons event events ih =>
    simp only [starts, running, List.countP_cons] at ih ⊢
    cases event <;> simp [Event.change, Event.isStart] <;> omega

theorem Decoder.starts_le_lookups {scope : Scope V} {events : Progress → List Event}
    {acts : Progress → List Act} (h : ∀ p, starts (events p) ≤ lookups (acts p))
    (d : Decoder V α) (p : Progress) :
    starts (d.events scope events p) ≤ lookups (d.acts scope acts p) := by
  induction d generalizing p with
  | done result => exact Nat.le_refl 0
  | ask request next ih =>
    have rest := ih (scope.answer request p).1 (scope.answer request p).2
    have first : starts (request.events events p) ≤ lookups (request.acts acts p) := by
      cases request with
      | object => exact h p
      | objectIn source => exact h _
      | look | take | seek | moveTo => exact Nat.zero_le _
    unfold Decoder.events Decoder.acts
    rw [lookups_append, starts, List.countP_append]
    exact Nat.add_le_add first rest

theorem Registry.lookups_of_dispatch {registry : Registry V} {constructor : Constructor V}
    {p q : Progress} (run : registry.dispatch p = (.ok constructor, q)) :
    lookups p.dispatchActs = 1 := by
  rw [dispatch_eq_andThen, andThen_ok_iff] at run
  obtain ⟨raw, m, taken, -⟩ := run
  unfold Progress.dispatchActs
  rw [taken]
  rfl

theorem Registry.starts_le_lookups (registry : Registry V) (limits : Limits) (room : Nat)
    (p : Progress) :
    starts (registry.events limits room p) ≤ lookups (registry.acts limits room p) := by
  induction room generalizing p with
  | zero =>
    unfold Registry.events
    cases registry.dispatch p with
    | mk result q => cases result <;> exact Nat.zero_le _
  | succ room ih =>
    unfold Registry.events Registry.acts
    cases run : registry.dispatch p with
    | mk result q =>
      cases result with
      | error e => exact Nat.zero_le _
      | ok constructor =>
        dsimp only
        rw [starts_enclosed, lookups_append, lookups_of_dispatch run, Nat.add_comm]
        exact Nat.add_le_add_left (constructor.body.starts_le_lookups ih q.enter) 1

/-! ## Levels that are never used -/

/-- Two scopes that read objects alike from the last `left` bytes on agree there. -/
theorem Decoder.Forward.exec_congr {low high : Scope V} {d : Decoder V α} (forward : d.Forward)
    (longest : low.limits.maxVectorSize = high.limits.maxVectorSize)
    (shrinks : ∀ p labelled q, low.object p = (.ok labelled, q) →
      q.cursor.remaining ≤ p.cursor.remaining)
    {left : Nat} (object : ∀ p, p.cursor.remaining ≤ left → low.object p = high.object p)
    {p : Progress} (fits : p.cursor.remaining ≤ left) : d.exec low p = d.exec high p := by
  induction forward generalizing p with
  | value a => rfl
  | fault e other => rfl
  | take count next ends goes ih =>
    rw [exec_ask, exec_ask, andThen_answer ends, andThen_answer ends]
    change andThen (p.take count) _ = andThen (p.take count) _
    apply andThen_congr
    intro bytes q taken
    have shorter := (p.take_advances count).remaining
    rw [taken] at shorter
    dsimp only at shorter
    apply ih
    omega
  | object next ends goes ih =>
    rw [exec_ask, exec_ask, andThen_answer ends, andThen_answer ends]
    change andThen (low.object p) _ = andThen (high.object p) _
    rw [← object p fits]
    apply andThen_congr
    intro labelled q read
    exact ih labelled (Nat.le_trans (shrinks p labelled q read) fits)
  | look next body sees mono goes ih =>
    rw [exec_ask, exec_ask, sees, sees]
    change (body low.limits.maxVectorSize).exec low p = (body high.limits.maxVectorSize).exec high p
    rw [longest]
    exact ih _ fits

namespace Registry

variable {registry : Registry V} {limits limits' : Limits}

theorem object_of_short {room : Nat} {p : Progress} (short : p.cursor.remaining < 4) :
    registry.object limits room p = (.error (.underrun 4 p.cursor.remaining), p) := by
  cases room with
  | zero =>
    rw [object_zero_eq_andThen, dispatch_eq_andThen, Progress.take_of_lt short]
    rfl
  | succ room =>
    rw [object_succ_eq_andThen, dispatch_eq_andThen, Progress.take_of_lt short]
    rfl

theorem remaining_of_object
    (forward : ∀ constructor ∈ registry.constructors, constructor.body.Forward) {room : Nat}
    {p q : Progress} {labelled : UInt32 × V}
    (read : registry.object limits room p = (.ok labelled, q)) :
    q.cursor.remaining ≤ p.cursor.remaining := by
  have shorter := (object_advances forward limits room p).remaining
  rw [read] at shorter
  dsimp only at shorter
  omega

/-- More levels than the bytes have words for are never entered. -/
theorem object_eq_of_room (forward : ∀ constructor ∈ registry.constructors, constructor.body.Forward)
    (longest : limits.maxVectorSize = limits'.maxVectorSize) {room room' : Nat} {p : Progress}
    (enough : p.cursor.remaining / 4 ≤ room) (enough' : p.cursor.remaining / 4 ≤ room') :
    registry.object limits room p = registry.object limits' room' p := by
  induction room generalizing room' p with
  | zero =>
    have short : p.cursor.remaining < 4 := by omega
    rw [object_of_short short, object_of_short short]
  | succ room ih =>
    by_cases short : p.cursor.remaining < 4
    · rw [object_of_short short, object_of_short short]
    obtain ⟨room', rfl⟩ : ∃ less, room' = less + 1 := ⟨room' - 1, by omega⟩
    rw [object_succ_eq_andThen, object_succ_eq_andThen]
    apply andThen_congr
    intro constructor q run
    have behind := (p.dispatch_advances registry).remaining
    rw [run, lookups_of_dispatch run] at behind
    dsimp only at behind
    let low : Scope V := ⟨limits, registry.labels, registry.object limits room⟩
    let high : Scope V := ⟨limits', registry.labels, registry.object limits' room'⟩
    have deeper : ∀ r : Progress, r.cursor.remaining ≤ q.cursor.remaining →
        low.object r = high.object r := fun r fits => ih (by omega) (by omega)
    have inside : constructor.body.exec low q.enter = constructor.body.exec high q.enter :=
      (forward constructor (dispatch_ok_iff.mp run).1).exec_congr longest
        (fun _ _ _ => remaining_of_object forward) deeper (Nat.le_refl _)
    dsimp only
    rw [inside]

end Registry

/-! ## Readers -/

namespace Reader

variable {registry : Registry V}

theorem acts_advance (reader : Reader V)
    (forward : ∀ constructor ∈ reader.registry.constructors, constructor.body.Forward)
    {d : Decoder V α} (hd : d.Forward) (c : Cursor) :
    Progress.Advances ⟨c, reader.depth⟩ (reader.acts d c)
      (d.exec reader.scope ⟨c, reader.depth⟩).2 :=
  hd.advances (Registry.object_advances forward reader.limits reader.room) _

theorem starts_le_lookups (reader : Reader V) (d : Decoder V α) (c : Cursor) :
    starts (reader.events d c) ≤ lookups (reader.acts d c) :=
  d.starts_le_lookups (reader.registry.starts_le_lookups reader.limits reader.room) _

theorem exec_eq_of_depth
    (forward : ∀ constructor ∈ registry.constructors, constructor.body.Forward)
    {limits limits' : Limits} (longest : limits.maxVectorSize = limits'.maxVectorSize)
    {d : Decoder V α} (hd : d.Forward) {p : Progress}
    (enough : p.cursor.remaining / 4 ≤ limits.maxDepth)
    (enough' : p.cursor.remaining / 4 ≤ limits'.maxDepth) :
    d.exec (scope { registry, limits }) p = d.exec (scope { registry, limits := limits' }) p := by
  have objects : ∀ q : Progress, q.cursor.remaining ≤ p.cursor.remaining →
      (scope { registry, limits }).object q = (scope { registry, limits := limits' }).object q := by
    intro q fits
    apply Registry.object_eq_of_room forward longest
    · simp only [room]
      omega
    · simp only [room]
      omega
  exact hd.exec_congr longest (fun _ _ _ => Registry.remaining_of_object forward) objects
    (Nat.le_refl _)

end Reader

end TaggedWire
