import TaggedWire.Proofs.Lookup

/-!
# Nesting

Whatever a decoder asks for, it comes back to the depth and the buffer that it started with, also
after faults that it carries on from. So the depth counts the bodies that are running, it is all that
the limit is compared with, and a reader is as good as new after every call.
-/

namespace TaggedWire

variable {V α β : Type}

/-! ## What a run leaves alone -/

/-- From `p` to `q` only the position in the buffer may have changed. -/
structure Progress.Stays (p q : Progress) : Prop where
  buffer : q.cursor.buffer = p.cursor.buffer
  depth : q.depth = p.depth

namespace Progress

variable {p q r : Progress}

theorem Stays.refl (p : Progress) : p.Stays p :=
  ⟨rfl, rfl⟩

theorem Stays.trans (h : p.Stays q) (h' : q.Stays r) : p.Stays r :=
  ⟨h'.buffer.trans h.buffer, h'.depth.trans h.depth⟩

theorem Stays.leave (h : p.enter.Stays q) : p.Stays q.leave := by
  refine ⟨h.buffer, ?_⟩
  rw [Progress.leave, h.depth]
  exact Nat.add_sub_cancel p.depth 1

theorem take_stays (p : Progress) (count : Nat) : p.Stays (p.take count).2 := by
  rcases Nat.lt_or_ge p.cursor.remaining count with short | fits
  · rw [take_of_lt short]
    exact .refl p
  · rw [take_of_le fits]
    exact ⟨rfl, rfl⟩

theorem move_stays {target : Except Fault Cursor}
    (same : ∀ c, target = .ok c → c.buffer = p.cursor.buffer) : p.Stays (p.move target).2 := by
  cases target with
  | error e => exact .refl p
  | ok c => exact ⟨same c rfl, rfl⟩

theorem Stays.andThen {run : Except Fault α × Progress} (h : p.Stays run.2)
    {next : α → Progress → Except Fault β × Progress} (goes : ∀ a (q : Progress), q.Stays (next a q).2) :
    p.Stays (TaggedWire.andThen run next).2 := by
  obtain ⟨e | a, q⟩ := run
  · exact h
  · exact h.trans (goes a q)

end Progress

theorem Cursor.buffer_of_seek {c c' : Cursor} {offset : Int64} (h : c.seek offset = .ok c') :
    c'.buffer = c.buffer := by
  unfold seek at h
  dsimp only at h
  split at h
  · cases h
    rfl
  · cases h

theorem Cursor.buffer_of_moveTo {c c' : Cursor} {target : UInt64} (h : c.moveTo target = .ok c') :
    c'.buffer = c.buffer := by
  unfold moveTo at h
  split at h
  · cases h
    rfl
  · cases h

theorem Scope.answer_stays {scope : Scope V} (object : ∀ p : Progress, p.Stays (scope.object p).2)
    (request : Request) (p : Progress) : p.Stays (scope.answer request p).2 := by
  cases request with
  | look => exact .refl p
  | take count => exact p.take_stays count
  | seek offset => exact Progress.move_stays fun _ => Cursor.buffer_of_seek
  | moveTo target => exact Progress.move_stays fun _ => Cursor.buffer_of_moveTo
  | object => exact object p
  | objectIn source => exact ⟨rfl, (object { p with cursor := source }).depth⟩

theorem Decoder.exec_stays {scope : Scope V} (object : ∀ p : Progress, p.Stays (scope.object p).2)
    (d : Decoder V α) (p : Progress) : p.Stays (d.exec scope p).2 := by
  induction d generalizing p with
  | done result => exact .refl p
  | ask request next ih => exact (scope.answer_stays object request p).trans (ih _ _)

namespace Registry

variable (registry : Registry V) (limits : Limits)

theorem dispatch_stays (p : Progress) : p.Stays (registry.dispatch p).2 := by
  rw [dispatch_eq_andThen]
  refine (p.take_stays 4).andThen fun raw q => ?_
  split <;> exact .refl q

theorem object_stays (room : Nat) (p : Progress) :
    p.Stays (registry.object limits room p).2 := by
  induction room generalizing p with
  | zero =>
    rw [object_zero_eq_andThen]
    exact (registry.dispatch_stays p).andThen fun _ q => .refl q
  | succ room ih =>
    rw [object_succ_eq_andThen]
    refine (registry.dispatch_stays p).andThen fun constructor q => ?_
    let scope : Scope V := ⟨limits, registry.labels, registry.object limits room⟩
    have inside : q.enter.Stays (constructor.body.exec scope q.enter).2 :=
      constructor.body.exec_stays ih q.enter
    exact inside.leave

end Registry

theorem Reader.exec_stays (reader : Reader V) (d : Decoder V α) (p : Progress) :
    p.Stays (d.exec reader.scope p).2 :=
  Decoder.exec_stays (reader.registry.object_stays reader.limits reader.room) d p

theorem Reader.reader_run (reader : Reader V) (d : Decoder V α) (c : Cursor) :
    (reader.run d c).reader = reader := by
  have same := (reader.exec_stays d ⟨c, reader.depth⟩).depth
  unfold run
  dsimp only
  rw [same]

theorem Reader.buffer_run (reader : Reader V) (d : Decoder V α) (c : Cursor) :
    (reader.run d c).cursor.buffer = c.buffer :=
  (reader.exec_stays d ⟨c, reader.depth⟩).buffer

theorem Reader.exec_of_result {reader : Reader V} {d : Decoder V α} {c : Cursor}
    {result : Except Fault α} (h : (reader.run d c).result = result) :
    d.exec reader.scope ⟨c, reader.depth⟩ = (result, ⟨(reader.run d c).cursor, reader.depth⟩) :=
  Prod.ext h (Progress.eq_of_position rfl rfl (reader.exec_stays d ⟨c, reader.depth⟩).depth)

theorem Reader.run_bind (reader : Reader V) (d : Decoder V α) (f : α → Decoder V β) (c : Cursor) :
    reader.run (d >>= f) c =
      match (reader.run d c).result with
      | .ok a => reader.run (f a) (reader.run d c).cursor
      | .error e => ⟨.error e, (reader.run d c).cursor, reader⟩ := by
  cases result : (reader.run d c).result with
  | error e =>
    have whole : (d >>= f).exec reader.scope ⟨c, reader.depth⟩ =
        (.error e, ⟨(reader.run d c).cursor, reader.depth⟩) := by
      rw [Decoder.exec_bind, exec_of_result result]
    exact run_eq_of_exec whole
  | ok a =>
    have whole : (d >>= f).exec reader.scope ⟨c, reader.depth⟩ =
        (f a).exec reader.scope ⟨(reader.run d c).cursor, reader.depth⟩ := by
      rw [Decoder.exec_bind, exec_of_result result]
    rw [run, whole]
    rfl

theorem Reader.exists_run_of_bind {reader : Reader V} {d : Decoder V α} {f : α → Decoder V β}
    {c : Cursor} {b : β} (read : (reader.run (d >>= f) c).result = .ok b) :
    ∃ a, (reader.run d c).result = .ok a ∧
      reader.run (d >>= f) c = reader.run (f a) (reader.run d c).cursor := by
  have whole := reader.run_bind d f c
  cases first : (reader.run d c).result with
  | error e =>
    rw [first] at whole
    rw [whole] at read
    cases read
  | ok a =>
    rw [first] at whole
    exact ⟨a, rfl, whole⟩

/-! ## The depth as the bound -/

section Depth

variable {limits : Limits} {labels : List Label} {depth : Nat}
  {object object' : Progress → Except Fault (UInt32 × V) × Progress}

theorem Scope.answer_eq_of_object_eq
    (same : ∀ p : Progress, p.depth = depth → object p = object' p) (request : Request)
    {p : Progress} (level : p.depth = depth) :
    Scope.answer ⟨limits, labels, object⟩ request p =
      Scope.answer ⟨limits, labels, object'⟩ request p := by
  cases request with
  | look | take | seek | moveTo => rfl
  | object => exact same p level
  | objectIn source =>
    have inside := same { p with cursor := source } level
    unfold Scope.answer
    dsimp only
    rw [inside]

/-- A decoder asks for objects only at the depth where it started. -/
theorem Decoder.exec_eq_of_object_eq (stays : ∀ p : Progress, p.Stays (object p).2)
    (same : ∀ p : Progress, p.depth = depth → object p = object' p) (d : Decoder V α)
    {p : Progress} (level : p.depth = depth) :
    d.exec ⟨limits, labels, object⟩ p = d.exec ⟨limits, labels, object'⟩ p := by
  induction d generalizing p with
  | done result => rfl
  | ask request next ih =>
    rw [exec_ask, exec_ask, ← Scope.answer_eq_of_object_eq same request level]
    exact ih _ ((Scope.answer_stays stays request p).depth.trans level)

end Depth

namespace Registry

variable (registry : Registry V) (limits : Limits)

/-- Reads an object at the depth where it is asked for. -/
def objectByDepth (p : Progress) : Except Fault (UInt32 × V) × Progress :=
  registry.object limits (limits.maxDepth + 1 - p.depth) p

variable {registry limits}

/-- The room adds up with the depth, so it ends just when the depth passes the limit. -/
theorem object_eq_objectByDepth {room : Nat} {p : Progress}
    (sum : p.depth + room = limits.maxDepth + 1) :
    registry.object limits room p = registry.objectByDepth limits p := by
  obtain rfl : room = limits.maxDepth + 1 - p.depth := by omega
  rfl

/-- The depth itself is compared with the limit, once the identifier is known. -/
theorem objectByDepth_eq (p : Progress) :
    registry.objectByDepth limits p = andThen (registry.dispatch p) fun constructor q =>
      if limits.maxDepth < q.depth then (.error (.tooDeep limits.maxDepth), q)
      else
        let inside := constructor.body.exec
          ⟨limits, registry.labels, registry.objectByDepth limits⟩ q.enter
        (inside.1.map (constructor.id, ·), inside.2.leave) := by
  have found := (registry.dispatch_stays p).depth
  rw [objectByDepth]
  rcases Nat.lt_or_ge limits.maxDepth p.depth with deep | shallow
  · rw [Nat.sub_eq_zero_of_le deep, object_zero_eq_andThen]
    apply andThen_congr
    intro constructor q run
    rw [run] at found
    exact (if_pos (found ▸ deep)).symm
  · rw [Nat.succ_sub shallow, object_succ_eq_andThen]
    apply andThen_congr
    intro constructor q run
    rw [run] at found
    have level : q.depth = p.depth := found
    have same (inner : Progress) (below : inner.depth = p.depth + 1) :
        registry.object limits (limits.maxDepth - p.depth) inner =
          registry.objectByDepth limits inner :=
      object_eq_objectByDepth (by omega)
    have inside : constructor.body.exec
          ⟨limits, registry.labels, registry.object limits (limits.maxDepth - p.depth)⟩ q.enter =
        constructor.body.exec
          ⟨limits, registry.labels, registry.objectByDepth limits⟩ q.enter :=
      constructor.body.exec_eq_of_object_eq (registry.object_stays limits _) same
        (congrArg (· + 1) level)
    dsimp only
    rw [if_neg (by omega), inside]

end Registry

/-- A reader runs as one that has only the depth to go by. -/
theorem Reader.run_eq_byDepth (reader : Reader V) (d : Decoder V α) (c : Cursor) :
    reader.run d c =
      let run := d.exec
        ⟨reader.limits, reader.registry.labels, reader.registry.objectByDepth reader.limits⟩
        ⟨c, reader.depth⟩
      ⟨run.1, run.2.cursor, { reader with depth := run.2.depth }⟩ := by
  have same (p : Progress) (level : p.depth = reader.depth) :
      reader.registry.object reader.limits reader.room p =
        reader.registry.objectByDepth reader.limits p := by
    rw [room, ← level]
    rfl
  have whole : d.exec reader.scope ⟨c, reader.depth⟩ =
      d.exec
        ⟨reader.limits, reader.registry.labels, reader.registry.objectByDepth reader.limits⟩
        ⟨c, reader.depth⟩ :=
    d.exec_eq_of_object_eq (reader.registry.object_stays reader.limits reader.room) same rfl
  rw [run, whole]

/-! ## Events -/

/-- What happens in a run, with the depth at that moment. -/
inductive Event where
  /-- A body starts, and this is the depth that it finds. -/
  | start (depth : Nat)
  /-- A decoder looks at the depth. -/
  | look (depth : Nat)
  /-- The constructor of an object is known, but the object lies too deep. -/
  | refuse (depth : Nat)
  /-- The body that started last has ended. -/
  | stop
  deriving DecidableEq, Repr

/-- How many bodies the event adds to those that are running. -/
def Event.change : Event → Int
  | .start _ => 1
  | .look _ => 0
  | .refuse _ => 0
  | .stop => -1

/-- How many bodies have started and not ended. -/
def running : List Event → Int
  | [] => 0
  | event :: events => event.change + running events

/-- The event tells the number of bodies around it. A body starts just where the limit lets it. -/
def Event.Truthful (limits : Limits) (around : Int) : Event → Prop
  | .start depth => depth = around + 1 ∧ depth ≤ limits.maxDepth + 1
  | .look depth => depth = around
  | .refuse depth => depth = around ∧ limits.maxDepth < depth
  | .stop => 0 < around

/-- The events of a request, if reading an object has these. -/
def Request.events (object : Progress → List Event) (p : Progress) : Request → List Event
  | .look => [.look p.depth]
  | .object => object p
  | .objectIn source => object { p with cursor := source }
  | _ => []

def Decoder.events (scope : Scope V) (object : Progress → List Event) :
    Decoder V α → Progress → List Event
  | .done _, _ => []
  | .ask request next, p =>
    let (answer, after) := scope.answer request p
    request.events object p ++ (next answer).events scope object after

def Registry.events (registry : Registry V) (limits : Limits) :
    (room : Nat) → Progress → List Event
  | 0, p =>
    match registry.dispatch p with
    | (.error _, _) => []
    | (.ok _, after) => [.refuse after.depth]
  | room + 1, p =>
    match registry.dispatch p with
    | (.error _, _) => []
    | (.ok constructor, after) =>
      let scope := ⟨limits, registry.labels, registry.object limits room⟩
      .start after.enter.depth ::
        constructor.body.events scope (registry.events limits room) after.enter ++ [.stop]

def Reader.events (reader : Reader V) (d : Decoder V α) (c : Cursor) : List Event :=
  d.events reader.scope (reader.registry.events reader.limits reader.room) ⟨c, reader.depth⟩

/-! ## Brackets -/

theorem running_append (first second : List Event) :
    running (first ++ second) = running first + running second := by
  induction first with
  | nil => exact (Int.zero_add _).symm
  | cons event first ih => rw [List.cons_append, running, running, ih, Int.add_assoc]

/-- Inside `around` bodies, each event tells the truth. -/
def Truthful (limits : Limits) : (around : Int) → List Event → Prop
  | _, [] => True
  | around, event :: events =>
    event.Truthful limits around ∧ Truthful limits (around + event.change) events

theorem truthful_append_iff {limits : Limits} {around : Int} {first second : List Event} :
    Truthful limits around (first ++ second) ↔
      Truthful limits around first ∧ Truthful limits (around + running first) second := by
  induction first generalizing around with
  | nil => simp [Truthful, running]
  | cons event first ih =>
    rw [List.cons_append, Truthful, Truthful, ih, running, Int.add_assoc, and_assoc]

/-- The events tell the truth, and every body that starts also ends. -/
structure Bracketed (limits : Limits) (around : Nat) (events : List Event) : Prop where
  truthful : Truthful limits around events
  balanced : running events = 0

namespace Bracketed

variable {limits : Limits} {around : Nat}

theorem nil : Bracketed limits around [] :=
  ⟨trivial, rfl⟩

theorem append {first second : List Event} (h : Bracketed limits around first)
    (h' : Bracketed limits around second) : Bracketed limits around (first ++ second) where
  truthful := by
    rw [truthful_append_iff, h.balanced, Int.add_zero]
    exact ⟨h.truthful, h'.truthful⟩
  balanced := by rw [running_append, h.balanced, h'.balanced, Int.add_zero]

theorem look : Bracketed limits around [.look around] :=
  ⟨⟨rfl, trivial⟩, rfl⟩

theorem refuse (deep : limits.maxDepth < around) : Bracketed limits around [.refuse around] :=
  ⟨⟨⟨rfl, deep⟩, trivial⟩, rfl⟩

theorem enclose {events : List Event} (shallow : around ≤ limits.maxDepth)
    (h : Bracketed limits (around + 1) events) :
    Bracketed limits around (.start (around + 1) :: events ++ [.stop]) where
  truthful := by
    refine ⟨⟨by simp, Nat.succ_le_succ shallow⟩, truthful_append_iff.mpr ⟨h.truthful, ?_, trivial⟩⟩
    rw [h.balanced]
    simp only [Event.Truthful, Event.change]
    omega
  balanced := by
    rw [running_append, running, h.balanced]
    rfl

end Bracketed

theorem Request.events_bracketed {limits : Limits} {object : Progress → List Event} {p : Progress}
    (h : ∀ q : Progress, q.depth = p.depth → Bracketed limits p.depth (object q))
    (request : Request) : Bracketed limits p.depth (request.events object p) := by
  cases request with
  | look => exact .look
  | object => exact h p rfl
  | objectIn source => exact h { p with cursor := source } rfl
  | take | seek | moveTo => exact .nil

theorem Decoder.events_bracketed {limits : Limits} {scope : Scope V}
    {object : Progress → List Event} (stays : ∀ p : Progress, p.Stays (scope.object p).2)
    {around : Nat} (h : ∀ q : Progress, q.depth = around → Bracketed limits around (object q))
    (d : Decoder V α) {p : Progress} (depth : p.depth = around) :
    Bracketed limits around (d.events scope object p) := by
  subst depth
  induction d generalizing p with
  | done result => exact .nil
  | ask request next ih =>
    have after := (scope.answer_stays stays request p).depth
    refine (request.events_bracketed h).append ?_
    -- The rest runs at the same depth again, so the induction hypothesis speaks of it.
    have rest := ih (scope.answer request p).1 (p := (scope.answer request p).2)
    rw [after] at rest
    exact rest h

/-- What is left of the levels and the bodies around add up to the limit. -/
theorem Registry.events_bracketed (registry : Registry V) {limits : Limits} {room around : Nat}
    (sum : around + room = limits.maxDepth + 1) {p : Progress} (depth : p.depth = around) :
    Bracketed limits around (registry.events limits room p) := by
  induction room generalizing around p with
  | zero =>
    unfold Registry.events
    have found := (registry.dispatch_stays p).depth
    generalize registry.dispatch p = run at found
    obtain ⟨e | constructor, q⟩ := run
    · exact .nil
    · obtain rfl : q.depth = around := found.trans depth
      exact .refuse (by omega)
  | succ room ih =>
    unfold Registry.events
    have found := (registry.dispatch_stays p).depth
    generalize registry.dispatch p = run at found
    obtain ⟨e | constructor, q⟩ := run
    · exact .nil
    · obtain rfl : q.depth = around := found.trans depth
      refine .enclose (by omega) ?_
      exact constructor.body.events_bracketed (registry.object_stays limits room)
        (fun p depth => ih (by omega) depth) rfl

theorem Reader.events_bracketed (registry : Registry V) (limits : Limits) (d : Decoder V α)
    (c : Cursor) : Bracketed limits 0 (Reader.events { registry, limits } d c) :=
  d.events_bracketed (registry.object_stays limits _)
    (fun _ depth => registry.events_bracketed (Nat.zero_add _) depth) rfl

/-! ## One call after the other -/

/-- A call on a reader: something to read, and where. -/
structure Call (V : Type) where
  Value : Type
  decoder : Decoder V Value
  cursor : Cursor

/-- The reader after some calls, whether they gave values or faults. -/
def Reader.after (reader : Reader V) (calls : List (Call V)) : Reader V :=
  calls.foldl (fun reader call => (reader.run call.decoder call.cursor).reader) reader

/-- One constructor. Its body reads two objects and carries on without those that fail. -/
def patient : Registry Nat where
  constructors := [{
    id := 1
    name := "patient"
    body := do
      let left ← tryCatch .object fun _ => pure 0
      let right ← tryCatch .object fun _ => pure 0
      return left + right + 1 }]
  nodup := by decide

-- The second object lies too deep, and the third one is not there.
example : Reader.events { registry := patient, limits := { maxDepth := 0 } } Decoder.object
    (.start ⟨#[1, 0, 0, 0, 1, 0, 0, 0]⟩) = [.start 1, .refuse 1, .stop] := by
  rfl

end TaggedWire
