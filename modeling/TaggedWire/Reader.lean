import TaggedWire.Decoder.Primitive
import TaggedWire.Registry

/-!
# Readers

A reader answers the requests of decoders. To read an object it takes an identifier, looks it up and
runs the body that it finds, one level deeper. Every run ends, because a body can only go deeper as
long as the limit leaves room.
-/

namespace TaggedWire

variable {V α β : Type}

structure Progress where
  cursor : Cursor
  /-- How many objects are being read. -/
  depth : Nat

namespace Progress

def enter (p : Progress) : Progress :=
  { p with depth := p.depth + 1 }

def leave (p : Progress) : Progress :=
  { p with depth := p.depth - 1 }

/-- Takes bytes. Nothing changes on a fault. -/
def take (p : Progress) (count : Nat) : Except Fault ByteArray × Progress :=
  match p.cursor.take count with
  | .ok (bytes, cursor) => (.ok bytes, { p with cursor })
  | .error e => (.error e, p)

/-- Goes on from another cursor, if there is one. -/
def move (p : Progress) (target : Except Fault Cursor) : Except Fault Unit × Progress :=
  match target with
  | .ok cursor => (.ok (), { p with cursor })
  | .error e => (.error e, p)

end Progress

/-- What a decoder runs in: the rules that hold there and how objects are read. -/
structure Scope (V : Type) where
  limits : Limits
  labels : List Label
  object : Progress → Except Fault (UInt32 × V) × Progress

def Scope.answer (scope : Scope V) : (request : Request) → Progress → request.Answer V × Progress
  | .look, p => (⟨p.cursor, p.depth, scope.limits, scope.labels⟩, p)
  | .take count, p => p.take count
  | .seek offset, p => p.move (p.cursor.seek offset)
  | .moveTo target, p => p.move (p.cursor.moveTo target)
  | .object, p => scope.object p
  | .objectIn source, p =>
    let (result, after) := scope.object { p with cursor := source }
    ((result, after.cursor), { after with cursor := p.cursor })

namespace Decoder

/-- Runs a decoder. The progress is kept on a fault too. -/
def exec (scope : Scope V) : Decoder V α → Progress → Except Fault α × Progress
  | .done result, p => (result, p)
  | .ask request next, p =>
    let (answer, after) := scope.answer request p
    (next answer).exec scope after

@[simp] theorem exec_pure (scope : Scope V) (a : α) (p : Progress) :
    (pure a : Decoder V α).exec scope p = (.ok a, p) :=
  rfl

@[simp] theorem exec_throw (scope : Scope V) (e : Fault) (p : Progress) :
    (throw e : Decoder V α).exec scope p = (.error e, p) :=
  rfl

theorem exec_ask (scope : Scope V) (request : Request) (next : request.Answer V → Decoder V α)
    (p : Progress) :
    (Decoder.ask request next).exec scope p =
      (next (scope.answer request p).1).exec scope (scope.answer request p).2 :=
  rfl

theorem exec_bind (scope : Scope V) (d : Decoder V α) (f : α → Decoder V β) (p : Progress) :
    (d >>= f).exec scope p =
      match d.exec scope p with
      | (.ok a, after) => (f a).exec scope after
      | (.error e, after) => (.error e, after) := by
  change (d.bind f).exec scope p = _
  induction d generalizing p with
  | done r => cases r <;> rfl
  | ask request next ih => exact ih _ _

/-- The handler runs from where the fault left off. -/
theorem exec_tryCatch (scope : Scope V) (d : Decoder V α) (handle : Fault → Decoder V α)
    (p : Progress) :
    (tryCatch d handle).exec scope p =
      match d.exec scope p with
      | (.ok a, after) => (.ok a, after)
      | (.error e, after) => (handle e).exec scope after := by
  change (d.orElse handle).exec scope p = _
  induction d generalizing p with
  | done r => cases r <;> rfl
  | ask request next ih => exact ih _ _

end Decoder

namespace Registry

/-- Takes an identifier and finds its constructor. -/
def dispatch (registry : Registry V) (p : Progress) : Except Fault (Constructor V) × Progress :=
  match p.take 4 with
  | (.error e, after) => (.error e, after)
  | (.ok raw, after) =>
    let id := LittleEndian.word32 raw
    match registry.find? id with
    | some constructor => (.ok constructor, after)
    | none => (.error (.unknownConstructor id), after)

/--
Reads an object where `room` more levels may be opened. The identifier is looked up before the room
is looked at.
-/
def object (registry : Registry V) (limits : Limits) :
    (room : Nat) → Progress → Except Fault (UInt32 × V) × Progress
  | 0, p =>
    match registry.dispatch p with
    | (.error e, after) => (.error e, after)
    | (.ok _, after) => (.error (.tooDeep limits.maxDepth), after)
  | room + 1, p =>
    match registry.dispatch p with
    | (.error e, after) => (.error e, after)
    | (.ok constructor, after) =>
      let scope := ⟨limits, registry.labels, registry.object limits room⟩
      let (result, inside) := constructor.body.exec scope after.enter
      (result.map (constructor.id, ·), inside.leave)

end Registry

/-- A registry, the limits, and how many objects are being read. -/
structure Reader (V : Type) where
  registry : Registry V
  limits : Limits := {}
  depth : Nat := 0

structure Outcome (V α : Type) where
  result : Except Fault α
  cursor : Cursor
  reader : Reader V

namespace Reader

/-- How many levels the limit leaves. The outermost object lies at level zero. -/
def room (reader : Reader V) : Nat :=
  reader.limits.maxDepth + 1 - reader.depth

def scope (reader : Reader V) : Scope V :=
  ⟨reader.limits, reader.registry.labels, reader.registry.object reader.limits reader.room⟩

def run (reader : Reader V) (decoder : Decoder V α) (cursor : Cursor) : Outcome V α :=
  let (result, after) := decoder.exec reader.scope ⟨cursor, reader.depth⟩
  ⟨result, after.cursor, { reader with depth := after.depth }⟩

/-- The object at the start of a buffer. What follows it is ignored. -/
def decode (reader : Reader V) (buffer : ByteArray) : Except Fault V :=
  (reader.run .object (.start buffer)).result

end Reader

end TaggedWire
