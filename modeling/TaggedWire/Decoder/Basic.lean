import TaggedWire.Cursor

/-!
# Decoders

A decoder is a program that asks its reader for one thing after another and ends in a value or a
fault. It reaches the cursor and the nesting only through its requests, so what holds of every
request holds of every decoder. A fault is an answer like any other: a decoder may pass it on or
carry on without the part that failed.
-/

namespace TaggedWire

/-! ## Limits

The format bounds neither nesting nor counts, so the reader does.
-/

/-- What a reader accepts. -/
structure Limits where
  /-- How many levels of objects may lie below the outermost one. -/
  maxDepth : Nat := 64
  maxVectorSize : Nat := 0x100000
  deriving DecidableEq, Repr

/--
Slots to reserve for a vector. An element takes four bytes or more, so a count above a quarter of
what remains cannot be met, and reserving more would only help an attacker.
-/
def reservedSlots (count remaining : Nat) : Nat :=
  min count (remaining / 4)

/-! ## Requests -/

structure Label where
  id : UInt32
  name : String
  deriving DecidableEq, Repr

/-- What a decoder sees without reading. -/
structure Surroundings where
  cursor : Cursor
  /-- How many objects are being read. -/
  depth : Nat
  limits : Limits
  /-- The registered constructors, in the order of their registration. -/
  labels : List Label

/-- One thing to ask of a reader. -/
inductive Request where
  | look
  | take (count : Nat)
  | seek (offset : Int64)
  | moveTo (target : UInt64)
  /-- Read an object, its identifier first. -/
  | object
  /-- Read an object from another buffer. The own cursor stays where it is. -/
  | objectIn (source : Cursor)

/-- What comes back for a request. `V` is what objects are read as. -/
abbrev Request.Answer (V : Type) : Request → Type
  | .look => Surroundings
  | .take _ => Except Fault ByteArray
  | .seek _ => Except Fault Unit
  | .moveTo _ => Except Fault Unit
  | .object => Except Fault (UInt32 × V)
  | .objectIn _ => Except Fault (UInt32 × V) × Cursor

/-- A program that reads an `α`, with objects read as `V`. -/
inductive Decoder (V : Type) (α : Type) : Type where
  | done (result : Except Fault α)
  | ask (request : Request) (next : request.Answer V → Decoder V α)

namespace Decoder

variable {V α β : Type}

/-! ## Sequencing -/

/-- Goes on with the value. A fault ends the whole. -/
def bind : Decoder V α → (α → Decoder V β) → Decoder V β
  | .done (.ok a), f => f a
  | .done (.error e), _ => .done (.error e)
  | .ask request next, f => .ask request fun answer => (next answer).bind f

/-- Goes on with another decoder after a fault, from where the first one stopped. -/
def orElse : Decoder V α → (Fault → Decoder V α) → Decoder V α
  | .done (.ok a), _ => .done (.ok a)
  | .done (.error e), handle => handle e
  | .ask request next, handle => .ask request fun answer => (next answer).orElse handle

instance : Monad (Decoder V) where
  pure a := .done (.ok a)
  bind := bind

instance : MonadExceptOf Fault (Decoder V) where
  throw e := .done (.error e)
  tryCatch := orElse

@[simp] theorem throw_bind (e : Fault) (f : α → Decoder V β) :
    (throw e : Decoder V α) >>= f = throw e :=
  rfl

@[simp] theorem ask_bind (request : Request) (next : request.Answer V → Decoder V α)
    (f : α → Decoder V β) :
    Decoder.ask request next >>= f = Decoder.ask request fun answer => next answer >>= f :=
  rfl

instance : LawfulMonad (Decoder V) := LawfulMonad.mk' (Decoder V)
  (by
    intro α d
    change d.bind pure = d
    induction d with
    | done r => cases r <;> rfl
    | ask request next ih => simp only [bind, ih])
  (by intros; rfl)
  (by
    intro α β γ d f g
    change (d.bind f).bind g = d.bind fun a => (f a).bind g
    induction d with
    | done r => cases r <;> rfl
    | ask request next ih => simp only [bind, ih])

/-! ## Single requests -/

def look : Decoder V Surroundings :=
  .ask .look fun seen => .done (.ok seen)

def take (count : Nat) : Decoder V ByteArray :=
  .ask (.take count) .done

def seek (offset : Int64) : Decoder V Unit :=
  .ask (.seek offset) .done

def moveTo (target : UInt64) : Decoder V Unit :=
  .ask (.moveTo target) .done

/-- An object and the identifier it came under. -/
def labelled : Decoder V (UInt32 × V) :=
  .ask .object .done

def object : Decoder V V :=
  Prod.snd <$> labelled

/-- The object at the start of a buffer. What follows it there is ignored. -/
def objectIn (buffer : ByteArray) : Decoder V V :=
  .ask (.objectIn (.start buffer)) fun answer => .done (answer.1.map Prod.snd)

end Decoder

end TaggedWire
