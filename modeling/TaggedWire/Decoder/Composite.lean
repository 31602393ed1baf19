import TaggedWire.Decoder.Primitive

/-!
# Reading declared objects and vectors

An object of a declared type is any object, narrowed after it was read. A vector is its identifier,
a count and that many elements.
-/

namespace TaggedWire

/-- A type that a field may be declared as: its name, and which objects belong to it. -/
structure Kind (V T : Type) where
  name : String
  narrow? : V → Option T

namespace Decoder

variable {V T α : Type}

/-- An object of the declared type. Another one is read to its end before it is refused. -/
def typed (kind : Kind V T) : Decoder V T := do
  let (id, value) ← labelled
  match kind.narrow? value with
  | some narrow => return narrow
  | none => throw (.unexpectedConstructor kind.name id)

def elements (element : Decoder V α) : (count : Nat) → Array α → Decoder V (Array α)
  | 0, items => .done (.ok items)
  | count + 1, items =>
    match element with
    | .done (.ok item) => elements element count (items.push item)
    | .done (.error e) => .done (.error e)
    | .ask request next =>
      .ask request fun answer => (next answer).bind fun item =>
        elements element count (items.push item)

/-- An element that reads nothing is no exception, it only saves a turn through the reader. -/
theorem elements_succ (element : Decoder V α) (count : Nat) (items : Array α) :
    elements element (count + 1) items =
      element >>= fun item => elements element count (items.push item) := by
  match element with
  | .done (.ok _) | .done (.error _) | .ask _ _ => rfl

/-- The number of elements that a vector announces. It is judged before anything is reserved. -/
def vectorCount : Decoder V Nat := do
  let id ← uint32
  if id ≠ Tag.vector then throw (.unexpectedConstructor "Vector" id)
  let count ← int32
  if count < 0 then throw (.negativeCount count)
  let size := count.toNatClampNeg
  let limit := (← look).limits.maxVectorSize
  if limit < size then throw (.vectorTooLong size limit)
  return size

/-- A vector whose elements are read by `element`. -/
def vector (element : Decoder V α) : Decoder V (Array α) := do
  let count ← vectorCount
  let remaining := (← look).cursor.remaining
  elements element count (Array.emptyWithCapacity (reservedSlots count remaining))

def objectVector : Decoder V (Array V) :=
  vector object

def typedVector (kind : Kind V T) : Decoder V (Array T) :=
  vector (typed kind)

end Decoder

end TaggedWire
