import TaggedWire.Fault

/-!
# The cursor

A position in a buffer that never changes. Reads go forward, moves go anywhere in the buffer, and
neither leads out of it.
-/

namespace TaggedWire

/-- A buffer and a position in it, its end included. -/
structure Cursor where
  buffer : ByteArray
  position : Nat
  position_le : position ≤ buffer.size

namespace Cursor

def start (buffer : ByteArray) : Cursor :=
  ⟨buffer, 0, Nat.zero_le _⟩

def remaining (c : Cursor) : Nat :=
  c.buffer.size - c.position

def isExhausted (c : Cursor) : Bool :=
  c.remaining == 0

/-- The bytes that are left. -/
def rest (c : Cursor) : List UInt8 :=
  c.buffer.data.toList.drop c.position

/-- The cursor `count` bytes further on. -/
def advance (c : Cursor) (count : Nat) (h : count ≤ c.remaining) : Cursor :=
  ⟨c.buffer, c.position + count, by have := c.position_le; unfold remaining at h; omega⟩

/-- The next `count` bytes and the cursor after them. -/
def take (c : Cursor) (count : Nat) : Except Fault (ByteArray × Cursor) :=
  if h : count ≤ c.remaining then
    .ok (c.buffer.extract c.position (c.position + count), c.advance count h)
  else
    .error (.underrun count c.remaining)

/-- The cursor `offset` bytes further on. A target beyond 64 bits counts as the nearest number. -/
def seek (c : Cursor) (offset : Int64) : Except Fault Cursor :=
  let target := Int64.ofIntClamp (c.position + offset.toInt)
  if h : 0 ≤ target.toInt ∧ target.toInt ≤ c.buffer.size then
    .ok ⟨c.buffer, target.toInt.toNat, by omega⟩
  else
    .error (.outOfBounds target c.buffer.size)

/-- The cursor at `target`. The fault shows a target of 63 bits or more as a negative number. -/
def moveTo (c : Cursor) (target : UInt64) : Except Fault Cursor :=
  if h : target.toNat ≤ c.buffer.size then
    .ok ⟨c.buffer, target.toNat, h⟩
  else
    .error (.outOfBounds target.toInt64 c.buffer.size)

theorem position_add_remaining (c : Cursor) : c.position + c.remaining = c.buffer.size := by
  have := c.position_le
  unfold remaining
  omega

theorem length_rest (c : Cursor) : c.rest.length = c.remaining := by
  rw [rest, List.length_drop, Array.length_toList, remaining, ByteArray.size_data]

theorem rest_advance (c : Cursor) (count : Nat) (h : count ≤ c.remaining) :
    (c.advance count h).rest = c.rest.drop count := by
  rw [rest, rest, List.drop_drop]
  rfl

theorem toList_extract (c : Cursor) (count : Nat) :
    (c.buffer.extract c.position (c.position + count)).data.toList = c.rest.take count := by
  rw [rest, ByteArray.data_extract, Array.toList_extract, List.extract_eq_take_drop,
    Nat.add_sub_cancel_left]

end Cursor

end TaggedWire
