/-!
# The forms of the wire

Identifiers that belong to the format itself, and the record of a byte string.
-/

/-! ## Identifiers

Truth values and vectors travel under an identifier, as objects do.
-/

namespace TaggedWire.Tag

def boolTrue : UInt32 := 0x997275b5

def boolFalse : UInt32 := 0xbc799737

def vector : UInt32 := 0x1cb5c415

end TaggedWire.Tag

/-! ## Records

A record is a size, the payload and padding up to a multiple of four bytes.

* Short form: one byte of size, for payloads below 254 bytes.
* Long form: the marker 254 and three bytes of size.

The size byte of the short form counts for the padding. The four bytes before a long payload do not
change it.
-/

namespace TaggedWire.ByteString

/-- The first byte of a record in the long form. -/
def longMarker : UInt8 := 254

/-- The largest payload that a 24-bit size can name. -/
def maxSize : Nat := 0xffffff

/-- Bytes from `size` up to the next multiple of four. -/
def padding (size : Nat) : Nat :=
  if size % 4 = 0 then 0 else 4 - size % 4

/-- The size of the record that a payload of `size` bytes is written as. -/
def recordSize (size : Nat) : Nat :=
  if size < longMarker.toNat then 1 + size + padding (1 + size) else 4 + size + padding size

theorem add_padding_mod (size : Nat) : (size + padding size) % 4 = 0 := by
  unfold padding
  split <;> omega

theorem recordSize_mod (size : Nat) : recordSize size % 4 = 0 := by
  have := add_padding_mod size
  have := add_padding_mod (1 + size)
  unfold recordSize
  split <;> omega

end TaggedWire.ByteString
