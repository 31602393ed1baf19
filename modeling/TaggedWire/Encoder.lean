import TaggedWire.Fault
import TaggedWire.LittleEndian
import TaggedWire.Number
import TaggedWire.Wire

/-!
# Encoders

An encoder appends to the bytes written so far. Sizes are judged before the first byte of a value is
written, and what was written before a fault stays.
-/

namespace TaggedWire

/-- A program that appends bytes and may end in a fault. -/
abbrev Encoder (α : Type) := ExceptT Fault (StateM ByteArray) α

namespace Encoder

variable {α β : Type}

/-- Runs an encoder after the bytes written so far. -/
def run (encoder : Encoder α) (written : ByteArray) : Except Fault α × ByteArray :=
  StateT.run (ExceptT.run encoder) written

def raw (bytes : ByteArray) : Encoder Unit :=
  modify (· ++ bytes)

/-! ## Runs -/

@[simp] theorem run_pure (a : α) (written : ByteArray) :
    (pure a : Encoder α).run written = (.ok a, written) :=
  rfl

@[simp] theorem run_throw (e : Fault) (written : ByteArray) :
    (throw e : Encoder α).run written = (.error e, written) :=
  rfl

theorem run_bind (first : Encoder α) (second : α → Encoder β) (written : ByteArray) :
    (first >>= second).run written =
      match first.run written with
      | (.ok a, more) => (second a).run more
      | (.error e, more) => (.error e, more) := by
  simp only [run, ExceptT.run_bind, StateT.run_bind]
  cases StateT.run (ExceptT.run first) written with
  | mk result more => cases result <;> rfl

/-! ## Numbers -/

def byte (value : UInt8) : Encoder Unit :=
  modify (·.push value)

@[simp] theorem run_byte (value : UInt8) (written : ByteArray) :
    (byte value).run written = (.ok (), written.push value) :=
  rfl

def uint32 (value : UInt32) : Encoder Unit :=
  raw (LittleEndian.ofWord32 value)

def int32 (value : Int32) : Encoder Unit :=
  uint32 value.toUInt32

def uint64 (value : UInt64) : Encoder Unit :=
  raw (LittleEndian.ofWord64 value)

def int64 (value : Int64) : Encoder Unit :=
  uint64 value.toUInt64

def binary32 (value : Binary32) : Encoder Unit :=
  uint32 value.bits

def binary64 (value : Binary64) : Encoder Unit :=
  uint64 value.bits

def wideInt (value : WideInt) : Encoder Unit :=
  raw value.bytes

/-- A truth value is one of two identifiers. -/
def bool (value : Bool) : Encoder Unit :=
  uint32 (if value then Tag.boolTrue else Tag.boolFalse)

/-! ## Byte strings -/

def zeros (count : Nat) : Encoder Unit :=
  raw (List.replicate count 0).toByteArray

/-- The record of a byte string, in the short form where it can be. -/
def bytes (payload : ByteArray) : Encoder Unit := do
  let size := payload.size
  if size < ByteString.longMarker.toNat then
    byte (UInt8.ofNat size)
    raw payload
    zeros (ByteString.padding (1 + size))
  else if size ≤ ByteString.maxSize then
    byte ByteString.longMarker
    raw (LittleEndian.encode 3 size).toByteArray
    raw payload
    zeros (ByteString.padding size)
  else
    throw (.payloadTooLarge size ByteString.maxSize)

/-- A text as the byte string of its UTF-8 form. -/
def text (value : String) : Encoder Unit :=
  bytes value.toByteArray

/-! ## Vectors -/

/-- The identifier and the count of a vector. -/
def vectorHeader (count : Nat) : Encoder Unit :=
  if count < 0x80000000 then do
    uint32 Tag.vector
    uint32 (UInt32.ofNat count)
  else
    throw (.countOverflow count)

/-- A vector whose elements are written by `element`. The first fault of an element ends it. -/
def vector (items : Array α) (element : α → Encoder Unit) : Encoder Unit := do
  vectorHeader items.size
  items.toList.forM element

end Encoder

end TaggedWire
