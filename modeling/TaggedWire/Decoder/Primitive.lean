import TaggedWire.Decoder.Basic
import TaggedWire.LittleEndian
import TaggedWire.Number
import TaggedWire.Wire

/-!
# Reading single values

A number takes its bytes in one piece, so a failed read leaves the cursor where it was. A byte
string is read in parts, and a cut one leaves the cursor at the part that is missing.
-/

namespace TaggedWire.Decoder

variable {V : Type}

/-! ## Numbers -/

def byte : Decoder V UInt8 := do
  return UInt8.ofNat (LittleEndian.value (← take 1).data.toList)

def uint32 : Decoder V UInt32 := do
  return LittleEndian.word32 (← take 4)

def int32 : Decoder V Int32 := do
  return (← uint32).toInt32

def uint64 : Decoder V UInt64 := do
  return LittleEndian.word64 (← take 8)

def int64 : Decoder V Int64 := do
  return (← uint64).toInt64

def binary32 : Decoder V Binary32 := do
  return ⟨← uint32⟩

def binary64 : Decoder V Binary64 := do
  return ⟨← uint64⟩

/-- A number of 128 bits as it travels. -/
def raw128 : Decoder V ByteArray :=
  take 16

def raw256 : Decoder V ByteArray :=
  take 32

/-- An integer of `bits` bits, which have to be whole bytes and at least one. -/
def wideInt (bits : Nat) (signed : Bool) : Decoder V WideInt :=
  if bits = 0 ∨ bits % 8 ≠ 0 then
    throw (.invalidWidth bits)
  else do
    return ⟨← take (bits / 8), signed⟩

/-- A truth value is one of two identifiers. -/
def bool : Decoder V Bool := do
  let id ← uint32
  if id = Tag.boolTrue then return true
  else if id = Tag.boolFalse then return false
  else throw (.unexpectedConstructor "Bool" id)

/-! ## Byte strings -/

/-- The size of the payload, and how many bytes of padding come after it. -/
def recordHeader : Decoder V (Nat × Nat) := do
  let first ← byte
  if first = ByteString.longMarker then
    let size := LittleEndian.value (← take 3).data.toList
    return (size, ByteString.padding size)
  else
    return (first.toNat, ByteString.padding (1 + first.toNat))

/-- The payload of a record. The padding has to be there, whatever it holds. -/
def bytes : Decoder V ByteArray := do
  let (size, padding) ← recordHeader
  let payload ← take size
  if padding ≠ 0 then
    let _ ← take padding
  return payload

/-- A byte string that holds UTF-8. The whole record is read before it is judged. -/
def text : Decoder V String := do
  let payload ← bytes
  match String.fromUTF8? payload with
  | some text => return text
  | none => throw (.malformedText (Utf8.firstFlaw payload.data.toList))

end TaggedWire.Decoder
