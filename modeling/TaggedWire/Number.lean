import TaggedWire.Display
import TaggedWire.LittleEndian

/-!
# Numbers that are kept as they travel

A float is its bit pattern, so all patterns are told apart, also those that are no number. A wide
integer is its bytes, any whole number of them. Narrowing it to 128 bits succeeds exactly when the
number fits.
-/

namespace TaggedWire

/-! ## Binary floats -/

/-- A float of 32 bits: a sign, 8 bits of exponent, 23 of fraction. -/
structure Binary32 where
  bits : UInt32
  deriving DecidableEq, Repr

/-- A float of 64 bits: a sign, 11 bits of exponent, 52 of fraction. -/
structure Binary64 where
  bits : UInt64
  deriving DecidableEq, Repr

/-- A full exponent with a fraction other than zero is no number. -/
def Binary32.isNaN (x : Binary32) : Bool :=
  0x7f800000 < (x.bits &&& 0x7fffffff)

/-- A full exponent with a fraction other than zero is no number. -/
def Binary64.isNaN (x : Binary64) : Bool :=
  0x7ff0000000000000 < (x.bits &&& 0x7fffffffffffffff)

/-! ## Wide integers -/

/-- Little-endian bytes, read as two's complement if `signed`. -/
structure WideInt where
  bytes : ByteArray
  signed : Bool

namespace WideInt

/-- Two wide integers are equal if they travel alike, whatever numbers they stand for. -/
instance : DecidableEq WideInt := fun a b =>
  match ByteArray.instDecidableEq a.bytes b.bytes, instDecidableEqBool a.signed b.signed with
  | isTrue sameBytes, isTrue sameSign => isTrue (by cases a; cases b; simp_all)
  | isFalse other, _ => isFalse fun same => other (congrArg bytes same)
  | _, isFalse other => isFalse fun same => other (congrArg signed same)

def bits (n : WideInt) : Nat :=
  8 * n.bytes.size

/-- A signed number is below zero when the top bit of its last byte is set. -/
def isNegative (n : WideInt) : Bool :=
  n.signed && n.bytes.data.back?.any (0x80 ≤ ·)

/-- The byte that widens the number without changing it. -/
def fill (n : WideInt) : UInt8 :=
  if n.isNegative then 0xff else 0

/-- The number in 16 bytes, `none` if a byte is lost that is more than fill. -/
def narrowed? (n : WideInt) : Option (List UInt8) :=
  let bytes := n.bytes.data.toList
  if (bytes.drop 16).all (· == n.fill) then
    some (bytes.take 16 ++ List.replicate (16 - bytes.length) n.fill)
  else
    none

/-- The number, if it fits 128 bits in two's complement. The sign has to survive the cut. -/
def toInt128? (n : WideInt) : Option Int := do
  let narrow := LittleEndian.signedValue (← n.narrowed?)
  if decide (narrow < 0) = n.isNegative then some narrow else none

/-- The number, if it fits 128 bits without a sign. -/
def toUInt128? (n : WideInt) : Option Nat :=
  if n.isNegative then none else n.narrowed?.map LittleEndian.value

/-- All digits, the most significant first. -/
def hex (n : WideInt) : String :=
  "0x" ++ Hex.ofBytes n.bytes.data.toList.reverse

end WideInt

end TaggedWire
