/-!
# Little-endian numbers

The first byte counts least. `value` and `encode` undo each other on numbers that fit the width.
-/

namespace TaggedWire.LittleEndian

/-- The number that the bytes stand for. -/
def value : List UInt8 → Nat
  | [] => 0
  | b :: rest => b.toNat + 256 * value rest

/-- The low `width` bytes of `n`. -/
def encode : (width : Nat) → (n : Nat) → List UInt8
  | 0, _ => []
  | width + 1, n => UInt8.ofNat n :: encode width (n / 256)

/-- How many numbers there are of a width. -/
def count : (width : Nat) → Nat
  | 0 => 1
  | width + 1 => 256 * count width

/-- The number in two's complement over the full width: a set top bit makes it negative. -/
def signedValue (bytes : List UInt8) : Int :=
  if 2 * value bytes < count bytes.length then value bytes
  else (value bytes : Int) - count bytes.length

@[simp] theorem length_encode (width n : Nat) : (encode width n).length = width := by
  induction width generalizing n with
  | zero => rfl
  | succ width ih => simp [encode, ih]

theorem value_lt (bytes : List UInt8) : value bytes < count bytes.length := by
  induction bytes with
  | nil => simp [value, count]
  | cons b rest ih =>
    have := b.toNat_lt
    simp only [value, List.length_cons, count]
    omega

theorem value_encode (width n : Nat) : value (encode width n) = n % count width := by
  induction width generalizing n with
  | zero => simp [encode, value, count, Nat.mod_one]
  | succ width ih =>
    have split : n % (256 * count width) = n % 256 + 256 * (n / 256 % count width) := Nat.mod_mul
    simp only [encode, value, ih, count, UInt8.toNat_ofNat', split]

theorem encode_value (bytes : List UInt8) : encode bytes.length (value bytes) = bytes := by
  induction bytes with
  | nil => rfl
  | cons b rest ih =>
    have := b.toNat_lt
    have low : UInt8.ofNat (b.toNat + 256 * value rest) = b := by
      apply UInt8.toNat_inj.mp
      simp only [UInt8.toNat_ofNat']
      omega
    have high : (b.toNat + 256 * value rest) / 256 = value rest := by omega
    simp only [List.length_cons, value, encode, low, high, ih]

/-! ## Words -/

/-- The 32-bit word in the first four bytes. -/
def word32 (bytes : ByteArray) : UInt32 :=
  UInt32.ofNat (value bytes.data.toList)

/-- The 64-bit word in the first eight bytes. -/
def word64 (bytes : ByteArray) : UInt64 :=
  UInt64.ofNat (value bytes.data.toList)

def ofWord32 (word : UInt32) : ByteArray :=
  (encode 4 word.toNat).toByteArray

def ofWord64 (word : UInt64) : ByteArray :=
  (encode 8 word.toNat).toByteArray

theorem word32_ofWord32 (word : UInt32) : word32 (ofWord32 word) = word := by
  apply UInt32.toNat_inj.mp
  have := word.toNat_lt
  simp only [word32, ofWord32, List.data_toByteArray, value_encode, count, UInt32.toNat_ofNat']
  omega

end TaggedWire.LittleEndian
