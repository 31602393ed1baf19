import Mathlib.Algebra.Ring.Int.Defs
import Mathlib.Tactic.LinearCombination
import Mathlib.Tactic.Ring
import Mathlib.Tactic.Zify
import TaggedWire.Number

/-!
# The numbers that wide integers stand for

A wide integer of any width is a number, and narrowing to 128 bits gives that number just if it lies
in the range. Bytes that only repeat the sign may be missing or too many.
-/

namespace TaggedWire

/-! ## Rows of bytes -/

namespace LittleEndian

theorem count_eq_pow (width : Nat) : count width = 2 ^ (8 * width) := by
  induction width with
  | zero => rfl
  | succ width ih =>
    rw [count, ih, Nat.mul_succ, Nat.pow_add]
    omega

theorem count_add (a b : Nat) : count (a + b) = count a * count b := by
  simp only [count_eq_pow, Nat.mul_add, Nat.pow_add]

theorem value_append (low high : List UInt8) :
    value (low ++ high) = value low + count low.length * value high := by
  induction low with
  | nil => simp [value, count]
  | cons b low ih =>
    simp only [List.cons_append, value, ih, List.length_cons, count]
    ring

theorem value_injective {a b : List UInt8} (length : a.length = b.length)
    (same : value a = value b) : a = b := by
  rw [← encode_value a, ← encode_value b, length, same]

theorem top_bit_iff (bytes : List UInt8) :
    bytes.getLast?.any (0x80 ≤ ·) = true ↔ count bytes.length ≤ 2 * value bytes := by
  rcases List.eq_nil_or_concat bytes with rfl | ⟨low, top, rfl⟩
  · simp [value, count]
  · have below := value_lt low
    have whole : (low ++ [top]).length = low.length + 1 := by simp
    have half : (0x80 : UInt8).toNat = 0x80 := rfl
    simp only [List.concat_eq_append, List.getLast?_concat, Option.any_some, decide_eq_true_eq,
      value_append, whole, count, value, UInt8.le_iff_toNat_le, half, Nat.mul_zero, Nat.add_zero]
    constructor
    · intro upper
      have := Nat.mul_le_mul_left (count low.length) upper
      omega
    · intro upper
      by_contra lower
      have := Nat.mul_le_mul_left (count low.length) (Nat.le_of_lt_succ (Nat.lt_of_not_le lower))
      omega

end LittleEndian

namespace WideInt

open LittleEndian

/-- The number that the bytes stand for, in two's complement over their full width if signed. -/
def toInt (n : WideInt) : Int :=
  let number := value n.bytes.data.toList
  if n.signed ∧ 2 ^ n.bits ≤ 2 * number then number - 2 ^ n.bits else number

variable (n : WideInt)

theorem count_length : count n.bytes.data.toList.length = 2 ^ n.bits := by
  simp [count_eq_pow, bits]

theorem isNegative_iff_upper :
    n.isNegative = true ↔
      n.signed = true ∧ 2 ^ n.bits ≤ 2 * value n.bytes.data.toList := by
  rw [isNegative, Bool.and_eq_true, ← Array.getLast?_toList, top_bit_iff, count_length]

theorem toInt_eq :
    n.toInt = value n.bytes.data.toList - if n.isNegative then 2 ^ n.bits else 0 := by
  unfold toInt
  simp only [n.isNegative_iff_upper]
  split <;> simp

theorem isNegative_iff : n.isNegative = true ↔ n.toInt < 0 := by
  have below := value_lt n.bytes.data.toList
  rw [count_length] at below
  have below : (value n.bytes.data.toList : Int) < 2 ^ n.bits := by exact_mod_cast below
  rw [toInt_eq]
  cases n.isNegative <;> simp
  omega

/-! ## Widening and cutting -/

/-- The bytes that narrowing keeps, filled up if there are fewer. -/
def lowBytes : List UInt8 :=
  n.bytes.data.toList.take 16 ++ List.replicate (16 - n.bytes.data.toList.length) n.fill

def highBytes : List UInt8 :=
  n.bytes.data.toList.drop 16

theorem narrowed?_eq_ite :
    n.narrowed? = if n.highBytes.all (· == n.fill) then some n.lowBytes else none :=
  rfl

theorem count_sixteen : count 16 = 2 ^ 128 :=
  count_eq_pow 16

theorem length_lowBytes : n.lowBytes.length = 16 := by
  simp [lowBytes]
  omega

theorem value_fill (width : Nat) :
    (value (List.replicate width n.fill) : Int) =
      if n.isNegative then (count width : Int) - 1 else 0 := by
  induction width with
  | zero => simp [value, count]
  | succ width ih =>
    rw [List.replicate_succ, value, count]
    cases negative : n.isNegative <;> simp [fill, negative] at ih ⊢ <;> omega

theorem highBytes_all_iff :
    n.highBytes.all (· == n.fill) = true ↔
      value n.highBytes = value (List.replicate n.highBytes.length n.fill) := by
  have row : n.highBytes.all (· == n.fill) = true ↔
      n.highBytes = List.replicate n.highBytes.length n.fill := by
    simp [List.eq_replicate_iff]
  rw [row]
  constructor
  · exact congrArg _
  · exact value_injective (by simp)

theorem value_low_add_high :
    n.toInt + (if n.isNegative then 2 ^ 128 * (count n.highBytes.length : Int) else 0) =
      value n.lowBytes + 2 ^ 128 * value n.highBytes := by
  let extra := 16 - n.bytes.data.toList.length
  have rows : n.bytes.data.toList ++ List.replicate extra n.fill = n.lowBytes ++ n.highBytes := by
    rcases Nat.le_total n.bytes.data.toList.length 16 with short | long
    · simp only [lowBytes, highBytes, extra, List.take_of_length_le short,
        List.drop_of_length_le short, List.append_nil]
    · simp only [lowBytes, highBytes, extra, Nat.sub_eq_zero_of_le long, List.replicate_zero,
        List.append_nil, List.take_append_drop]
  have lengths : n.bytes.data.toList.length + extra = 16 + n.highBytes.length := by
    simpa [length_lowBytes] using congrArg List.length rows
  have values := congrArg value rows
  have counts := congrArg count lengths
  rw [value_append, value_append, length_lowBytes, count_length] at values
  rw [count_add, count_add, count_length] at counts
  have fill := n.value_fill extra
  have toInt := n.toInt_eq
  rw [count_sixteen] at values counts
  zify at values counts
  rw [fill] at values
  cases negative : n.isNegative <;>
    simp only [negative, Bool.false_eq_true, reduceIte] at values toInt ⊢
  · linear_combination values + toInt
  · linear_combination values - counts + toInt

/-- Narrowing cuts a number to its low bytes, if it fits one bit more than these. -/
theorem narrowed?_eq :
    n.narrowed? =
      if -2 ^ 128 ≤ n.toInt ∧ n.toInt < 2 ^ 128 then
        some (encode 16 (n.toInt % 2 ^ 128).toNat)
      else none := by
  have parts := n.value_low_add_high
  have fill := n.value_fill n.highBytes.length
  have lows := value_lt n.lowBytes
  rw [length_lowBytes, count_sixteen] at lows
  have highs := value_lt n.highBytes
  have fits : n.highBytes.all (· == n.fill) = true ↔ -2 ^ 128 ≤ n.toInt ∧ n.toInt < 2 ^ 128 := by
    rw [highBytes_all_iff]
    cases negative : n.isNegative <;> simp [negative] at fill parts <;> omega
  rw [narrowed?_eq_ite]
  simp only [fits]
  split
  next inside =>
    have number : (n.toInt % 2 ^ 128).toNat = value n.lowBytes := by
      cases negative : n.isNegative <;> simp [negative] at fill parts <;> omega
    have same := encode_value n.lowBytes
    rw [length_lowBytes] at same
    rw [number, same]
  next => rfl

/-- The bytes of a number, read as two's complement, wrap it around the half. -/
theorem signedValue_encode (v : Int) :
    signedValue (encode 16 (v % 2 ^ 128).toNat) =
      (v + 2 ^ 127) % 2 ^ 128 - 2 ^ 127 := by
  unfold signedValue
  rw [value_encode, length_encode, count_sixteen]
  split <;> omega

theorem toInt128?_eq :
    n.toInt128? = if -2 ^ 127 ≤ n.toInt ∧ n.toInt < 2 ^ 127 then some n.toInt else none := by
  have sign : n.isNegative = decide (n.toInt < 0) := by
    rw [Bool.eq_iff_iff, isNegative_iff, decide_eq_true_iff]
  unfold toInt128?
  rw [narrowed?_eq]
  split
  next wide =>
    simp only [Option.bind_eq_bind, Option.bind_some, signedValue_encode, sign, decide_eq_decide]
    by_cases fits : -2 ^ 127 ≤ n.toInt ∧ n.toInt < 2 ^ 127
    · have same : (n.toInt + 2 ^ 127) % 2 ^ 128 - 2 ^ 127 = n.toInt := by omega
      rw [same, if_pos Iff.rfl, if_pos fits]
    · -- The wrapped number lies on the other side of zero.
      rw [if_neg (by omega), if_neg fits]
  next other =>
    rw [if_neg (by omega)]
    rfl

theorem toUInt128?_eq :
    n.toUInt128? = if 0 ≤ n.toInt ∧ n.toInt < 2 ^ 128 then some n.toInt.toNat else none := by
  have negative := n.isNegative_iff
  unfold toUInt128?
  rw [narrowed?_eq]
  by_cases below : n.toInt < 0
  · rw [if_pos (negative.mpr below), if_neg (by omega)]
  · rw [if_neg (mt negative.mp below)]
    by_cases fits : n.toInt < 2 ^ 128
    · have same : (n.toInt % 2 ^ 128).toNat = n.toInt.toNat := by omega
      rw [if_pos (by omega), if_pos (by omega), Option.map_some, value_encode,
        count_sixteen, same, Nat.mod_eq_of_lt (by omega)]
    · rw [if_neg (by omega), if_neg (by omega)]
      rfl

/-- A wide integer narrows to 128 bits just if its number lies in the range, and then to that
number. -/
theorem narrows_exactly :
    (n.isNegative = true ↔ n.toInt < 0) ∧
      (n.toInt128? = if -2 ^ 127 ≤ n.toInt ∧ n.toInt < 2 ^ 127 then some n.toInt else none) ∧
      n.toUInt128? = if 0 ≤ n.toInt ∧ n.toInt < 2 ^ 128 then some n.toInt.toNat else none :=
  ⟨n.isNegative_iff, n.toInt128?_eq, n.toUInt128?_eq⟩

-- The byte that is cut off only repeats the sign, but the sign is lost with it.
example : toInt128? ⟨(List.replicate 16 (0 : UInt8) ++ [0xff]).toByteArray, true⟩ = none := by
  decide

end WideInt

end TaggedWire
