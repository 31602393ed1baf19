import TaggedWire.Unicode

/-!
# Values as text

Numbers and texts in messages and summaries that a person reads.
-/

/-! ## Hexadecimal numbers

Digits are lower case, and every number has a fixed count of them.
-/

namespace TaggedWire.Hex

/-- The last `width` hexadecimal digits of `n`, leading zeros included. -/
def digits : (width : Nat) → (n : Nat) → List Char
  | 0, _ => []
  | width + 1, n => digits width (n / 16) ++ [Nat.digitChar (n % 16)]

/-- A 32-bit word as `0x` and eight digits. -/
def ofWord (word : UInt32) : String :=
  "0x" ++ String.ofList (digits 8 word.toNat)

/-- Two digits a byte, in the order of the bytes. -/
def ofBytes (bytes : List UInt8) : String :=
  String.ofList (bytes.flatMap fun b => digits 2 b.toNat)

end TaggedWire.Hex

/-! ## Quoted texts

The quote and the backslash get a backslash, common controls a letter, and any other character that
is not printable its number.
-/

namespace TaggedWire.Quoted

/-- A character by its number, without leading zeros. -/
def byNumber (c : Char) : List Char :=
  "\\u\x7b".toList ++ Nat.toDigits 16 c.toNat ++ "\x7d".toList

/-- How one character stands between the quotes. -/
def escape (c : Char) : List Char :=
  match c with
  | '"' => ['\\', '"']
  | '\\' => ['\\', '\\']
  | '\n' => ['\\', 'n']
  | '\r' => ['\\', 'r']
  | '\t' => ['\\', 't']
  | '\x00' => ['\\', '0']
  | c => if Unicode.isPrintable c then [c] else byNumber c

/-- The text between double quotes. -/
def ofText (text : String) : String :=
  String.ofList (['"'] ++ text.toList.flatMap escape ++ ['"'])

end TaggedWire.Quoted
