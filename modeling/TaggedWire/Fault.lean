import TaggedWire.Display
import TaggedWire.Utf8

/-!
# What can go wrong

One constructor for each cause, with the facts that its message names.
-/

namespace TaggedWire

/-- Why a read, a write or a registration was refused. -/
inductive Fault where
  | underrun (needed remaining : Nat)
  | unknownConstructor (id : UInt32)
  | malformedText (flaw : Utf8.Flaw)
  /-- Another constructor stands where one of the type `expected` has to. -/
  | unexpectedConstructor (expected : String) (found : UInt32)
  | tooDeep (limit : Nat)
  | vectorTooLong (count limit : Nat)
  | negativeCount (count : Int32)
  | outOfBounds (position : Int64) (size : Nat)
  /-- The width of an integer is zero or no whole number of bytes. -/
  | invalidWidth (bits : Nat)
  /-- A payload is too long for a 24-bit size. -/
  | payloadTooLarge (size max : Nat)
  /-- A vector has more elements than a signed 32-bit count can say. -/
  | countOverflow (count : Nat)
  | duplicateConstructor (id : UInt32)
  deriving DecidableEq, Repr

def Fault.message : Fault → String
  | .underrun needed remaining =>
    s!"buffer underrun: need {needed} bytes, {remaining} remaining"
  | .unknownConstructor id => s!"unknown type identifier {Hex.ofWord id}"
  | .malformedText flaw => s!"invalid utf-8 in string payload: {flaw.message}"
  | .unexpectedConstructor expected found =>
    s!"expected {expected}, found constructor {Hex.ofWord found}"
  | .tooDeep limit => s!"object nesting exceeds depth limit of {limit}"
  | .vectorTooLong count limit => s!"vector of {count} elements exceeds limit of {limit}"
  | .negativeCount count => s!"negative vector length: {count.toInt}"
  | .outOfBounds position size =>
    s!"position {position.toInt} outside buffer of {size} bytes"
  | .invalidWidth bits => s!"invalid integer width: {bits} bits"
  | .payloadTooLarge size max => s!"byte-string of {size} bytes exceeds maximum of {max}"
  | .countOverflow count => s!"vector of {count} elements exceeds the 32-bit count field"
  | .duplicateConstructor id => s!"constructor {Hex.ofWord id} registered twice"

end TaggedWire
