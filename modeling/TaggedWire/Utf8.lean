/-!
# Where bytes stop being UTF-8

A character is one byte, or a lead byte and one to three bytes that follow it. Each lead byte says
in which range each following byte lies, so that no character has two spellings and none lies in
the surrogates or above U+10FFFF.
-/

namespace TaggedWire.Utf8

/-- Why some bytes are not a text. The index counts the bytes before the bad character. -/
inductive Flaw where
  /-- `width` bytes at `index` start no character. -/
  | invalid (index width : Nat)
  /-- The bytes end inside the character at `index`. -/
  | incomplete (index : Nat)
  deriving DecidableEq, Repr

/-- A range of bytes, both ends included. -/
structure Range where
  low : UInt8
  high : UInt8
  deriving DecidableEq, Repr

def Range.contains (range : Range) (b : UInt8) : Bool :=
  range.low ≤ b && b ≤ range.high

/-- The bytes that may follow where the lead byte leaves the choice open. -/
def continuation : Range := ⟨0x80, 0xbf⟩

/-- The ranges of the bytes after a lead byte, `none` if the byte leads no character. -/
def followers? (lead : UInt8) : Option (List Range) :=
  if lead < 0x80 then some []
  else if lead < 0xc2 then none
  else if lead < 0xe0 then some [continuation]
  else if lead = 0xe0 then some [⟨0xa0, 0xbf⟩, continuation]
  else if lead = 0xed then some [⟨0x80, 0x9f⟩, continuation]
  else if lead < 0xf0 then some [continuation, continuation]
  else if lead = 0xf0 then some [⟨0x90, 0xbf⟩, continuation, continuation]
  else if lead < 0xf4 then some [continuation, continuation, continuation]
  else if lead = 0xf4 then some [⟨0x80, 0x8f⟩, continuation, continuation]
  else none

/--
Walks the bytes. A character starts at `start`, `seen` of its bytes are behind, and `expected` are
the ranges of those ahead. With none ahead the next character starts at `start + seen`.
-/
def walk (start seen : Nat) (expected : List Range) : List UInt8 → Flaw
  | [] => .incomplete (if expected = [] then start + seen else start)
  | b :: rest =>
    match expected with
    | [] =>
      match followers? b with
      | none => .invalid (start + seen) 1
      | some ranges => walk (start + seen) 1 ranges rest
    | range :: more =>
      if range.contains b then walk start (seen + 1) more rest else .invalid start seen

/--
The first flaw of bytes that are no text. Bytes that are a text count as incomplete at their end:
ask only about bytes that are none.
-/
def firstFlaw (bytes : List UInt8) : Flaw :=
  walk 0 0 [] bytes

def Flaw.message : Flaw → String
  | .invalid index width => s!"invalid utf-8 sequence of {width} bytes from index {index}"
  | .incomplete index => s!"incomplete utf-8 byte sequence from index {index}"

end TaggedWire.Utf8
