import Mathlib.Algebra.GroupWithZero.Nat
import TaggedWire.Proofs.Outline
import TaggedWire.Proofs.Spelling

/-!
# How many bytes a value needs

An object needs the four bytes of its identifier, and a text those of its UTF-8 form. No way to spell
a value has fewer bytes than the marks in its outline need together.
-/

namespace TaggedWire

variable {α : Type}

def Mark.isObject : Mark → Bool
  | .object _ => true
  | _ => false

def Mark.textSize : Mark → Nat
  | .text size => size
  | _ => 0

def objectCount (marks : List Mark) : Nat :=
  marks.countP Mark.isObject

def textSize (marks : List Mark) : Nat :=
  (marks.map Mark.textSize).sum

def footprint (marks : List Mark) : Nat :=
  4 * objectCount marks + textSize marks

theorem footprint_append (first second : List Mark) :
    footprint (first ++ second) = footprint first + footprint second := by
  simp only [footprint, objectCount, textSize, List.countP_append, List.map_append,
    List.sum_append]
  omega

/-- Each of the spellings has the bytes that the marks need. -/
def Covers (spellings : Language Piece) (marks : List Mark) : Prop :=
  ∀ pieces ∈ spellings, footprint marks ≤ (wire pieces).length

namespace Covers

variable {first second : Language Piece} {marks more : List Mark}

theorem nil (spellings : Language Piece) : Covers spellings [] :=
  fun _ _ => Nat.zero_le _

theorem mul (h : Covers first marks) (h' : Covers second more) :
    Covers (first * second) (marks ++ more) := by
  intro pieces mem
  obtain ⟨a, ha, b, hb, rfl⟩ := Language.mem_mul.mp mem
  have ha := h a ha
  have hb := h' b hb
  rw [footprint_append, wire_append, List.length_append]
  omega

theorem word (level : Nat) (word : UInt32) : Covers {[.word32 word]} [.object level] := by
  rintro _ rfl
  simp [footprint, objectCount, textSize, Mark.isObject, Mark.textSize, Piece.bytes]

theorem text (value : String) : Covers (textSpellings value) (textOutline value) := by
  rintro _ ⟨record, payload, rfl⟩
  have size : record.payload.length = value.utf8ByteSize := by
    rw [payload, Array.length_toList]
    rfl
  have need : footprint (textOutline value) = value.utf8ByteSize := by
    simp [footprint, textOutline, objectCount, textSize, Mark.isObject, Mark.textSize]
  rw [need, ← size, wire_cons, wire_nil, List.append_nil, Piece.bytes, Record.bytes]
  simp only [List.length_append]
  omega

theorem optional (field : Option α) {spellings : α → Language Piece} {outline : α → List Mark}
    (h : ∀ a, Covers (spellings a) (outline a)) :
    Covers (optionalSpellings field spellings) (optionalOutline field outline) := by
  cases field with
  | none => exact nil _
  | some a => exact h a

theorem vector (items : Array α) {spellings : α → Language Piece} {outline : α → List Mark}
    (h : ∀ a, Covers (spellings a) (outline a)) :
    Covers (vectorSpellings items spellings) (vectorOutline items outline) := by
  have elements (items : List α) :
      Covers (items.map spellings).prod (items.flatMap outline) := by
    induction items with
    | nil => exact nil _
    | cons a items ih =>
      rw [List.map_cons, List.prod_cons, List.flatMap_cons]
      exact (h a).mul ih
  have head : Covers (vectorHeadSpellings items.size) [.vector items.size] := fun _ _ =>
    Nat.zero_le _
  exact head.mul (elements items.toList)

end Covers

end TaggedWire
