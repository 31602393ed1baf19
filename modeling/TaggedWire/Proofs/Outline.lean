import TaggedWire.Decoder.Basic
import TaggedWire.Fault
import TaggedWire.Wire

/-!
# Outlines

The outline of an object tells where objects, texts and vectors begin in it and how large they are,
in the order in which they are written. It is all that readers and writers judge beside the bytes.
-/

namespace TaggedWire

inductive Mark where
  /-- An object begins, so many levels below the outermost one. -/
  | object (level : Nat)
  /-- A text of so many bytes. -/
  | text (size : Nat)
  /-- A vector of so many elements. -/
  | vector (size : Nat)
  deriving DecidableEq, Repr

namespace Mark

/-- A reader with these limits admits the mark. -/
def Within (limits : Limits) : Mark → Prop
  | .object level => level ≤ limits.maxDepth
  | .text _ => True
  | .vector size => size ≤ limits.maxVectorSize

/-- A record has room for the text, and a signed count for the vector. -/
def Writable : Mark → Prop
  | .object _ => True
  | .text size => size ≤ 0xffffff
  | .vector size => size ≤ 0x7fffffff

/-- The fault that the mark stops a writer with. -/
def refusal : Mark → Option Fault
  | .object _ => none
  | .text size =>
    if size ≤ ByteString.maxSize then none else some (.payloadTooLarge size ByteString.maxSize)
  | .vector size => if size < 0x80000000 then none else some (.countOverflow size)

instance (limits : Limits) : DecidablePred (Within limits)
  | .object _ => inferInstanceAs (Decidable (_ ≤ _))
  | .text _ => inferInstanceAs (Decidable True)
  | .vector _ => inferInstanceAs (Decidable (_ ≤ _))

instance : DecidablePred Writable
  | .object _ => inferInstanceAs (Decidable True)
  | .text _ => inferInstanceAs (Decidable (_ ≤ _))
  | .vector _ => inferInstanceAs (Decidable (_ ≤ _))

theorem refusal_eq_none_iff {mark : Mark} : mark.refusal = none ↔ mark.Writable := by
  cases mark with
  | object level => exact iff_of_true rfl trivial
  | text size =>
    by_cases fits : size ≤ ByteString.maxSize
    · exact iff_of_true (if_pos fits) fits
    · exact iff_of_false (by simp [refusal, fits]) fits
  | vector size =>
    by_cases fits : size < 0x80000000
    · exact iff_of_true (if_pos fits) (Nat.le_of_lt_succ fits)
    · exact iff_of_false (by simp [refusal, fits]) fun h => fits (Nat.lt_succ_of_le h)

theorem findSome?_refusal_eq_none_iff {marks : List Mark} :
    marks.findSome? refusal = none ↔ ∀ mark ∈ marks, mark.Writable := by
  simp only [List.findSome?_eq_none_iff, refusal_eq_none_iff]

theorem Within.mono {limits higher : Limits} {mark : Mark} (h : mark.Within limits)
    (deeper : limits.maxDepth ≤ higher.maxDepth)
    (longer : limits.maxVectorSize ≤ higher.maxVectorSize) : mark.Within higher := by
  cases mark with
  | object level => exact Nat.le_trans h deeper
  | text size => trivial
  | vector size => exact Nat.le_trans h longer

theorem exists_within (marks : List Mark) :
    ∃ limits : Limits, ∀ mark ∈ marks, mark.Within limits := by
  induction marks with
  | nil => exact ⟨{}, by simp⟩
  | cons mark marks ih =>
    obtain ⟨limits, within⟩ := ih
    cases mark with
    | object level =>
      refine ⟨{ limits with maxDepth := max level limits.maxDepth }, ?_⟩
      refine List.forall_mem_cons.mpr ⟨Nat.le_max_left _ _, fun mark mem => ?_⟩
      exact (within mark mem).mono (Nat.le_max_right _ _) (Nat.le_refl _)
    | text size => exact ⟨limits, List.forall_mem_cons.mpr ⟨trivial, within⟩⟩
    | vector size =>
      refine ⟨{ limits with maxVectorSize := max size limits.maxVectorSize }, ?_⟩
      refine List.forall_mem_cons.mpr ⟨Nat.le_max_left _ _, fun mark mem => ?_⟩
      exact (within mark mem).mono (Nat.le_refl _) (Nat.le_max_right _ _)

end Mark

variable {α : Type}

def textOutline (text : String) : List Mark :=
  [.text text.utf8ByteSize]

/-- A vector is judged before its elements. -/
def vectorOutline (items : Array α) (element : α → List Mark) : List Mark :=
  .vector items.size :: items.toList.flatMap element

def optionalOutline (field : Option α) (outline : α → List Mark) : List Mark :=
  field.elim [] outline

/-! ## All marks of an outline -/

variable {P : Mark → Prop}

theorem forall_mem_textOutline {text : String} :
    (∀ mark ∈ textOutline text, P mark) ↔ P (.text text.utf8ByteSize) := by
  simp [textOutline]

theorem forall_mem_vectorOutline {items : Array α} {element : α → List Mark} :
    (∀ mark ∈ vectorOutline items element, P mark) ↔
      P (.vector items.size) ∧ ∀ a ∈ items, ∀ mark ∈ element a, P mark := by
  simp only [vectorOutline, List.forall_mem_cons, List.mem_flatMap, Array.mem_toList_iff]
  constructor
  · rintro ⟨hsize, hitems⟩
    exact ⟨hsize, fun a ha mark hmark => hitems mark ⟨a, ha, hmark⟩⟩
  · rintro ⟨hsize, hitems⟩
    exact ⟨hsize, fun mark ⟨a, ha, hmark⟩ => hitems a ha mark hmark⟩

theorem forall_mem_optionalOutline {field : Option α} {outline : α → List Mark} :
    (∀ mark ∈ optionalOutline field outline, P mark) ↔
      ∀ a ∈ field, ∀ mark ∈ outline a, P mark := by
  cases field <;> simp [optionalOutline]

end TaggedWire
