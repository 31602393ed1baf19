import TaggedWire.Proofs.Lookup
import TaggedWire.Proofs.Outline

/-!
# The first limit that a value breaks

A reader judges each mark of a value when it comes to it, and it comes to them in the order in which
they were written. So the first mark that breaks a limit decides how the read ends, whatever stands
behind it.
-/

namespace TaggedWire

variable {V T α β : Type}

/-- The fault that the mark stops a reader with. -/
def Mark.breach (limits : Limits) : Mark → Option Fault
  | .object level => if level ≤ limits.maxDepth then none else some (.tooDeep limits.maxDepth)
  | .text _ => none
  | .vector size =>
    if size ≤ limits.maxVectorSize then none else some (.vectorTooLong size limits.maxVectorSize)

theorem Mark.breach_eq_none_iff {limits : Limits} {mark : Mark} :
    mark.breach limits = none ↔ mark.Within limits := by
  cases mark <;> simp [breach, Within]

theorem findSome?_breach_eq_none_iff {limits : Limits} {marks : List Mark} :
    marks.findSome? (Mark.breach limits) = none ↔ ∀ mark ∈ marks, mark.Within limits := by
  simp only [List.findSome?_eq_none_iff, Mark.breach_eq_none_iff]

/-- The run reads `a` up to `q`, unless one of the marks on its way breaks a limit. Then it ends
with the fault of the first such mark. -/
def Meets (limits : Limits) (marks : List Mark) (a : α) (q : Progress)
    (run : Except Fault α × Progress) : Prop :=
  match marks.findSome? (Mark.breach limits) with
  | none => run = (.ok a, q)
  | some fault => run.1 = .error fault

namespace Meets

variable {limits : Limits} {marks more : List Mark} {a : α} {b : β} {p q m : Progress}
  {run : Except Fault α × Progress}

theorem of_within (within : ∀ mark ∈ marks, mark.Within limits) (h : run = (.ok a, q)) :
    Meets limits marks a q run := by
  unfold Meets
  rw [findSome?_breach_eq_none_iff.mpr within]
  exact h

theorem of_ok (h : run = (.ok a, q)) : Meets limits [] a q run :=
  h

theorem error_of_breach (h : Meets limits marks a q run) {fault : Fault}
    (first : marks.findSome? (Mark.breach limits) = some fault) : run.1 = .error fault := by
  unfold Meets at h
  rwa [first] at h

theorem andThen {next : α → Progress → Except Fault β × Progress}
    (first : Meets limits marks a m run) (second : Meets limits more b q (next a m)) :
    Meets limits (marks ++ more) b q (TaggedWire.andThen run next) := by
  unfold Meets at first second ⊢
  rw [List.findSome?_append]
  cases found : marks.findSome? (Mark.breach limits) with
  | none =>
    rw [found] at first
    rw [first]
    exact second
  | some fault =>
    rw [found] at first
    obtain ⟨result, stop⟩ := run
    obtain rfl : result = .error fault := first
    rfl

variable {scope : Scope V}

theorem bind {d : Decoder V α} {f : α → Decoder V β} (first : Meets limits marks a m (d.exec scope p))
    (second : Meets limits more b q ((f a).exec scope m)) :
    Meets limits (marks ++ more) b q ((d >>= f).exec scope p) := by
  rw [Decoder.exec_bind_eq_andThen]
  exact first.andThen second

theorem bind_pure {d : Decoder V α} {make : α → β} (h : Meets limits marks a q (d.exec scope p)) :
    Meets limits marks (make a) q ((do return make (← d) : Decoder V β).exec scope p) := by
  rw [← List.append_nil marks]
  exact h.bind (of_ok rfl)

theorem typed {kind : Kind V T} {id : UInt32} {object : V} {value : T}
    (h : Meets limits marks (id, object) q (scope.object p))
    (narrows : kind.narrow? object = some value) :
    Meets limits marks value q ((Decoder.typed kind).exec scope p) := by
  rw [← List.append_nil marks]
  unfold Decoder.typed
  apply bind (d := Decoder.labelled) h
  dsimp only
  rw [narrows]
  exact of_ok rfl

/-! ## Vectors -/

theorem vectorCount {size : Nat} (h : p.Reads (vectorHeadSpellings size) q) :
    Meets scope.limits [.vector size] size q (Decoder.vectorCount.exec scope p) := by
  by_cases fits : size ≤ scope.limits.maxVectorSize
  · apply of_within
    · simpa [Mark.Within] using fits
    · exact Decoder.exec_vectorCount_ok_iff.mpr ⟨fits, h⟩
  obtain ⟨small, m, tag, count⟩ := Progress.reads_vectorHead_iff.mp h
  obtain ⟨sign, back⟩ :=
    Decoder.count_iff.mpr ⟨small, UInt32.toUInt32_toInt32 (UInt32.ofNat size)⟩
  have first : [Mark.vector size].findSome? (Mark.breach scope.limits) =
      some (.vectorTooLong size scope.limits.maxVectorSize) := by
    simp [Mark.breach, fits]
  have count : Decoder.int32.exec scope m = (.ok (UInt32.ofNat size).toInt32, q) := by
    rw [Decoder.exec_int32_ok_iff, UInt32.toUInt32_toInt32]
    exact count
  unfold Meets
  rw [first]
  unfold Decoder.vectorCount
  rw [Decoder.exec_bind, Decoder.exec_uint32_ok_iff.mpr tag]
  dsimp only
  rw [if_neg (not_not.mpr rfl), Decoder.exec_bind, count]
  dsimp only
  rw [if_neg sign, Decoder.exec_look_bind]
  dsimp only
  rw [back, if_pos (Nat.lt_of_not_le fits)]
  rfl

variable {element : Decoder V α} {outline : α → List Mark} {spellings : α → Language Piece}

theorem elements
    (h : ∀ a p q, p.Reads (spellings a) q →
      Meets scope.limits (outline a) a q (element.exec scope p))
    (items : Array α) {others : List α} (reads : p.Reads (others.map spellings).prod q) :
    Meets scope.limits (others.flatMap outline) (items ++ others.toArray) q
      ((Decoder.elements element others.length items).exec scope p) := by
  induction others generalizing items p with
  | nil =>
    obtain rfl := Progress.reads_one_iff.mp reads
    rw [List.append_toArray, List.append_nil]
    exact of_ok rfl
  | cons a others ih =>
    rw [List.map_cons, List.prod_cons, Progress.reads_mul_iff] at reads
    obtain ⟨m, first, rest⟩ := reads
    have whole : items ++ (a :: others).toArray = items.push a ++ others.toArray := by simp
    rw [List.length_cons, Decoder.elements_succ, List.flatMap_cons, whole]
    exact (h a p m first).bind (ih _ rest)

theorem vector
    (h : ∀ a p q, p.Reads (spellings a) q →
      Meets scope.limits (outline a) a q (element.exec scope p))
    {items : Array α} (reads : p.Reads (vectorSpellings items spellings) q) :
    Meets scope.limits (vectorOutline items outline) items q
      ((Decoder.vector element).exec scope p) := by
  obtain ⟨m, head, rest⟩ := Progress.reads_mul_iff.mp reads
  -- The count is judged before the first element is read.
  apply (vectorCount head).bind
  rw [Decoder.exec_look_bind]
  have all := elements h #[] rest
  rw [Array.length_toList, Array.toArray_toList, Array.empty_append] at all
  exact all

end Meets

/-! ## Objects -/

namespace Registry

variable {registry : Registry V} {limits : Limits} {constructor : Constructor V} {p m : Progress}

theorem object_zero_meets (mem : constructor ∈ registry.constructors)
    (tag : p.Reads {[.word32 constructor.id]} m) :
    (registry.object limits 0 p).1 = .error (.tooDeep limits.maxDepth) := by
  rw [object_zero_eq_andThen, dispatch_ok_iff.mpr ⟨mem, tag⟩]
  rfl

theorem object_succ_meets {room : Nat} {marks : List Mark} {value : V} {inside : Progress}
    (mem : constructor ∈ registry.constructors) (tag : p.Reads {[.word32 constructor.id]} m)
    (body : Meets limits marks value inside
      (constructor.body.exec ⟨limits, registry.labels, registry.object limits room⟩ m.enter)) :
    Meets limits marks (constructor.id, value) inside.leave
      (registry.object limits (room + 1) p) := by
  rw [object_succ_eq_andThen, dispatch_ok_iff.mpr ⟨mem, tag⟩]
  unfold Meets at body ⊢
  dsimp only [andThen]
  split at body
  next => rw [body]; rfl
  next => rw [body]; rfl

end Registry

end TaggedWire
