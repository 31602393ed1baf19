import TaggedWire.Proofs.Lookup
import TaggedWire.Proofs.Nesting
import TaggedWire.Proofs.Tree

/-!
# How deep a reader goes

If a value nests deeper than the limit, all that comes before its first object below the limit is
read, and the identifier of this object is the last thing that is taken.
-/

namespace TaggedWire

variable {V α β : Type}

/-! ## Runs -/

/-- How a run from `p` ends if nothing but the limit of depth can stop it. Either all of the tokens
are read, and none of them is too deep. Or the first one that is too deep is the last one read. -/
inductive Descends (limit : Nat) (tokens : List Token) (a : α) (p : Progress) :
    Except Fault α × Progress → Prop where
  | whole (shallow : ∀ token ∈ tokens, token.level ≤ limit) {q : Progress}
      (passes : p.Passes (form tokens) q) : Descends limit tokens a p (.ok a, q)
  | stopped (before after : List Token) (id : UInt32)
      (split : tokens = before ++ .object (limit + 1) id :: after)
      (shallow : ∀ token ∈ before, token.level ≤ limit) {q : Progress}
      (passes : p.Passes (form before ++ wire [.word32 id]) q) :
      Descends limit tokens a p (.error (.tooDeep limit), q)

namespace Descends

variable {limit : Nat} {tokens more : List Token} {a : α} {b : β} {p : Progress}

theorem andThen {run : Except Fault α × Progress}
    {next : α → Progress → Except Fault β × Progress} (first : Descends limit tokens a p run)
    (second : ∀ m, p.Passes (form tokens) m → Descends limit more b m (next a m)) :
    Descends limit (tokens ++ more) b p (TaggedWire.andThen run next) := by
  cases first with
  | @whole shallow m passes =>
    have rest := second m passes
    dsimp only [TaggedWire.andThen]
    generalize next a m = run at rest ⊢
    cases rest with
    | whole shallow' passes' =>
      refine .whole (List.forall_mem_append.mpr ⟨shallow, shallow'⟩) ?_
      rw [form_append, Progress.passes_append_iff]
      exact ⟨m, passes, passes'⟩
    | stopped before after id split shallow' passes' =>
      refine .stopped (tokens ++ before) after id ?_ ?_ ?_
      · rw [split, List.append_assoc]
      · exact List.forall_mem_append.mpr ⟨shallow, shallow'⟩
      · rw [form_append, List.append_assoc, Progress.passes_append_iff]
        exact ⟨m, passes, passes'⟩
  | stopped before after id split shallow passes =>
    refine .stopped before (after ++ more) id ?_ shallow passes
    rw [split, List.append_assoc, List.cons_append]

theorem enclose {value : V} {level : Nat} {id : UInt32} (admitted : level ≤ limit) {m : Progress}
    (tag : p.Passes (wire [.word32 id]) m) {inside : Except Fault V × Progress}
    (h : Descends limit tokens value m.enter inside) :
    Descends limit (.object level id :: tokens) (id, value) p
      (inside.1.map (id, ·), inside.2.leave) := by
  cases h with
  | @whole shallow q passes =>
    refine .whole (List.forall_mem_cons.mpr ⟨admitted, shallow⟩) ?_
    rw [form_cons, Progress.passes_append_iff]
    exact ⟨m, tag, Progress.passes_leave_iff.mp ⟨q, passes, rfl⟩⟩
  | @stopped before after deep split shallow q passes =>
    refine .stopped (.object level id :: before) after deep ?_ ?_ ?_
    · rw [split, List.cons_append]
    · exact List.forall_mem_cons.mpr ⟨admitted, shallow⟩
    · rw [form_cons, List.append_assoc, Progress.passes_append_iff]
      exact ⟨m, tag, Progress.passes_leave_iff.mp ⟨q, passes, rfl⟩⟩

theorem whole_of_le {run : Except Fault α × Progress} (h : Descends limit tokens a p run)
    (low : height tokens ≤ limit) : ∃ q, run = (.ok a, q) ∧ p.Passes (form tokens) q := by
  cases h with
  | whole _ passes => exact ⟨_, rfl, passes⟩
  | stopped before after id split _ _ =>
    have deep : Token.object (limit + 1) id ∈ tokens := by simp [split]
    exact absurd (height_le_iff.mp low _ deep) (Nat.not_succ_le_self limit)

theorem stopped_of_lt {run : Except Fault α × Progress} (h : Descends limit tokens a p run)
    (deep : limit < height tokens) :
    ∃ before id after q, tokens = before ++ .object (limit + 1) id :: after ∧
      (∀ token ∈ before, token.level ≤ limit) ∧ run = (.error (.tooDeep limit), q) ∧
        p.Passes (form before ++ wire [.word32 id]) q := by
  cases h with
  | whole shallow _ => exact absurd (height_le_iff.mpr shallow) (Nat.not_le_of_lt deep)
  | stopped before after id split shallow passes =>
    exact ⟨before, id, after, _, split, shallow, rfl, passes⟩

end Descends

theorem Registry.object_descends {registry : Registry V} {constructor : Constructor V}
    (mem : constructor ∈ registry.constructors) {limits : Limits} {level room : Nat}
    (sum : level + room = limits.maxDepth + 1) {tokens : List Token} {value : V} {p q : Progress}
    (passes : p.Passes (form (.object level constructor.id :: tokens)) q)
    (body : ∀ deeper, level + 1 + deeper = limits.maxDepth + 1 →
      ∀ {p q : Progress}, p.Passes (form tokens) q →
        Descends limits.maxDepth tokens value p
          (constructor.body.exec ⟨limits, registry.labels, registry.object limits deeper⟩ p)) :
    Descends limits.maxDepth (.object level constructor.id :: tokens) (constructor.id, value) p
      (registry.object limits room p) := by
  rw [form_cons, Progress.passes_append_iff] at passes
  obtain ⟨m, tag, fields⟩ := passes
  have found := dispatch_ok_iff.mpr ⟨mem, Progress.reads_singleton_iff.mpr tag⟩
  cases room with
  | zero =>
    obtain rfl : level = limits.maxDepth + 1 := sum
    rw [object_zero_eq_andThen, found]
    exact .stopped [] tokens constructor.id rfl (by simp) tag
  | succ room =>
    rw [object_succ_eq_andThen, found]
    obtain ⟨inside, inner, -⟩ := Progress.passes_leave_iff.mpr fields
    exact (body room (by omega) inner).enclose (by omega) tag

/-- A reader with room for the levels down to the limit goes down to it, and no further. -/
theorem Decoder.Gets.descends {registry : Registry V} {level : Nat} {d : Decoder V α}
    {tokens : List Token} {a : α} (gets : d.Gets registry level tokens a) {limits : Limits}
    (short : ∀ size, .vector size ∈ tokens → size ≤ limits.maxVectorSize) {room : Nat}
    (sum : level + room = limits.maxDepth + 1) {p q : Progress}
    (passes : p.Passes (form tokens) q) :
    Descends limits.maxDepth tokens a p
      (d.exec ⟨limits, registry.labels, registry.object limits room⟩ p) := by
  induction gets generalizing room p q with
  | value a => exact .whole (by simp) (Progress.passes_nil_iff.mpr rfl)
  | bind first second ihFirst ihSecond =>
    rw [form_append, Progress.passes_append_iff] at passes
    obtain ⟨m, front, back⟩ := passes
    have shortFirst := fun size mem => short size (List.mem_append_left _ mem)
    have shortSecond := fun size mem => short size (List.mem_append_right _ mem)
    rw [exec_bind_eq_andThen]
    refine (ihFirst shortFirst sum front).andThen fun m' front' => ?_
    obtain rfl := front.unique front'
    exact ihSecond shortSecond sum back
  | take bytes =>
    have taken : p.Passes bytes.data.toList q := by rwa [form_singleton] at passes
    rw [exec_take_ok_iff.mpr ⟨rfl, taken⟩]
    exact .whole (by simp [Token.level]) passes
  | labelled mem body ih =>
    refine Registry.object_descends mem sum passes fun deeper sum _ _ passes => ?_
    exact ih (fun size mem => short size (List.mem_cons_of_mem _ mem)) sum passes
  | @vectorCount level size small =>
    have head : p.Reads (vectorHeadSpellings size) q := by
      rw [form_singleton] at passes
      exact ⟨_, ⟨small, rfl⟩, passes⟩
    rw [exec_vectorCount_ok_iff.mpr ⟨short size List.mem_cons_self, head⟩]
    exact .whole (by simp [Token.level]) passes
  | unseen goes ih =>
    rw [exec_look_bind]
    exact ih _ short sum passes

/-! ## The limit -/

/-- A value whose vectors are short is read if no object in it lies too deep, and otherwise the
first one that does is refused. -/
theorem depth_limit_exact {registry : Registry V} {d : Decoder V α} {tokens : List Token} {a : α}
    (gets : d.Gets registry 0 tokens a) (limits : Limits)
    (short : ∀ size, .vector size ∈ tokens → size ≤ limits.maxVectorSize)
    (behind ahead : ByteArray) :
    let reader : Reader V := { registry, limits }
    let outcome := reader.run d (.between behind ((form tokens).toByteArray ++ ahead))
    outcome.reader = reader ∧
    (height tokens ≤ limits.maxDepth →
      outcome.result = .ok a ∧
        outcome.cursor.position = behind.size + (form tokens).length) ∧
    (limits.maxDepth < height tokens →
      outcome.result = .error (.tooDeep limits.maxDepth) ∧
        ∃ before id after, tokens = before ++ .object (limits.maxDepth + 1) id :: after ∧
          (∀ other, .object (limits.maxDepth + 1) other ∉ before) ∧
          outcome.cursor.position = behind.size + (form before).length + 4) := by
  intro reader outcome
  have passes := Progress.passes_between behind (form tokens).toByteArray ahead 0
  rw [List.data_toByteArray] at passes
  have room : 0 + reader.room = limits.maxDepth + 1 := Nat.zero_add _
  have down := gets.descends short room passes
  refine ⟨reader.reader_run d _, fun low => ?_, fun deep => ?_⟩
  · obtain ⟨q, ran, passes⟩ := down.whole_of_le low
    have same : outcome = _ := Reader.run_eq_of_exec ran
    rw [same]
    exact ⟨rfl, passes.position⟩
  · obtain ⟨before, id, after, q, split, shallow, ran, passes⟩ := down.stopped_of_lt deep
    have same : outcome = _ := Reader.run_eq_of_exec ran
    have position := passes.position
    rw [List.length_append] at position
    rw [same]
    refine ⟨rfl, before, id, after, split, fun other mem => ?_, position⟩
    exact Nat.not_succ_le_self limits.maxDepth (shallow _ mem)

namespace Node

/-- Three parts, and the middle one goes down to the third level. -/
def deepRow : Node :=
  .row [.leaf 7, .pair (.pair (.leaf 1) 2) 3, .leaf 8]

/-- What a reader with this limit makes of the row, from behind one byte and ahead of another. -/
def readDeepRow (maxDepth : Nat) : Outcome Node Node :=
  Reader.run { registry, limits := { maxDepth } } .object
    (.between ⟨#[9]⟩ ((form (deepRow.tokens 0)).toByteArray ++ ⟨#[9]⟩))

theorem depth_limit_exact_deepRow :
    (readDeepRow 3).result = .ok deepRow ∧
      (readDeepRow 2).result = .error (.tooDeep 2) ∧ (readDeepRow 2).cursor.position = 33 ∧
        (readDeepRow 2).reader.depth = 0 := by
  have counts : ∀ size, .vector size ∈ deepRow.tokens 0 → size = 3 := by
    simp [deepRow, tokens, rowTokens, leafTokens]
  have gets := (deepRow.gets 0 fun size mem => counts size mem ▸ by decide).object
  have height : height (deepRow.tokens 0) = 3 := deepRow.height_tokens 0
  have exact (maxDepth : Nat) := depth_limit_exact gets { maxDepth }
    (fun size mem => counts size mem ▸ (by decide : 3 ≤ 0x100000)) ⟨#[9]⟩ ⟨#[9]⟩
  obtain ⟨-, whole, -⟩ := exact 3
  obtain ⟨same, -, stopped⟩ := exact 2
  obtain ⟨result, -⟩ := whole (Nat.le_of_eq height)
  obtain ⟨fault, -⟩ := stopped (by rw [height]; decide)
  refine ⟨result, fault, by decide +kernel, ?_⟩
  have back : (readDeepRow 2).reader = { registry, limits := { maxDepth := 2 } } := same
  rw [back]

end Node

end TaggedWire
