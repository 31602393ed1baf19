import TaggedWire.Proofs.Spelling

/-!
# Forms of nested values

An object lies one level below the object whose body asks for it, and vectors add no level. A form
is told by its tokens, and each object among them says at which level it lies.
-/

namespace TaggedWire

variable {V T α β : Type}

/-! ## Tokens -/

/-- What a form is made of. An object is told by its identifier, and its fields come next. -/
inductive Token where
  /-- An object begins, so many levels below the outermost one. -/
  | object (level : Nat) (id : UInt32)
  | vector (size : Nat)
  | plain (bytes : ByteArray)

def Token.level : Token → Nat
  | .object level _ => level
  | .vector _ => 0
  | .plain _ => 0

def Token.bytes : Token → List UInt8
  | .object _ id => wire [.word32 id]
  | .vector size => wire [.word32 Tag.vector, .word32 (UInt32.ofNat size)]
  | .plain bytes => bytes.data.toList

def form (tokens : List Token) : List UInt8 :=
  tokens.flatMap Token.bytes

theorem form_singleton (token : Token) : form [token] = token.bytes :=
  List.append_nil _

theorem form_cons (token : Token) (tokens : List Token) :
    form (token :: tokens) = token.bytes ++ form tokens :=
  rfl

theorem form_append (first second : List Token) :
    form (first ++ second) = form first ++ form second :=
  List.flatMap_append

/-- The deepest level at which an object begins. -/
def height (tokens : List Token) : Nat :=
  tokens.foldr (fun token rest => max token.level rest) 0

theorem height_cons (token : Token) (tokens : List Token) :
    height (token :: tokens) = max token.level (height tokens) :=
  rfl

theorem height_append (first second : List Token) :
    height (first ++ second) = max (height first) (height second) := by
  induction first with
  | nil => exact (Nat.zero_max _).symm
  | cons token first ih => rw [List.cons_append, height_cons, height_cons, ih, Nat.max_assoc]

theorem height_le_iff {tokens : List Token} {limit : Nat} :
    height tokens ≤ limit ↔ ∀ token ∈ tokens, token.level ≤ limit := by
  induction tokens with
  | nil => simp [height]
  | cons token tokens ih =>
    rw [List.forall_mem_cons, ← ih]
    exact Nat.max_le

/-! ## Values and their tokens -/

namespace Decoder

/-- The decoder gets the value from these tokens, if no limit is in the way. The objects that it
asks for lie at `level`. -/
inductive Gets (registry : Registry V) :
    {α : Type} → (level : Nat) → Decoder V α → List Token → α → Prop where
  | value {α : Type} {level : Nat} (a : α) : Gets registry level (pure a) [] a
  | bind {α β : Type} {level : Nat} {d : Decoder V α} {f : α → Decoder V β}
      {tokens more : List Token} {a : α} {b : β} (first : Gets registry level d tokens a)
      (second : Gets registry level (f a) more b) :
      Gets registry level (d >>= f) (tokens ++ more) b
  | take {level : Nat} (bytes : ByteArray) :
      Gets registry level (.take bytes.size) [.plain bytes] bytes
  | labelled {level : Nat} {constructor : Constructor V} {tokens : List Token} {value : V}
      (mem : constructor ∈ registry.constructors)
      (body : Gets registry (level + 1) constructor.body tokens value) :
      Gets registry level .labelled (.object level constructor.id :: tokens)
        (constructor.id, value)
  | vectorCount {level size : Nat} (small : size < 0x80000000) :
      Gets registry level .vectorCount [.vector size] size
  /-- It does not matter what is reserved for a vector. -/
  | unseen {α : Type} {level : Nat} {d : Surroundings → Decoder V α} {tokens : List Token} {a : α}
      (goes : ∀ seen, Gets registry level (d seen) tokens a) :
      Gets registry level (.look >>= d) tokens a

namespace Gets

variable {registry : Registry V} {level : Nat}

theorem andPure {d : Decoder V α} {tokens : List Token} {a : α} {f : α → Decoder V β} {b : β}
    (h : Gets registry level d tokens a) (made : f a = pure b) :
    Gets registry level (d >>= f) tokens b := by
  have last : Gets registry level (f a) [] b := by
    rw [made]
    exact .value b
  have whole := h.bind last
  rwa [List.append_nil] at whole

theorem int32 (n : Int32) :
    Gets registry level Decoder.int32 [.plain (LittleEndian.ofWord32 n.toUInt32)] n := by
  have word :
      Gets registry level uint32 [.plain (LittleEndian.ofWord32 n.toUInt32)] n.toUInt32 := by
    refine (take (LittleEndian.ofWord32 n.toUInt32)).andPure ?_
    rw [LittleEndian.word32_ofWord32]
  refine word.andPure ?_
  rw [Int32.toInt32_toUInt32]

theorem object {id : UInt32} {value : V} {tokens : List Token}
    (h : Gets registry level Decoder.labelled tokens (id, value)) :
    Gets registry level Decoder.object tokens value := by
  unfold Decoder.object
  rw [map_eq_pure_bind]
  exact h.andPure rfl

theorem typed {kind : Kind V T} {id : UInt32} {value : V} {narrow : T} {tokens : List Token}
    (h : Gets registry level Decoder.labelled tokens (id, value))
    (narrows : kind.narrow? value = some narrow) :
    Gets registry level (Decoder.typed kind) tokens narrow := by
  refine h.andPure ?_
  dsimp only
  rw [narrows]

variable {element : Decoder V α} {tokens : α → List Token}

theorem elements {others : List α} (h : ∀ a ∈ others, Gets registry level element (tokens a) a)
    (items : Array α) :
    Gets registry level (Decoder.elements element others.length items) (others.flatMap tokens)
      (items ++ others.toArray) := by
  induction others generalizing items with
  | nil =>
    rw [List.append_toArray, List.append_nil]
    exact .value items
  | cons a others ih =>
    rw [List.forall_mem_cons] at h
    have whole : items ++ (a :: others).toArray = items.push a ++ others.toArray := by simp
    rw [List.length_cons, elements_succ, List.flatMap_cons, whole]
    exact h.1.bind (ih h.2 _)

theorem vector {items : List α} (small : items.length < 0x80000000)
    (h : ∀ a ∈ items, Gets registry level element (tokens a) a) :
    Gets registry level (Decoder.vector element) (.vector items.length :: items.flatMap tokens)
      items.toArray := by
  refine (vectorCount small).bind (unseen fun seen => ?_)
  have all := elements h #[]
  rwa [Array.empty_append] at all

end Gets

end Decoder

end TaggedWire
