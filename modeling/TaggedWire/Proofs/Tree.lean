import TaggedWire.Proofs.Form

/-!
# Trees of objects

Three constructors that nest without end: one holds an object, and one holds a vector of them. Every
tree has a form, which is as high as the tree.
-/

namespace TaggedWire

/-- Numbers in pairs and rows. -/
inductive Node where
  | leaf (number : Int32)
  /-- The second part is always a leaf. -/
  | pair (left : Node) (right : Int32)
  | row (items : List Node)

namespace Node

open Decoder

def leafKind : Kind Node Int32 where
  name := "Leaf"
  narrow?
    | .leaf number => some number
    | _ => none

def leafConstructor : Constructor Node where
  id := 1
  name := "leaf"
  body := return .leaf (← .int32)

def pairConstructor : Constructor Node where
  id := 2
  name := "pair"
  body := do
    let left ← .object
    return .pair left (← .typed leafKind)

def rowConstructor : Constructor Node where
  id := 3
  name := "list"
  body := return .row (← .objectVector).toList

def registry : Registry Node where
  constructors := [leafConstructor, pairConstructor, rowConstructor]
  nodup := by decide

def id : Node → UInt32
  | .leaf _ => 1
  | .pair _ _ => 2
  | .row _ => 3

def leafTokens (level : Nat) (number : Int32) : List Token :=
  [.object level 1, .plain (LittleEndian.ofWord32 number.toUInt32)]

mutual

/-- How a node is written if it lies at this level. -/
def tokens (level : Nat) : Node → List Token
  | .leaf number => leafTokens level number
  | .pair left right =>
    .object level 2 :: (left.tokens (level + 1) ++ leafTokens (level + 1) right)
  | .row items => .object level 3 :: .vector items.length :: rowTokens (level + 1) items

def rowTokens (level : Nat) : List Node → List Token
  | [] => []
  | item :: items => item.tokens level ++ rowTokens level items

end

mutual

/-- How many levels lie below the outermost one. -/
def levels : Node → Nat
  | .leaf _ => 0
  | .pair left _ => left.levels + 1
  | .row items => rowLevels items

def rowLevels : List Node → Nat
  | [] => 0
  | item :: items => max (item.levels + 1) (rowLevels items)

end

theorem height_leafTokens (level : Nat) (number : Int32) :
    height (leafTokens level number) = level :=
  Nat.max_zero level

mutual

theorem height_tokens (level : Nat) : (node : Node) →
    height (node.tokens level) = level + node.levels
  | .leaf number => height_leafTokens level number
  | .pair left right => by
    have inside := left.height_tokens (level + 1)
    rw [tokens, height_cons, height_append, height_leafTokens, inside, levels, Token.level]
    omega
  | .row items => by
    have inside := height_rowTokens level items
    rw [tokens, height_cons, height_cons, levels, Token.level, Token.level, Nat.zero_max, inside]

theorem height_rowTokens (level : Nat) : (items : List Node) →
    max level (height (rowTokens (level + 1) items)) = level + rowLevels items
  | [] => Nat.max_zero level
  | item :: items => by
    have first := item.height_tokens (level + 1)
    have rest := height_rowTokens level items
    rw [rowTokens, height_append, first, rowLevels]
    omega

end

theorem rowTokens_eq (level : Nat) (items : List Node) :
    rowTokens level items = items.flatMap (tokens level) := by
  induction items with
  | nil => rfl
  | cons item items ih => rw [rowTokens, ih, List.flatMap_cons]

theorem leaf_gets (level : Nat) (number : Int32) :
    (labelled : Decoder Node (UInt32 × Node)).Gets registry level (leafTokens level number)
      (1, .leaf number) := by
  have body : leafConstructor.body.Gets registry (level + 1)
      [.plain (LittleEndian.ofWord32 number.toUInt32)] (.leaf number) :=
    (Gets.int32 number).andPure rfl
  exact .labelled (by simp [registry]) body

mutual

theorem gets (level : Nat) : (node : Node) →
    (∀ size, .vector size ∈ node.tokens level → size < 0x80000000) →
      (labelled : Decoder Node (UInt32 × Node)).Gets registry level (node.tokens level)
        (node.id, node)
  | .leaf number, _ => leaf_gets level number
  | .pair left right, short => by
    have shortLeft : ∀ size, .vector size ∈ left.tokens (level + 1) → size < 0x80000000 := by
      intro size mem
      exact short size (List.mem_cons_of_mem _ (List.mem_append_left _ mem))
    have body : pairConstructor.body.Gets registry (level + 1)
        (left.tokens (level + 1) ++ leafTokens (level + 1) right) (.pair left right) :=
      (left.gets (level + 1) shortLeft).object.bind
        (((leaf_gets (level + 1) right).typed rfl).andPure rfl)
    exact .labelled (by simp [registry]) body
  | .row items, short => by
    have small : items.length < 0x80000000 :=
      short _ (List.mem_cons_of_mem _ List.mem_cons_self)
    have shortItems : ∀ size, .vector size ∈ rowTokens (level + 1) items → size < 0x80000000 := by
      intro size mem
      exact short size (List.mem_cons_of_mem _ (List.mem_cons_of_mem _ mem))
    have vector := Gets.vector small fun item mem =>
      (items_get (level + 1) items shortItems item mem).object
    have body : rowConstructor.body.Gets registry (level + 1)
        (.vector items.length :: rowTokens (level + 1) items) (.row items) := by
      rw [rowTokens_eq]
      exact vector.andPure rfl
    exact .labelled (by simp [registry]) body

theorem items_get (level : Nat) : (items : List Node) →
    (∀ size, .vector size ∈ rowTokens level items → size < 0x80000000) → ∀ item ∈ items,
      (labelled : Decoder Node (UInt32 × Node)).Gets registry level (item.tokens level)
        (item.id, item)
  | [], _ => List.forall_mem_nil _
  | first :: items, short => by
    refine List.forall_mem_cons.mpr ⟨first.gets level fun size mem => ?_, ?_⟩
    · exact short size (List.mem_append_left _ mem)
    · exact items_get level items fun size mem => short size (List.mem_append_right _ mem)

end

end Node

end TaggedWire
