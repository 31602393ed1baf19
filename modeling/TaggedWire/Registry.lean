import TaggedWire.Decoder.Basic
import TaggedWire.Display

/-!
# Registries

A registry maps identifiers to constructors. The first registration of an identifier stands, a
second one is refused.
-/

namespace TaggedWire

/-- A way to write an object: the identifier in front, and the body that reads what follows. -/
structure Constructor (V : Type) extends Label where
  body : Decoder V V

/-- The constructor in one line. The body shows as dots. -/
def Label.summary (label : Label) : String :=
  "RegistryEntry \x7b id: " ++ Hex.ofWord label.id ++ ", name: " ++ Quoted.ofText label.name ++
    ", .. \x7d"

/-- Constructors in the order of their registration, no two under one identifier. -/
structure Registry (V : Type) where
  constructors : List (Constructor V)
  nodup : (constructors.map (·.id)).Nodup

namespace Registry

variable {V : Type}

def empty : Registry V :=
  ⟨[], List.nodup_nil⟩

instance : EmptyCollection (Registry V) := ⟨empty⟩

instance : Inhabited (Registry V) := ⟨empty⟩

/-- The constructor under an identifier. -/
def find? (registry : Registry V) (id : UInt32) : Option (Constructor V) :=
  registry.constructors.find? (·.id == id)

def contains (registry : Registry V) (id : UInt32) : Bool :=
  registry.constructors.any (·.id == id)

def size (registry : Registry V) : Nat :=
  registry.constructors.length

def isEmpty (registry : Registry V) : Bool :=
  registry.constructors.isEmpty

def ids (registry : Registry V) : List UInt32 :=
  registry.constructors.map (·.id)

def labels (registry : Registry V) : List Label :=
  registry.constructors.map (·.toLabel)

theorem contains_iff (registry : Registry V) (id : UInt32) :
    registry.contains id ↔ id ∈ registry.ids := by
  simp [contains, ids]

/-- Adds a constructor, unless its identifier is taken. -/
def register (registry : Registry V) (constructor : Constructor V) :
    Except Fault (Registry V) :=
  if h : registry.contains constructor.id then
    .error (.duplicateConstructor constructor.id)
  else
    .ok ⟨registry.constructors ++ [constructor], by
      rw [contains_iff] at h
      simpa [List.nodup_append, registry.nodup, ids] using h⟩

theorem id_of_find? {registry : Registry V} {id : UInt32} {constructor : Constructor V}
    (h : registry.find? id = some constructor) : constructor.id = id := by
  simpa using List.find?_some h

theorem find?_register {registry more : Registry V} {constructor : Constructor V}
    (h : registry.register constructor = .ok more) (id : UInt32) :
    more.find? id = if constructor.id = id then some constructor else registry.find? id := by
  unfold register at h
  split at h
  · contradiction
  next free =>
    cases h
    rw [contains_iff] at free
    simp only [find?, List.find?_append]
    split
    next same =>
      have none : registry.constructors.find? (·.id == id) = none := by
        rw [List.find?_eq_none]
        intro other mem taken
        exact free (List.mem_map.mpr ⟨other, mem, by simp_all⟩)
      simp [none, same]
    next other => simp [other]

def summary (registry : Registry V) : String :=
  "TypeRegistry \x7b len: " ++ toString registry.size ++ " \x7d"

end Registry

end TaggedWire
