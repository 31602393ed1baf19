import TaggedWire.Chat.Layout
import TaggedWire.Proofs.Outline
import TaggedWire.Proofs.Spelling

/-!
# The wire grammar of the chat schema

Which rows of pieces stand for an object, and what its outline is. Nothing here reads or writes a
byte.
-/

namespace TaggedWire.Chat

/-! ## Spellings -/

/-- The identifier of a layout, and the fields behind it. -/
def Layout.spellings (layout : Layout) (fields : Language Piece) : Language Piece :=
  {[.word32 layout.id]} * fields

def Peer.fields : Peer → Language Piece
  | .user id => {[.word64 id.toUInt64]}
  | .group id => {[.word64 id.toUInt64]}
  | .channel id => {[.word64 id.toUInt64]}

def Peer.spellings (peer : Peer) : Language Piece :=
  peer.layout.spellings peer.fields

def Format.fields : Format → Language Piece
  | .plain _ => 1
  | .pre language => textSpellings language
  | .link url => textSpellings url
  | .mention user => {[.word64 user.toUInt64]}

def Entity.fields (entity : Entity) : Language Piece :=
  {[.word32 entity.offset.toUInt32]} * {[.word32 entity.length.toUInt32]} * entity.format.fields

def Entity.spellings (entity : Entity) : Language Piece :=
  entity.format.layout.spellings entity.fields

theorem Flag.toNat_mask (flag : Flag) : flag.mask.toNat = 2 ^ flag.bit.toNat := by
  cases flag <;> rfl

/-- The word holds the truth values of a message and says which of its fields follow. -/
structure Message.Flagged (message : Message) (word : UInt32) : Prop where
  out : word.toNat.testBit 1 = message.out
  silent : word.toNat.testBit 13 = message.silent
  sender : word.toNat.testBit 8 = message.sender.isSome
  entities : word.toNat.testBit 7 = message.entities.isSome
  views : word.toNat.testBit 10 = message.views.isSome

/-- The words of flags that fit a message. Bits without a meaning are free. -/
def Message.flagSpellings (message : Message) : Language Piece :=
  TaggedWire.flagSpellings [1, 7, 8, 10, 13] message.Flagged

def Message.fields (message : Message) : Language Piece :=
  message.flagSpellings *
    {[.word32 message.id.toUInt32]} *
    optionalSpellings message.sender Peer.spellings *
    message.peer.spellings *
    {[.word32 message.date.toUInt32]} *
    textSpellings message.text *
    optionalSpellings message.entities (vectorSpellings · Entity.spellings) *
    optionalSpellings message.views fun views => {[.word32 views.toUInt32]}

def EmptyMessage.flagSpellings (message : EmptyMessage) : Language Piece :=
  TaggedWire.flagSpellings [0] fun word => word.toNat.testBit 0 = message.peer.isSome

def EmptyMessage.fields (message : EmptyMessage) : Language Piece :=
  message.flagSpellings *
    {[.word32 message.id.toUInt32]} *
    optionalSpellings message.peer Peer.spellings

def AnyMessage.fields : AnyMessage → Language Piece
  | .full message => message.fields
  | .empty message => message.fields

def AnyMessage.spellings (message : AnyMessage) : Language Piece :=
  message.layout.spellings message.fields

def Object.fields : Object → Language Piece
  | .peer p => p.fields
  | .entity e => e.fields
  | .message m => m.fields
  | .page messages => vectorSpellings messages AnyMessage.spellings

/-- The rows of pieces that stand for an object. -/
def Object.spellings (object : Object) : Language Piece :=
  object.layout.spellings object.fields

/-- The bytes are one way to write the object. -/
def Object.WireForm (object : Object) (form : List UInt8) : Prop :=
  ∃ pieces ∈ object.spellings, wire pieces = form

/-! ## Outlines -/

def Peer.outline (level : Nat) (_ : Peer) : List Mark :=
  [.object level]

def Format.outline : Format → List Mark
  | .plain _ => []
  | .pre language => textOutline language
  | .link url => textOutline url
  | .mention _ => []

def Entity.outline (level : Nat) (entity : Entity) : List Mark :=
  .object level :: entity.format.outline

def Message.inner (level : Nat) (message : Message) : List Mark :=
  optionalOutline message.sender (Peer.outline (level + 1)) ++
    message.peer.outline (level + 1) ++
    textOutline message.text ++
    optionalOutline message.entities (vectorOutline · (Entity.outline (level + 1)))

theorem Message.forall_mem_inner {level : Nat} {message : Message} {P : Mark → Prop} :
    (∀ mark ∈ message.inner level, P mark) ↔
      (∀ peer ∈ message.sender, ∀ mark ∈ peer.outline (level + 1), P mark) ∧
        (∀ mark ∈ message.peer.outline (level + 1), P mark) ∧
        P (.text message.text.utf8ByteSize) ∧
        ∀ entities ∈ message.entities, P (.vector entities.size) ∧
          ∀ entity ∈ entities, ∀ mark ∈ entity.outline (level + 1), P mark := by
  simp only [inner, List.forall_mem_append, forall_mem_optionalOutline, forall_mem_textOutline,
    forall_mem_vectorOutline, and_assoc]

def EmptyMessage.inner (level : Nat) (message : EmptyMessage) : List Mark :=
  optionalOutline message.peer (Peer.outline (level + 1))

def AnyMessage.inner (level : Nat) : AnyMessage → List Mark
  | .full message => message.inner level
  | .empty message => message.inner level

def AnyMessage.outline (level : Nat) (message : AnyMessage) : List Mark :=
  .object level :: message.inner level

/-- What lies in an object at a level, the object itself left out. -/
def Object.inner (level : Nat) : Object → List Mark
  | .peer _ => []
  | .entity e => e.format.outline
  | .message m => m.inner level
  | .page messages => vectorOutline messages (AnyMessage.outline (level + 1))

/-- The marks of an object at a level, in the order in which they are written. -/
def Object.outline (level : Nat) (object : Object) : List Mark :=
  .object level :: object.inner level

/-- A reader with these limits does not refuse the object. -/
def Object.Within (limits : Limits) (object : Object) : Prop :=
  ∀ mark ∈ object.outline 0, mark.Within limits

/-- Every text and every vector in the object can say its size. -/
def Object.Writable (object : Object) : Prop :=
  ∀ mark ∈ object.outline 0, mark.Writable

end TaggedWire.Chat
