import TaggedWire.Chat.Layout
import TaggedWire.Encoder

/-!
# Writing the objects of a chat

Each object is the identifier of its layout and its fields in order. An optional field is written
when it is there, and a flag tells the reader so.
-/

namespace TaggedWire.Chat

def Layout.encoder (layout : Layout) : Encoder Unit :=
  .uint32 layout.id

/-- The number that tells peers of one layout apart. -/
def Peer.id : Peer → Int64
  | .user id => id
  | .group id => id
  | .channel id => id

def Peer.encoder (peer : Peer) : Encoder Unit := do
  peer.layout.encoder
  .int64 peer.id

/-- What follows offset and length. -/
def Format.encoder : Format → Encoder Unit
  | .plain _ => pure ()
  | .pre language => .text language
  | .link url => .text url
  | .mention user => .int64 user

def Entity.encoder (entity : Entity) : Encoder Unit := do
  entity.format.layout.encoder
  .int32 entity.offset
  .int32 entity.length
  entity.format.encoder

def Message.flags (message : Message) : List Flag :=
  (if message.out then [.out] else []) ++
    (if message.silent then [.silent] else []) ++
    (if message.sender.isSome then [.sender] else []) ++
    (if message.entities.isSome then [.entities] else []) ++
    (if message.views.isSome then [.views] else [])

def EmptyMessage.flags (message : EmptyMessage) : List Flag :=
  if message.peer.isSome then [.peer] else []

/-- A field that may be missing. -/
def optional {α : Type} (field : Option α) (encoder : α → Encoder Unit) : Encoder Unit :=
  match field with
  | some value => encoder value
  | none => pure ()

def Message.encoder (message : Message) : Encoder Unit := do
  Layout.message.encoder
  .uint32 (Flag.word message.flags)
  .int32 message.id
  optional message.sender Peer.encoder
  message.peer.encoder
  .int32 message.date
  .text message.text
  optional message.entities fun entities => .vector entities Entity.encoder
  optional message.views .int32

def EmptyMessage.encoder (message : EmptyMessage) : Encoder Unit := do
  Layout.emptyMessage.encoder
  .uint32 (Flag.word message.flags)
  .int32 message.id
  optional message.peer Peer.encoder

def AnyMessage.encoder : AnyMessage → Encoder Unit
  | .full message => message.encoder
  | .empty message => message.encoder

def Object.encoder : Object → Encoder Unit
  | .peer p => p.encoder
  | .entity e => e.encoder
  | .message m => m.encoder
  | .page messages => do
    Layout.page.encoder
    .vector messages AnyMessage.encoder

end TaggedWire.Chat
