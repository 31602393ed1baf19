import TaggedWire.Chat.Layout
import TaggedWire.Decoder.Composite

/-!
# Reading the objects of a chat

One body for each layout. It runs after the identifier and reads the fields in the order in which
they are written.
-/

namespace TaggedWire.Chat

/-! ## Declared types -/

def Peer.kind : Kind Object Peer where
  name := "Peer"
  narrow?
    | .peer peer => some peer
    | _ => none

def Entity.kind : Kind Object Entity where
  name := "MessageEntity"
  narrow?
    | .entity entity => some entity
    | _ => none

def AnyMessage.kind : Kind Object AnyMessage where
  name := "AnyMessage"
  narrow?
    | .message message => some message
    | _ => none

/-! ## Bodies -/

/-- Every entity begins with its offset and its length. -/
def Entity.decoder (format : Decoder Object Format) : Decoder Object Entity := do
  let offset ← .int32
  let length ← .int32
  return ⟨offset, length, ← format⟩

/-- A field that is there if its flag is set. -/
def Flag.field {α : Type} (flag : Flag) (word : UInt32) (decoder : Decoder Object α) :
    Decoder Object (Option α) :=
  if flag.isSet word then some <$> decoder else pure none

def Message.decoder : Decoder Object Message := do
  let flags ← .uint32
  let id ← .int32
  let sender ← Flag.sender.field flags (.typed Peer.kind)
  let peer ← .typed Peer.kind
  let date ← .int32
  let text ← .text
  let entities ← Flag.entities.field flags (.typedVector Entity.kind)
  let views ← Flag.views.field flags .int32
  return {
    out := Flag.out.isSet flags
    silent := Flag.silent.isSet flags
    id, sender, peer, date, text, entities, views }

def EmptyMessage.decoder : Decoder Object EmptyMessage := do
  let flags ← .uint32
  let id ← .int32
  let peer ← Flag.peer.field flags (.typed Peer.kind)
  return { id, peer }

/-- Reads the fields of a layout. -/
def Layout.body : Layout → Decoder Object Object
  | .user => return .peer (.user (← .int64))
  | .group => return .peer (.group (← .int64))
  | .channel => return .peer (.channel (← .int64))
  | .plain style => return .entity (← Entity.decoder (return .plain style))
  | .pre => return .entity (← Entity.decoder (return .pre (← .text)))
  | .link => return .entity (← Entity.decoder (return .link (← .text)))
  | .mention => return .entity (← Entity.decoder (return .mention (← .int64)))
  | .message => return .message (.full (← Message.decoder))
  | .emptyMessage => return .message (.empty (← EmptyMessage.decoder))
  | .page => return .page (← .typedVector AnyMessage.kind)

end TaggedWire.Chat
