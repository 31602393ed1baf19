import TaggedWire.Chat.Decoder
import TaggedWire.Chat.Encoder
import TaggedWire.Reader

/-!
# The chat schema

The registry of all layouts, and reading and writing whole objects with it.
-/

namespace TaggedWire.Chat

def Layout.constructor (layout : Layout) : Constructor Object where
  id := layout.id
  name := layout.name
  body := layout.body

/-- Every layout of the schema. -/
def registry : Registry Object where
  constructors := Layout.all.map Layout.constructor
  nodup := by decide

/-- The object at the start of a buffer. What follows it is ignored. -/
def decode (buffer : ByteArray) (limits : Limits := {}) : Except Fault Object :=
  Reader.decode { registry, limits } buffer

def encode (object : Object) : Except Fault ByteArray :=
  let (result, written) := object.encoder.run .empty
  result.map fun _ => written

end TaggedWire.Chat
