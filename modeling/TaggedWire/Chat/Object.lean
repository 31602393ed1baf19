/-!
# The objects of a chat

Peers, formatting over a text, messages, and pages of messages.
-/

namespace TaggedWire.Chat

/-- Who a message belongs to. -/
inductive Peer where
  | user (id : Int64)
  | group (id : Int64)
  | channel (id : Int64)
  deriving DecidableEq, Repr

/-- Formatting that says nothing beyond its name. -/
inductive Style where
  | bold
  | italic
  | code
  | underline
  | strike
  | blockquote
  | email
  /-- A link found in the text. -/
  | url
  deriving DecidableEq, Repr

inductive Format where
  | plain (style : Style)
  /-- A preformatted block. The language is empty if it is unknown. -/
  | pre (language : String)
  /-- A link whose target is not the text itself. -/
  | link (url : String)
  /-- A user who may have no public name. -/
  | mention (user : Int64)
  deriving DecidableEq, Repr

/-- A formatted part of a text. Offset and length count UTF-16 units. -/
structure Entity where
  offset : Int32
  length : Int32
  format : Format
  deriving DecidableEq, Repr

structure Message where
  /-- The current user sent it. -/
  out : Bool
  silent : Bool
  id : Int32
  /-- Nobody for a post of a channel. -/
  sender : Option Peer
  peer : Peer
  /-- Seconds since 1970. -/
  date : Int32
  text : String
  entities : Option (Array Entity)
  /-- Only a post of a channel is counted. -/
  views : Option Int32
  deriving DecidableEq, Repr

/-- What stands for a message that is gone or out of reach. -/
structure EmptyMessage where
  id : Int32
  peer : Option Peer
  deriving DecidableEq, Repr

inductive AnyMessage where
  | full (message : Message)
  | empty (message : EmptyMessage)
  deriving DecidableEq, Repr

def AnyMessage.id : AnyMessage → Int32
  | .full message => message.id
  | .empty message => message.id

/-- Everything that travels on its own. -/
inductive Object where
  | peer (peer : Peer)
  | entity (entity : Entity)
  | message (message : AnyMessage)
  /-- A page of messages, the newest first. -/
  | page (messages : Array AnyMessage)
  deriving DecidableEq, Repr

end TaggedWire.Chat
