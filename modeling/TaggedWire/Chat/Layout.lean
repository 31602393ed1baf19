import TaggedWire.Chat.Object

/-!
# The layouts of the chat schema

A layout is one way to write an object. It has an identifier on the wire and a name in the schema.
The layouts of messages begin with a word of flags.
-/

namespace TaggedWire.Chat

/-- One way to write an object. -/
inductive Layout where
  | user
  | group
  | channel
  | plain (style : Style)
  | pre
  | link
  | mention
  | message
  | emptyMessage
  | page
  deriving DecidableEq, Repr

namespace Layout

def id : Layout → UInt32
  | .user => 0x59511722
  | .group => 0x36c6019a
  | .channel => 0xa2a5371e
  | .plain .bold => 0xbd610bc9
  | .plain .italic => 0x826f8b60
  | .plain .code => 0x28a20571
  | .plain .underline => 0x9c4e7e8b
  | .plain .strike => 0xbf0693d4
  | .plain .blockquote => 0x020df5d0
  | .plain .email => 0x64e475c2
  | .plain .url => 0x6ed02538
  | .pre => 0x73924be0
  | .link => 0x76a6d327
  | .mention => 0xdc7b1140
  | .message => 0x94345242
  | .emptyMessage => 0x90a6ca84
  | .page => 0x8c718e87

def name : Layout → String
  | .user => "peerUser"
  | .group => "peerChat"
  | .channel => "peerChannel"
  | .plain .bold => "messageEntityBold"
  | .plain .italic => "messageEntityItalic"
  | .plain .code => "messageEntityCode"
  | .plain .underline => "messageEntityUnderline"
  | .plain .strike => "messageEntityStrike"
  | .plain .blockquote => "messageEntityBlockquote"
  | .plain .email => "messageEntityEmail"
  | .plain .url => "messageEntityUrl"
  | .pre => "messageEntityPre"
  | .link => "messageEntityTextUrl"
  | .mention => "messageEntityMentionName"
  | .message => "message"
  | .emptyMessage => "messageEmpty"
  | .page => "messages.messages"

/-- Every layout, in the order of registration. -/
def all : List Layout :=
  [.user, .group, .channel, .plain .bold, .plain .italic, .plain .code, .plain .underline,
    .plain .strike, .plain .blockquote, .plain .email, .plain .url, .pre, .link, .mention,
    .message, .emptyMessage, .page]

theorem mem_all (layout : Layout) : layout ∈ all := by
  cases layout with
  | plain style => cases style <;> decide
  | _ => decide

theorem id_injective {a b : Layout} (h : a.id = b.id) : a = b := by
  have distinct : ∀ a ∈ all, ∀ b ∈ all, a.id = b.id → a = b := by decide
  exact distinct a (mem_all a) b (mem_all b) h

end Layout

/-! ## The layout of an object -/

def Peer.layout : Peer → Layout
  | .user _ => .user
  | .group _ => .group
  | .channel _ => .channel

def Format.layout : Format → Layout
  | .plain style => .plain style
  | .pre _ => .pre
  | .link _ => .link
  | .mention _ => .mention

def AnyMessage.layout : AnyMessage → Layout
  | .full _ => .message
  | .empty _ => .emptyMessage

def Object.layout : Object → Layout
  | .peer p => p.layout
  | .entity e => e.format.layout
  | .message m => m.layout
  | .page _ => .page

/-! ## Flags

A word of flags says which fields follow and holds the truth values that take no field of their own.
Bits without a meaning are ignored when read and zero when written.
-/

/-- A bit that has a meaning. -/
inductive Flag where
  /-- Of an empty message: the peer follows. -/
  | peer
  | out
  | entities
  | sender
  | views
  | silent
  deriving DecidableEq, Repr

namespace Flag

/-- The place of the bit in the word. -/
def bit : Flag → UInt32
  | .peer => 0
  | .out => 1
  | .entities => 7
  | .sender => 8
  | .views => 10
  | .silent => 13

def mask (flag : Flag) : UInt32 :=
  1 <<< flag.bit

def isSet (flag : Flag) (word : UInt32) : Bool :=
  word &&& flag.mask != 0

def word (flags : List Flag) : UInt32 :=
  flags.foldr (fun flag rest => flag.mask ||| rest) 0

end Flag

end TaggedWire.Chat
