import TaggedWire.Chat.Schema
import TaggedWire.Proofs.Chat.Canonical
import TaggedWire.Proofs.Chat.Cause
import TaggedWire.Proofs.Chat.Continuation
import TaggedWire.Proofs.Chat.Limits
import TaggedWire.Proofs.Chat.RoundTrip
import TaggedWire.Proofs.Breach
import TaggedWire.Proofs.Chat.Breach
import TaggedWire.Proofs.Chat.Work
import TaggedWire.Proofs.Read
import TaggedWire.Proofs.Session
import TaggedWire.Proofs.Chat.Session
import TaggedWire.Proofs.ReadBack
import TaggedWire.Proofs.Registration
import TaggedWire.Proofs.Extension
import TaggedWire.Proofs.Chat.Extension
import TaggedWire.Proofs.Appending
import TaggedWire.Proofs.Chat.Appending
import TaggedWire.Proofs.Depth
import TaggedWire.Proofs.Framing
import TaggedWire.Proofs.WideInt
import TaggedWire.Proofs.Records
import TaggedWire.Proofs.Narrowing
import TaggedWire.Proofs.Utf8
import TaggedWire.Proofs.Text
import TaggedWire.Proofs.Chat.Size
import TaggedWire.Proofs.Chat.Reservation
