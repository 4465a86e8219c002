/-!
# Statsd.Packet — what is handed to a transport

A packet is a run of bytes that goes out as a whole, together with the number
of metric lines in it. Lines of one packet are separated by a line feed.
-/

namespace Statsd

namespace Bytes

/-- Byte strings are compared byte by byte, whatever instances are at hand besides. -/
scoped instance (priority := 2000) decidableEq : DecidableEq ByteArray := ByteArray.instDecidableEq

end Bytes

open Bytes

/-- The byte between two lines of a packet, and behind every packet on a stream. -/
def lineFeed : UInt8 := 0x0a

/-- Bytes that are sent together, and how many lines they hold. -/
structure Packet where
  data : ByteArray
  lines : Nat
deriving DecidableEq

/-- The packet that holds a text. -/
def Packet.ofString (text : String) (lines : Nat) : Packet := ⟨text.toUTF8, lines⟩

end Statsd
