import Statsd.Packet

/-!
# Statsd.Batch — joining messages into packets

Messages are joined, with a line feed in between, into packets of at most a
given size. The batch is what has been joined and not yet been sent.

* `Batch.push` takes one message and says which packets go out: none, the old
  batch, the message itself, or both in this order.
* A message never waits behind a batch that it does not fit into, is never
  cut, and goes out alone if it has the size of a packet or more.
* Nothing here depends on whether a packet reaches its target. A packet that
  goes out has left the batch for good.
-/

namespace Statsd

open Bytes

/-- Messages joined and not yet sent, and how many lines they hold. -/
structure Batch where
  data : ByteArray
  lines : Nat
deriving DecidableEq

namespace Batch

/-- The batch that holds nothing. -/
def empty : Batch := ⟨ByteArray.empty, 0⟩

/-- Whether the batch holds no line. -/
def isEmpty (b : Batch) : Bool := b.lines == 0

/-- The batch as one packet. -/
def packet (b : Batch) : Packet := ⟨b.data, b.lines⟩

/-- Put a message behind what is there. -/
def append (b : Batch) (m : Packet) : Batch :=
  { data := (if b.isEmpty then b.data else b.data.push lineFeed) ++ m.data
    lines := b.lines + m.lines }

/-- Whether a message fits behind what is there, with a line feed in between. -/
def fits (b : Batch) (limit : Nat) (m : Packet) : Bool :=
  b.isEmpty || b.data.size + 1 + m.data.size ≤ limit

/-- Take a message: the batch afterwards, and the packets that go out, in order. -/
def push (b : Batch) (limit : Nat) (m : Packet) : Batch × List Packet :=
  let (kept, sent) := if b.fits limit m then (b, []) else (empty, [b.packet])
  if limit ≤ m.data.size then (kept, sent ++ [m]) else (kept.append m, sent)

/-- Send what is there, if anything. -/
def flush (b : Batch) : Batch × List Packet :=
  if b.isEmpty then (b, []) else (empty, [b.packet])

end Batch

end Statsd
