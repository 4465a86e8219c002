import Statsd.Datagram
import Statsd.Stream.Link

/-!
# Statsd.Link — the transport of a client

A client sends over datagrams or over a stream. A client that discards has an
idle transport, which is never used.
-/

namespace Statsd

/-- The transports that a configuration can ask for. -/
inductive Link where
  | datagram (l : Datagram.Link)
  | stream (l : Stream.Link)
  | idle

namespace Link

/-- Send over whichever transport it is. -/
def send : Link → ByteArray → Link × Except Failure Unit
  | .datagram l, message =>
    let (l, answer) := l.send message
    (.datagram l, answer)
  | .stream l, message =>
    let (l, answer) := l.send message
    (.stream l, answer)
  | .idle, _ => (.idle, .ok ())

/-- Let time pass. -/
def wait : Link → Nat → Link
  | .datagram l, nanos => .datagram (l.wait nanos)
  | .stream l, _ => .stream l
  | .idle, _ => .idle

instance : Transport Link := ⟨send, wait⟩

end Link

end Statsd
