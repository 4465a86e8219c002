import Statsd.Packet
import Statsd.Sink
import Statsd.Stream.Writer

/-!
# Statsd.Stream.Link — a stream that is opened again when it is lost

A link holds at most one open connection to its target and writes every packet
to it, with a line feed behind.

* `Slot.write` writes to the connection in use and gives it up at any failure.
  A packet of which nothing was taken is lost with the connection and may be
  sent again; one that was cut is broken and may not.
* `Link.send` tries the connection in use. If there is none, or if the packet
  was lost, it connects once and writes the packet there. The new connection
  is kept if it has taken the whole packet.
* How the target answers is data: `Link.answer n` is the answer to the
  `n`-th attempt to connect, with the answers to all writes that will be made
  on that connection.
-/

namespace Statsd.Stream

/-- An open or a former connection, as seen from both ends. -/
structure Connection where
  /-- How the coming writes are answered. -/
  peer : Peer
  /-- All bytes that the connection has taken. -/
  accepted : ByteArray
  /-- How many writes have been made. -/
  calls : Nat
  /-- How many of the bytes the far end reads; without a bound it reads all. -/
  read : Option Nat

namespace Connection

/-- A connection on which nothing has been written. -/
def fresh (peer : Peer) : Connection := ⟨peer, ByteArray.empty, 0, none⟩

/-- Write one packet. -/
def write (c : Connection) (packet : ByteArray) : Connection × Except PartialWrite Unit :=
  let x := c.peer.write packet
  ({ c with
      peer := x.peer
      accepted := c.accepted ++ x.taken
      calls := c.calls + x.calls },
    x.outcome)

/-- The bytes that the far end has read. -/
def arrived (c : Connection) : ByteArray :=
  match c.read with
  | none => c.accepted
  | some n => c.accepted.extract 0 n

end Connection

/-! ## The connection in use -/

/-- The place of the connection in use, and the connections given up before,
in the order in which they were opened. -/
structure Slot where
  held : Option Connection
  closed : List Connection

/-- What became of a packet at the slot. -/
inductive WriteOutcome where
  /-- The connection has taken the whole packet. -/
  | done
  /-- There is no connection. -/
  | notConnected
  /-- Nothing of the packet was taken; it can be sent on a new connection. -/
  | lost (e : Failure)
  /-- Part of the packet was taken; it must not be sent again. -/
  | broken (e : Failure)
deriving DecidableEq, Repr

namespace Slot

/-- No connection has been opened. -/
def empty : Slot := ⟨none, []⟩

/-- Put a new connection in use. -/
def hold (s : Slot) (c : Connection) : Slot := { s with held := some c }

/-- Add a connection to those given up. -/
def close (s : Slot) (c : Connection) : Slot := ⟨none, s.closed ++ [c]⟩

/-- All connections, in the order in which they were opened. -/
def connections (s : Slot) : List Connection := s.closed ++ s.held.toList

/-- Write to the connection in use; it is given up at any failure. -/
def write (s : Slot) (packet : ByteArray) : Slot × WriteOutcome :=
  match s.held with
  | none => (s, .notConnected)
  | some c =>
    let (c, answer) := c.write packet
    match answer with
    | .ok _ => (s.hold c, .done)
    | .error e =>
      (s.close c, if e.written = 0 then .lost e.failure else .broken e.failure)

end Slot

/-! ## The link -/

/-- The answer to an attempt to connect. -/
abbrev ConnectResult := Except Failure Peer

/-- A slot, and how the target answers attempts to connect. -/
structure Link where
  slot : Slot
  /-- How many attempts to connect have been made. -/
  attempts : Nat
  /-- The answer to each attempt. -/
  answer : Nat → ConnectResult

namespace Link

/-- A link that has not tried to connect. -/
def init (answer : Nat → ConnectResult) : Link := ⟨Slot.empty, 0, answer⟩

/-- Whether a connection is in use. -/
def isConnected (l : Link) : Bool := l.slot.held.isSome

/-- Try to connect, once. -/
def connect (l : Link) : Link × Except Failure Connection :=
  ({ l with attempts := l.attempts + 1 }, (l.answer l.attempts).map Connection.fresh)

/-- Connect ahead of the first packet. A failure is no error: the first packet
will try again. -/
def connectEarly (l : Link) : Link :=
  match l.connect with
  | (l, .ok c) => { l with slot := l.slot.hold c }
  | (l, .error _) => l

/-- Connect and write the packet there. -/
def sendAnew (l : Link) (packet : ByteArray) : Link × Except Failure Unit :=
  match l.connect with
  | (l, .error e) => (l, .error e)
  | (l, .ok c) =>
    match c.write packet with
    | (c, .ok _) => ({ l with slot := l.slot.hold c }, .ok ())
    | (c, .error e) => ({ l with slot := l.slot.close c }, .error e.failure)

/-- Send a message as a packet that ends with a line feed. -/
def send (l : Link) (message : ByteArray) : Link × Except Failure Unit :=
  let packet := message.push lineFeed
  let (slot, outcome) := l.slot.write packet
  let l := { l with slot }
  match outcome with
  | .done => (l, .ok ())
  | .broken e => (l, .error e)
  | .notConnected => l.sendAnew packet
  | .lost _ => l.sendAnew packet

instance : Transport Link := ⟨send, fun l _ => l⟩

/-- What the target has read, over all connections. -/
def arrived (l : Link) : ByteArray :=
  l.slot.connections.foldl (fun bytes c => bytes ++ c.arrived) ByteArray.empty

end Link

end Statsd.Stream
