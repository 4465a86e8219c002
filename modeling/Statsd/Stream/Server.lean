import Statsd.Config

/-!
# Statsd.Stream.Server — what a stream target does to its clients

A target can stop listening, start again, reset the connections it has, or
stop reading from them. Each of these changes how a link's coming writes and
attempts to connect are answered (`Link.afterEvent`), and nothing else of it.
-/

namespace Statsd.Stream

/-- What a target can do. -/
inductive ServerEvent where
  /-- Stop listening and reset all connections. -/
  | down
  /-- Listen. -/
  | up
  /-- Reset all connections and keep listening. -/
  | reset
  /-- Read nothing more from the connections there are. -/
  | stall
deriving DecidableEq, Repr

/-- What two socket buffers hold, that of the sender and that of the receiver. -/
def bufferRoom : Nat := 4 * 1024 * 1024

/-- Every write on a reset connection fails, and takes nothing. -/
def Connection.reset (c : Connection) : Connection :=
  { c with peer := { c.peer with script := [.failed (.system .brokenPipe)] } }

/-- A connection that is not read from fills the buffers and then blocks. -/
def Connection.stall (c : Connection) : Connection :=
  { c with
    peer := { c.peer with room := some bufferRoom }
    read := some (c.read.getD c.accepted.size) }

namespace Link

/-- Change the connection in use. -/
def mapHeld (l : Link) (f : Connection → Connection) : Link :=
  { l with slot := { l.slot with held := l.slot.held.map f } }

/-- From now on every attempt to connect is answered in the same way. -/
def follow (l : Link) (answer : ConnectResult) : Link := { l with answer := fun _ => answer }

/-- The link after an event; `answer` says how a target that listens, or does
not, answers an attempt to connect. -/
def afterEvent (l : Link) (answer : Bool → ConnectResult) : ServerEvent → Link
  | .down => (l.mapHeld Connection.reset).follow (answer false)
  | .up => l.follow (answer true)
  | .reset => l.mapHeld Connection.reset
  | .stall => l.mapHeld Connection.stall

end Link

end Statsd.Stream

namespace Statsd

/-- The session after an event at its stream target, on a given host. -/
def Session.afterServerEvent (s : Session Link) (h : Net.Host) (target : Net.Endpoint)
    (event : Stream.ServerEvent) : Session Link :=
  match s.sink.transport with
  | .stream l =>
    let answer := fun up => (h.listening up).openStream target none
    { s with sink := { s.sink with transport := .stream (l.afterEvent answer event) } }
  | _ => s

end Statsd
