import Statsd.Net.Host
import Statsd.Sink

/-!
# Statsd.Datagram — datagrams to a target that may be resolved late

A datagram link sends every packet as one datagram, once it has a socket. A
target that could not be resolved when the link was made is resolved in the
background.

* A send without a socket fails, and may start a resolve (`Link.startResolve`).
* No resolve is started while one is running, nor before the retry interval
  since the last start is over; such a send changes nothing.
* When a resolve ends (`Link.complete`) the link has a socket, if it
  succeeded, and may start another one, if it did not. A socket is never
  replaced.
-/

namespace Statsd.Datagram

open Net (Host Target)

/-- A connected socket: how many bytes of a datagram it sends. -/
structure Socket where
  carry : ByteArray → Except SystemError Nat

/-- The state of a datagram link. -/
structure Link where
  target : Target
  /-- The least time between two starts of a resolve, in nanoseconds. -/
  retryInterval : Nat
  socket : Option Socket
  /-- The mark by which a send knows that a resolve is running. -/
  resolving : Bool
  /-- When the last resolve was started. -/
  lastStart : Option Nat
  /-- How many resolves are running. -/
  running : Nat
  /-- When each resolve was started, in order. -/
  starts : List Nat
  /-- The time now, in nanoseconds. -/
  clock : Nat
  /-- Every datagram given to the socket, in order. -/
  offered : List ByteArray

namespace Link

/-- A link without a socket. -/
def init (target : Target) (retryInterval : Nat) : Link :=
  { target, retryInterval, socket := none, resolving := false, lastStart := none
    running := 0, starts := [], clock := 0, offered := [] }

/-- Use a socket; one that is there already stays. -/
def withSocket (l : Link) (s : Socket) : Link :=
  { l with socket := some (l.socket.getD s) }

/-- Whether the link has a socket. -/
def isConnected (l : Link) : Bool := l.socket.isSome

/-- Whether the last start is too recent for another one. -/
def throttled (l : Link) : Bool :=
  match l.lastStart with
  | none => false
  | some t => l.clock - t < l.retryInterval

/-- Start a resolve, unless the last start is too recent or one is running. -/
def startResolve (l : Link) : Link :=
  if l.throttled || l.resolving then l
  else
    { l with
      resolving := true
      lastStart := some l.clock
      running := l.running + 1
      starts := l.starts ++ [l.clock] }

/-- What a resolve comes to on a host: a socket connected to the target. -/
def tryResolve (t : Target) (h : Host) (sendBuffer : Option UInt64 := none) :
    Except Failure Socket := do
  let endpoint ← h.resolve t.host t.port
  h.openSocket endpoint t.bind (.datagram sendBuffer)
  return ⟨h.carry⟩

/-- A running resolve ends. -/
def complete (l : Link) (result : Except Failure Socket) : Link :=
  let l := match result with
    | .ok s => l.withSocket s
    | .error _ => l
  { l with resolving := false, running := l.running - 1 }

/-- Let time pass. -/
def wait (l : Link) (nanos : Nat) : Link := { l with clock := l.clock + nanos }

/-- Send a message as one datagram. -/
def send (l : Link) (message : ByteArray) : Link × Except Failure Unit :=
  match l.socket with
  | none => (l.startResolve, .error (.unresolved l.target.host l.target.port))
  | some s =>
    let l := { l with offered := l.offered ++ [message] }
    match s.carry message with
    | .error e => (l, .error (.system e))
    | .ok n => (l, if n < message.size then .error (.cut n message.size) else .ok ())

instance : Transport Link := ⟨send, wait⟩

/-- The datagrams that went out whole, in order. -/
def delivered (l : Link) : List ByteArray :=
  match l.socket with
  | none => []
  | some s => l.offered.filter fun d =>
      match s.carry d with
      | .ok n => d.size ≤ n
      | .error _ => false

end Link

end Statsd.Datagram
