import Statsd.Failure
import Statsd.Net.Address
import Statsd.Stream.Writer

/-!
# Statsd.Net.Host — what the host answers to socket calls

Whether a socket can be made depends on the host it is made on. A `Host` holds
the answers of one host as data; the rules that the library adds are functions
of it:

* `Host.resolve` reads an address or looks a name up, and prefers the family
  on which most daemons listen;
* `Host.openSocket` makes a socket, binds it, if a local address is wanted, and
  connects it; a local address of another family than the target is refused once
  there is a socket, before the host is asked for the address;
* `Host.loopback` is a host on which everything local works, `Host.isolated`
  one without any network interface.
-/

namespace Statsd.Net

open Statsd.Stream (Peer)

/-- Where packets are to go: a host by name or address, a port, and the local
address to send from, if it matters. -/
structure Target where
  host : String
  port : UInt16
  bind : Option Address
deriving DecidableEq, Repr

/-- The sockets that can be asked for. -/
inductive SocketKind where
  /-- For datagrams, with a send buffer of this size, if it matters. -/
  | datagram (sendBuffer : Option UInt64)
  | stream
deriving DecidableEq, Repr

/-- The answers of a host. -/
structure Host where
  /-- The addresses that a name stands for. -/
  lookup : String → Except Failure (List Address)
  /-- Whether there is a socket of a kind for a family, with the options that it is made with. -/
  make : SocketKind → Family → Except SystemError Unit
  /-- Whether a socket can have this local address. -/
  bind : Address → Except SystemError Unit
  /-- Whether there is a way to this address. -/
  route : Address → Except SystemError Unit
  /-- How an attempt to connect to a stream target ends that reaches it: what the target
  answers, and whether the open stream takes its options. -/
  answer : Endpoint → Except SystemError Peer
  /-- How many bytes of a datagram go out. -/
  carry : ByteArray → Except SystemError Nat

/-- The largest datagram: what is left of 65535 bytes behind two headers. -/
def maxDatagram : Nat := 65507

/-- A datagram goes out whole or not at all. -/
def carryWhole (d : ByteArray) : Except SystemError Nat :=
  if d.size ≤ maxDatagram then .ok d.size else .error .messageTooLong

namespace Host

/-- Look nothing up. -/
def lookupNothing (name : String) : Except Failure (List Address) :=
  .error (.unknownHost name)

/-- A host that reaches itself and listens nowhere. -/
def loopback : Host where
  lookup := lookupNothing
  make _ _ := .ok ()
  bind a := if a.isLoopback || a.isUnspecified then .ok () else .error .addressNotAvailable
  route _ := .ok ()
  answer _ := .error .connectionRefused
  carry := carryWhole

/-- A host on which no interface is up. There is no way to any address. A
socket for eight groups fails earlier, for want of an address to send from.
Four octets are bound without asking whether they are the host's own. -/
def isolated : Host where
  lookup := lookupNothing
  make _ _ := .ok ()
  bind a :=
    if a.mapped?.isSome || a.isUnspecified then .ok () else .error .addressNotAvailable
  route a := if a.mapped?.isSome then .error .networkUnreachable else .error .addressNotAvailable
  answer _ := .error .connectionRefused
  carry := carryWhole

/-- The same host with its stream targets up, or down. -/
def listening (h : Host) (up : Bool) : Host :=
  { h with answer := fun _ => if up then .ok Peer.willing else .error .connectionRefused }

/-- The address of the preferred family that comes first, else the first of all. -/
def preferred? (addresses : List Address) : Option Address :=
  addresses.find? (·.family = .ipv4) <|> addresses.head?

/-- The endpoint that a host name and a port stand for. -/
def resolve (h : Host) (name : String) (port : UInt16) : Except Failure Endpoint :=
  match Address.parse? name with
  | some a => .ok ⟨a, port⟩
  | none =>
    if name.toList.contains '\x00' then .error .malformedHost
    else
      match h.lookup name with
      | .error e => .error e
      | .ok addresses =>
        match preferred? addresses with
        | some a => .ok ⟨a, port⟩
        | none => .error (.unknownHost name)

/-- What the system answers, as a failure of this library. -/
def asked {α : Type} : Except SystemError α → Except Failure α
  | .ok a => .ok a
  | .error e => .error (.system e)

/-- Give a socket for a target a local address, if one is wanted. -/
def bindFor (h : Host) (target : Family) : Option Address → Except Failure Unit
  | none => .ok ()
  | some a => if a.family = target then asked (h.bind a) else .error .familyMismatch

/-- Make a socket, for datagrams unless another kind is asked for, that is connected
to a target. -/
def openSocket (h : Host) (target : Endpoint) (bind : Option Address)
    (kind : SocketKind := .datagram none) : Except Failure Unit := do
  asked (h.make kind target.address.family)
  h.bindFor target.address.family bind
  asked (h.route target.address)

/-- Make a stream to a target. -/
def openStream (h : Host) (target : Endpoint) (bind : Option Address) : Except Failure Peer := do
  h.openSocket target bind .stream
  asked (h.answer target)

/-- The address that the far end of a local connection sees: the one that was
bound, if it was a certain one, else the first of the family. -/
def sourceAddress (target : Family) (bind : Option Address) : Address :=
  let first : Address :=
    match target with
    | .ipv4 => .v4 #v[127, 0, 0, 1]
    | .ipv6 => .v6 #v[0, 0, 0, 0, 0, 0, 0, 1]
  match bind with
  | some a => if a.isUnspecified then first else a
  | none => first

end Host

end Statsd.Net
