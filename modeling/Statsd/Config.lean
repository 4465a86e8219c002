import Statsd.Link
import Statsd.Session

/-!
# Statsd.Config — from settings to a session

A configuration says where metrics go, under which prefix and how they are
joined. Each setter replaces one field (`Config.set`), so only the last value
given for a field counts.

`Config.build` checks the fields in a fixed order: batch size, send timeout,
host, port; then it turns to the host.

* A discarding client needs none of the target's fields, but the batch size
  and the timeout are checked all the same.
* A datagram target that does not resolve is logged and will be resolved on
  send; if it resolves, the socket is made at once, and a failure is an error.
* A stream target has to resolve. It is connected ahead of the first packet,
  and a failure to connect is no error.
* The batch is given its full size in memory at the start, so a size beyond
  what memory can address ends in `BuildResult.exhausted`. A size up to that is
  assumed to be granted: an allocator that refuses it ends the whole process,
  which is not modelled.
-/

namespace Statsd

open Net (Address Endpoint Host Target)

/-- The two ways to send. -/
inductive Channel where
  | datagram
  | stream
deriving DecidableEq, Repr

/-- Datagrams, unless a stream is asked for. -/
instance : Inhabited Channel := ⟨.datagram⟩

/-- Where metrics go. -/
inductive Backend where
  | datagram (target : Target)
  | stream (target : Target)
  | discard
deriving DecidableEq, Repr

namespace Backend

/-- A target without a local address. -/
def ofTarget (host : String) (port : UInt16) : Channel → Backend
  | .datagram => .datagram ⟨host, port, none⟩
  | .stream => .stream ⟨host, port, none⟩

/-- The daemon of this host, where it listens by custom. -/
def localDaemon : Backend := ofTarget "127.0.0.1" 8125 default

instance : Inhabited Backend := ⟨localDaemon⟩

end Backend

/-- What a client is to be like. Durations are in nanoseconds. -/
structure Config where
  backend : Backend
  scope : Prefix
  batchSize : Option UInt64
  sendBufferSize : Option UInt64
  sendTimeout : Nat
  retryInterval : Nat
deriving DecidableEq

/-- One setting. -/
inductive Setting where
  | backend (b : Backend)
  | scope (p : Prefix)
  | batchSize (size : UInt64)
  | sendBufferSize (size : UInt64)
  | sendTimeout (nanos : Nat)
  | retryInterval (nanos : Nat)
deriving DecidableEq

namespace Config

/-- The configuration that has a prefix and is otherwise as by default: no
batch, 10 ms for a stream to take a packet, 1 s between two resolves. -/
def withPrefix (scope : Prefix) : Config :=
  { backend := default
    scope
    batchSize := none
    sendBufferSize := none
    sendTimeout := Duration.nanosPerSecond / 100
    retryInterval := Duration.nanosPerSecond }

instance : Inhabited Config := ⟨withPrefix Prefix.empty⟩

/-- Change one field. -/
def set (c : Config) : Setting → Config
  | .backend b => { c with backend := b }
  | .scope p => { c with scope := p }
  | .batchSize size => { c with batchSize := some size }
  | .sendBufferSize size => { c with sendBufferSize := some size }
  | .sendTimeout nanos => { c with sendTimeout := nanos }
  | .retryInterval nanos => { c with retryInterval := nanos }

/-- Change fields one after the other. -/
def setAll (c : Config) (settings : List Setting) : Config := settings.foldl set c

end Config

/-! ## Errors -/

/-- Why no client was made. -/
inductive BuildError where
  | emptyHost
  | invalidPort
  | resolveFailed (host : String) (port : UInt16) (cause : Failure)
  | invalidPrefix (e : PrefixError)
  | zeroBatchSize
  | zeroSendTimeout
  | socketError (cause : Failure)
deriving DecidableEq, Repr

namespace BuildError

/-- The wording for a stream target that does not resolve, with the cause as text. -/
def resolveMessage (host : String) (port : UInt16) (cause : String) : String :=
  "failed to resolve target " ++ host ++ ":" ++ Decimal.ofNat port.toNat ++ ": " ++ cause

/-- The wording of a build error. -/
def message : BuildError → String
  | .emptyHost => "no target host has been set"
  | .invalidPort => "target port should not be 0"
  | .resolveFailed host port cause => resolveMessage host port cause.message
  | .invalidPrefix e => "invalid metrics prefix: " ++ e.message
  | .zeroBatchSize => "batch size should not be 0"
  | .zeroSendTimeout => "send timeout should not be 0"
  | .socketError cause => "socket error: " ++ cause.message

end BuildError

/-- What building a client comes to, if the allocator grants the memory for a
batch of up to `maxBuffer` bytes. -/
inductive BuildResult where
  /-- A session with the client in it. -/
  | ready (s : Session Link)
  | refused (e : BuildError)
  /-- The batch would be larger than memory can be. -/
  | exhausted

/-- The most bytes that one buffer can have: `2^63 - 1`. Whether there are as many
is up to the allocator; here they are assumed to be granted. -/
def maxBuffer : Nat := 0x7fffffffffffffff

namespace Session

/-- A session whose client discards everything. -/
def discarding (draws : Generator) : Session Link :=
  Session.init (Sink.init none .idle) Prefix.empty false draws

/-- The client that a session starts with, over a transport. -/
def overLink (c : Config) (link : Link) (draws : Generator) : BuildResult :=
  if maxBuffer < (c.batchSize.getD 0).toNat then .exhausted
  else
    .ready (Session.init (Sink.init (c.batchSize.map UInt64.toNat) link) c.scope true draws)

end Session

namespace Config

/-- A target has a host and a port. -/
def checkTarget (t : Target) : Except BuildError Unit :=
  if t.host.isEmpty then .error .emptyHost
  else if t.port = 0 then .error .invalidPort
  else .ok ()

/-- The transport to a datagram target, and what is logged. -/
def openDatagram (c : Config) (t : Target) (h : Host) : List LogEntry × Except BuildError Link :=
  let link := Datagram.Link.init t c.retryInterval
  match h.resolve t.host t.port with
  | .error _ => ([.unresolvedTarget t.host t.port], .ok (.datagram link))
  | .ok endpoint =>
    match h.openSocket endpoint t.bind (.datagram c.sendBufferSize) with
    | .error e => ([], .error (.socketError e))
    | .ok _ => ([], .ok (.datagram (link.withSocket ⟨h.carry⟩)))

/-- The transport to a stream target. -/
def openStream (t : Target) (h : Host) : Except BuildError Link :=
  match h.resolve t.host t.port with
  | .error e => .error (.resolveFailed t.host t.port e)
  | .ok endpoint =>
    let answer := h.openStream endpoint t.bind
    .ok (.stream (Stream.Link.init fun _ => answer).connectEarly)

/-- The transport to a backend's target, or none if there is no target. -/
def openLink (c : Config) (h : Host) : List LogEntry × Except BuildError (Option Link) :=
  match c.backend with
  | .discard => ([], .ok none)
  | .datagram t =>
    match checkTarget t with
    | .error e => ([], .error e)
    | .ok _ =>
      let (log, link) := c.openDatagram t h
      (log, link.map some)
  | .stream t =>
    match checkTarget t with
    | .error e => ([], .error e)
    | .ok _ => ([], (openStream t h).map some)

/-- Make a client on a host: what is logged, and the session with the client.
The caller's random source is part of the session. -/
def build (c : Config) (h : Host) (draws : Generator) : List LogEntry × BuildResult :=
  if c.batchSize = some 0 then ([], .refused .zeroBatchSize)
  else if c.sendTimeout = 0 then ([], .refused .zeroSendTimeout)
  else
    match c.openLink h with
    | (log, .error e) => (log, .refused e)
    | (log, .ok none) => (log, .ready (Session.discarding draws))
    | (log, .ok (some link)) => (log, Session.overLink c link draws)

/-- Make a client for a target with the default configuration. The prefix is
read before anything else is checked. -/
def connect (host : String) (port : UInt16) (scope : String) (channel : Channel) (h : Host)
    (draws : Generator) : List LogEntry × BuildResult :=
  match Prefix.parse scope with
  | .error e => ([], .refused (.invalidPrefix e))
  | .ok p =>
    ((withPrefix p).set (.backend (Backend.ofTarget host port channel))).build h draws

end Config

end Statsd
