import Statsd.Batch
import Statsd.Counters
import Statsd.Failure

/-!
# Statsd.Sink — batch, transport and counters

A sink takes messages, joins them if it has a batch size, gives the packets to
its transport and counts what becomes of them.

* `Transport` is all that a sink knows of a transport: a state that takes a
  packet's bytes and says whether they went out, and that may depend on time.
* Every packet that is attempted leaves an `Attempt`. The counters are a
  function of the attempts (`Counters.addAttempt`), and so is the answer to the caller: the
  first failure among the packets of the call (`Attempt.firstFailure?`).
-/

namespace Statsd

/-- A state that takes the bytes of one packet after the other. -/
class Transport (σ : Type) where
  /-- Try to send a packet. -/
  send : σ → ByteArray → σ × Except Failure Unit
  /-- Let so many nanoseconds pass. -/
  wait : σ → Nat → σ

/-- A packet given to the transport, and why it failed, if it did. -/
structure Attempt where
  packet : Packet
  failure? : Option Failure
deriving DecidableEq

/-- The failure of the first attempt that failed. -/
def Attempt.firstFailure? (attempts : List Attempt) : Option Failure :=
  attempts.findSome? (·.failure?)

/-- Count the lines of a packet as sent or as lost. -/
def Counters.addAttempt (c : Counters) (a : Attempt) : Counters :=
  match a.failure? with
  | none => c.addSent a.packet.lines
  | some _ => c.addDropped a.packet.lines

/-- Where the messages of a tree of clients go. -/
structure Sink (σ : Type) where
  /-- The size up to which messages are joined; without one each goes out at once. -/
  limit : Option Nat
  batch : Batch
  transport : σ
  counters : Counters

namespace Sink

variable {σ : Type}

/-- A sink that has taken nothing yet. -/
def init (limit : Option Nat) (transport : σ) : Sink σ :=
  ⟨limit, Batch.empty, transport, Counters.zero⟩

variable [Transport σ]

/-- Give one packet to the transport and count it. -/
def attempt (s : Sink σ) (p : Packet) : Sink σ × Attempt :=
  let (transport, answer) := Transport.send s.transport p.data
  let a : Attempt :=
    { packet := p
      failure? := match answer with
        | .ok _ => none
        | .error e => some e }
  ({ s with transport, counters := s.counters.addAttempt a }, a)

/-- Give packets to the transport one after the other; a failure does not keep
the next one back. -/
def attemptAll (s : Sink σ) : List Packet → Sink σ × List Attempt
  | [] => (s, [])
  | p :: rest =>
    let (s, a) := s.attempt p
    let (s, as) := s.attemptAll rest
    (s, a :: as)

/-- Take a message. -/
def emit (s : Sink σ) (m : Packet) : Sink σ × List Attempt :=
  match s.limit with
  | none => s.attemptAll [m]
  | some limit =>
    let (batch, packets) := s.batch.push limit m
    { s with batch }.attemptAll packets

/-- Send what has been joined so far. -/
def flush (s : Sink σ) : Sink σ × List Attempt :=
  match s.limit with
  | none => (s, [])
  | some _ =>
    let (batch, packets) := s.batch.flush
    { s with batch }.attemptAll packets

end Sink

end Statsd
